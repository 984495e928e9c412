import Membrane.Proofs.Ownership.Balance
import Membrane.Proofs.World.Loop
/-!
Runs over one realm. References are made, copied, given back, dropped, and turned into plain handles
and back, and what was noted is collected, at once or by the job that is queued for it, in any order.
-/

set_option autoImplicit false

namespace Membrane.Ownership

open Act RefTable

/-- What is done with references. -/
inductive Move where
  | retain (v : Host.Value)
  | global
  | copy (o : Owned)
  /-- A plain handle is owned by a reference again. -/
  | adopt (o : Owned)
  /-- A reference is turned into a plain handle. -/
  | disown (o : Owned)
  | release (o : Owned)
  | releaseRaw (o : Owned)
  | drop (o : Owned)
  | collect
  /-- The loop of the realm runs the next of its jobs. -/
  | turn

namespace Move

/-- A move in a realm. It answers with the handle of what it makes. -/
def act (r : RealmId) : Move → Act (Except Fault (Option Handle))
  | retain v => return .ok (some (← Act.retain r v))
  | global => return (← copyRef ⟨r, .globalObject⟩).map fun ref => some ref.handle
  | copy o => return (← copyRef ⟨r, o.handle⟩).map fun ref => some ref.handle
  | adopt o | disown o => return .ok (some o.handle)
  | release o | releaseRaw o => return (← releaseRef ⟨r, o.handle⟩).map fun _ => none
  | drop o => do
    dropRef ⟨r, o.handle⟩
    return .ok none
  | collect => do
    let _ ← collectGarbage r
    return .ok none
  | turn => do
    let _ ← (restless (← realm r).loop).drain 1
    return .ok none

/-- Nothing is given back or handed on but by its owner, and the jobs that are run are those that
the realm queued. -/
def Allowed (r : RealmId) (w : World) (hands : Hands) : Move → Prop
  | retain _ | global | collect => True
  | copy o | disown o | release o | drop o => o ∈ hands.held
  | adopt o | releaseRaw o => o ∈ hands.raw
  | turn => ∃ x w', w.realms[r]? = some x ∧ w.next? x.loop = some (.collect r, w')

/-- No count and no number of handles gets out of range. -/
def Fits (t : RefTable) : Move → Prop
  | retain v => (Call.retain v).Fits t
  | global => (Call.retainHandle .globalObject).Fits t
  | copy o => (Call.retainHandle o.handle).Fits t
  | _ => True

/-- What is in whose hands after a move that came to its answer. -/
def after (x : Realm) (hands : Hands) : Move → Except Fault (Option Handle) → Hands
  | retain v, .ok (some h) => hands.hold ⟨h, v.key⟩
  | global, .ok (some h) => hands.hold ⟨h, .object x.globalObject⟩
  | copy o, .ok (some h) => hands.hold ⟨h, o.key⟩
  | adopt o, _ => (hands.letGoRaw o).hold o
  | disown o, _ => (hands.letGo o).holdRaw o
  | release o, _ => hands.letGo o
  | releaseRaw o, _ => hands.letGoRaw o
  | drop o, _ => if x.features.weakRefs then hands.letGo o else hands.lose o
  | _, _ => hands

end Move

/-- The worlds that moves lead to, each made on a thread of its own, with what is in whose hands. -/
inductive Run (r : RealmId) (start : World) : Hands → World → Prop
  | begin : Run r start .empty start
  | move {hands : Hands} {w w' : World} {x : Realm} (m : Move) (thread : ThreadId)
      (answer : Except Fault (Option Handle)) (run : Run r start hands w)
      (present : w.realms[r]? = some x) (allowed : m.Allowed r { w with here := thread } hands)
      (fits : m.Fits x.table)
      (done : exec (m.act r) { w with here := thread } = (.ok answer, w')) :
      Run r start (m.after x hands answer) w'

/-- The state of a realm whose references are in these hands. -/
structure Conserved (x : Realm) (hands : Hands) : Prop where
  counted : ∀ h, x.table.count h = (if h = .globalObject then 1 else 0) +
    references hands.held h + references hands.raw h +
      if x.features.weakRefs then x.finalizers.count h else hands.lost.count h
  live : ∀ h, x.table.contains h ↔ 0 < x.table.count h
  stands : ∀ o ∈ hands.held ++ hands.raw, ∃ v, x.table.get o.handle = .ok v ∧ v.key = o.key
  root : x.table.get .globalObject = .ok (.object x.globalObject)
  drained : x.features.weakRefs → hands.held = [] → hands.raw = [] → x.finalizers = [] →
    ∀ h, x.table.contains h ↔ h = .globalObject

/-- A realm comes to be another one, whose references are in these hands. -/
structure Becomes (x y : Realm) (hands : Hands) : Prop where
  owner : y.owner = x.owner
  features : y.features = x.features
  globalObject : y.globalObject = x.globalObject
  balanced : Balanced y hands

/-- A world where a realm has become one whose references are in these hands. -/
def Leaves (r : RealmId) (x : Realm) (hands : Hands) (w : World) : Prop :=
  ∃ y, w.realms[r]? = some y ∧ Becomes x y hands

variable {r : RealmId} {x : Realm} {hands hands' : Hands} {w w' : World}

theorem Balanced.leaves (balanced : Balanced x hands) (present : w.realms[r]? = some x) :
    Leaves r x hands w := ⟨x, present, rfl, rfl, rfl, balanced⟩

theorem Becomes.leaves {y : Realm} (becomes : Becomes x y hands) (present : w.realms[r]? = some x) :
    Leaves r x hands (w.withRealm r y) := by
  refine ⟨y, ?_, becomes⟩
  rw [w.realms_withRealm r x y present, if_pos rfl]

theorem Balanced.exec_retain (balanced : Balanced x hands) (present : w.realms[r]? = some x)
    (owner : x.owner = w.here) (v : Host.Value) (fits : (Call.retain v).Fits x.table) :
    ∃ h w', exec (Act.retain r v) w = (.ok h, w') ∧ Leaves r x (hands.hold ⟨h, v.key⟩) w' := by
  refine ⟨_, _, Act.exec_retain w r x present owner v, ?_⟩
  have becomes : Becomes x (x.retain v).2 (hands.hold ⟨(x.retain v).1, v.key⟩) :=
    ⟨rfl, rfl, rfl, balanced.retain v fits⟩
  exact becomes.leaves present

theorem Balanced.exec_copyRef (balanced : Balanced x hands) (present : w.realms[r]? = some x)
    (owner : x.owner = w.here) (o : Owned) (stands : Stands x.table o)
    (fits : (Call.retainHandle o.handle).Fits x.table) :
    ∃ w', exec (copyRef ⟨r, o.handle⟩) w = (.ok (.ok ⟨r, o.handle⟩), w') ∧
      Leaves r x (hands.hold o) w' := by
  obtain ⟨t, retained, kept⟩ := balanced.retainHandle o stands fits
  refine ⟨w.withRealm r { x with table := t }, ?_, ?_⟩
  · simp only [copyRef, exec_bind, exec_retainHandle w r x present owner, retained, goOn_ok,
      exec_pure]
    rfl
  · have becomes : Becomes x { x with table := t } (hands.hold o) := ⟨rfl, rfl, rfl, kept⟩
    exact becomes.leaves present

theorem Balanced.exec_releaseRef (balanced : Balanced x hands) (present : w.realms[r]? = some x)
    (owner : x.owner = w.here) (o : Owned) (member : o ∈ hands.held ++ hands.raw)
    (less : ∀ h, hands'.due x.finalizers h + o.handle.only h = hands.due x.finalizers h)
    (kept : ∀ p ∈ hands'.held ++ hands'.raw, p ∈ hands.held ++ hands.raw)
    (lost : hands'.lost = hands.lost) :
    ∃ w', exec (releaseRef ⟨r, o.handle⟩) w = (.ok (.ok ()), w') ∧ Leaves r x hands' w' := by
  obtain ⟨t, released, left⟩ := balanced.release o member less kept lost
  refine ⟨w.withRealm r { x with table := t }, ?_, ?_⟩
  · simp only [releaseRef, exec_release w r x present owner, released]
  · have becomes : Becomes x { x with table := t } hands' := ⟨rfl, rfl, rfl, left⟩
    exact becomes.leaves present

theorem Balanced.lost (balanced : Balanced x hands) (present : w.realms[r]? = some x) (o : Owned)
    (member : o ∈ hands.held) :
    Leaves r x (if x.features.weakRefs then hands.letGo o else hands.lose o)
      (w.lost ⟨r, o.handle⟩) := by
  refine ⟨_, w.realms_lost ⟨r, o.handle⟩ x present, ?_⟩
  cases weak : x.features.weakRefs with
  | true => exact ⟨rfl, rfl, rfl, balanced.note o member weak⟩
  | false => exact ⟨rfl, rfl, rfl, balanced.lose o member weak⟩

theorem Balanced.exec_collectGarbage (balanced : Balanced x hands)
    (present : w.realms[r]? = some x) (count : Nat)
    (done : exec (collectGarbage r) w = (.ok count, w')) : Leaves r x hands w' := by
  obtain ⟨y, rfl, ⟨rfl, _⟩ | rfl⟩ := exec_collectGarbage_eq_ok w r x present count w' done
  · rw [w.withRealm_self r y present]
    exact balanced.leaves present
  · have becomes : Becomes x x.collect.2 hands := by
      have kept := balanced.collect
      rw [x.collect_eq] at kept ⊢
      exact ⟨rfl, rfl, rfl, kept⟩
    exact becomes.leaves present

/-- The job of a realm collects, if the realm is there still. -/
theorem exec_turn_collect (present : w.realms[r]? = some x) (w₁ : World)
    (next : w.next? x.loop = some (.collect r, w₁)) :
    exec (Move.turn.act r) w = goOn (exec (performJob (.collect r)) w₁) fun _ => pure (.ok none) := by
  simp only [Move.act, exec_bind, exec_realm w r x present, goOn_ok,
    exec_turn w x.loop (.collect r) w₁ next]
  rcases exec (performJob (.collect r)) w₁ with ⟨halt | _, w₂⟩ <;> rfl

theorem exec_performJob_collect (w : World) :
    exec (performJob (.collect r)) w =
      if w.holdsRealm r then goOn (exec (collectGarbage r) w) fun _ => pure () else (.ok (), w) := by
  simp only [performJob, exec_bind, exec_get, goOn_ok, exec_ite, exec_pure]

/-- A job is taken out of the loop, the realm is as it was. -/
theorem present_of_next (l : LoopId) (job : Job) (w₁ : World) (next : w.next? l = some (job, w₁)) :
    w₁.realms = w.realms ∧ w₁.here = w.here := by
  obtain ⟨q, rfl⟩ := w.next?_withQueue l job w₁ next
  exact ⟨rfl, rfl⟩

theorem Balanced.turn (balanced : Balanced x hands) (present : w.realms[r]? = some x) (w₁ : World)
    (next : w.next? x.loop = some (.collect r, w₁)) (answer : Except Fault (Option Handle))
    (done : exec (Move.turn.act r) w = (.ok answer, w')) : Leaves r x hands w' := by
  obtain ⟨realms, _⟩ := present_of_next x.loop _ w₁ next
  have there : w₁.realms[r]? = some x := by rw [realms, present]
  rw [exec_turn_collect present w₁ next, exec_performJob_collect] at done
  split at done
  · rcases collected : exec (collectGarbage r) w₁ with ⟨halt | count, w₂⟩
    · rw [collected, goOn_error, goOn_error] at done
      cases done
    · rw [collected, goOn_ok, exec_pure, goOn_ok, exec_pure] at done
      cases done
      exact balanced.exec_collectGarbage there count collected
  · cases done
    exact balanced.leaves there

/-- Only the owner of a realm gets on with work on its table. -/
theorem owner_of_retain (present : w.realms[r]? = some x) (v : Host.Value) (h : Handle)
    (done : exec (Act.retain r v) w = (.ok h, w')) : x.owner = w.here :=
  owner_of_asserted w r x present _ w' h done

theorem owner_of_copyRef (present : w.realms[r]? = some x) (h : Handle)
    (result : Except Fault Guest.Ref) (done : exec (copyRef ⟨r, h⟩) w = (.ok result, w')) :
    x.owner = w.here := by
  obtain ⟨_, _, retained, _⟩ := exec_bind_eq_ok _ _ _ _ _ done
  exact owner_of_asserted w r x present _ _ _ retained

theorem owner_of_releaseRef (present : w.realms[r]? = some x) (h : Handle)
    (result : Except Fault Unit) (done : exec (releaseRef ⟨r, h⟩) w = (.ok result, w')) :
    x.owner = w.here :=
  owner_of_asserted w r x present _ w' result done

theorem Balanced.stands_root (balanced : Balanced x hands) :
    Stands x.table ⟨.globalObject, .object x.globalObject⟩ := ⟨_, balanced.sound.root, rfl⟩

/-- A copy that was answered is one more reference in the hands. -/
theorem Balanced.copied (balanced : Balanced x hands) (present : w.realms[r]? = some x) (o : Owned)
    (stands : Stands x.table o) (fits : (Call.retainHandle o.handle).Fits x.table)
    (result : Except Fault Guest.Ref) (done : exec (copyRef ⟨r, o.handle⟩) w = (.ok result, w')) :
    result = .ok ⟨r, o.handle⟩ ∧ Leaves r x (hands.hold o) w' := by
  have owner := owner_of_copyRef present _ result done
  obtain ⟨_, same, leaves⟩ := balanced.exec_copyRef present owner o stands fits
  cases same.symm.trans done
  exact ⟨rfl, leaves⟩

/-- A release that was answered took a reference out of the hands. -/
theorem Balanced.released (balanced : Balanced x hands) (present : w.realms[r]? = some x) (o : Owned)
    (member : o ∈ hands.held ++ hands.raw)
    (less : ∀ h, hands'.due x.finalizers h + o.handle.only h = hands.due x.finalizers h)
    (kept : ∀ p ∈ hands'.held ++ hands'.raw, p ∈ hands.held ++ hands.raw)
    (lost : hands'.lost = hands.lost) (result : Except Fault Unit)
    (done : exec (releaseRef ⟨r, o.handle⟩) w = (.ok result, w')) :
    result = .ok () ∧ Leaves r x hands' w' := by
  have owner := owner_of_releaseRef present _ result done
  obtain ⟨_, same, leaves⟩ := balanced.exec_releaseRef present owner o member less kept lost
  cases same.symm.trans done
  exact ⟨rfl, leaves⟩

theorem Balanced.step (balanced : Balanced x hands) (present : w.realms[r]? = some x) (m : Move)
    (allowed : m.Allowed r w hands) (fits : m.Fits x.table) (answer : Except Fault (Option Handle))
    (done : exec (m.act r) w = (.ok answer, w')) : Leaves r x (m.after x hands answer) w' := by
  cases m with
  | retain v =>
    obtain ⟨h, w₁, retained, rest⟩ := exec_bind_eq_ok _ _ _ _ _ done
    have owner := owner_of_retain present v h retained
    obtain ⟨k, w₂, same, leaves⟩ := balanced.exec_retain present owner v fits
    cases same.symm.trans retained
    cases rest
    exact leaves
  | global =>
    obtain ⟨result, w₁, copied, rest⟩ := exec_bind_eq_ok _ _ _ _ _ done
    obtain ⟨rfl, leaves⟩ :=
      balanced.copied present ⟨.globalObject, _⟩ balanced.stands_root fits result copied
    cases rest
    exact leaves
  | copy o =>
    obtain ⟨result, w₁, copied, rest⟩ := exec_bind_eq_ok _ _ _ _ _ done
    have stands := balanced.stands o (List.mem_append_left _ allowed)
    obtain ⟨rfl, leaves⟩ := balanced.copied present o stands fits result copied
    cases rest
    exact leaves
  | adopt o =>
    cases done
    exact (balanced.adopt o allowed).leaves present
  | disown o =>
    cases done
    exact (balanced.disown o allowed).leaves present
  | release o =>
    obtain ⟨result, w₁, released, rest⟩ := exec_bind_eq_ok _ _ _ _ _ done
    obtain ⟨rfl, leaves⟩ := balanced.released present o (List.mem_append_left _ allowed)
      (due_letGo o allowed x.finalizers) (mem_of_letGo o) rfl result released
    cases rest
    exact leaves
  | releaseRaw o =>
    obtain ⟨result, w₁, released, rest⟩ := exec_bind_eq_ok _ _ _ _ _ done
    obtain ⟨rfl, leaves⟩ := balanced.released present o (List.mem_append_right _ allowed)
      (due_letGoRaw o allowed x.finalizers) (mem_of_letGoRaw o) rfl result released
    cases rest
    exact leaves
  | drop o =>
    obtain ⟨_, w₁, dropped, rest⟩ := exec_bind_eq_ok _ _ _ _ _ done
    cases (exec_dropRef w ⟨r, o.handle⟩ x present).symm.trans dropped
    cases rest
    exact balanced.lost present o allowed
  | collect =>
    obtain ⟨count, w₁, collected, rest⟩ := exec_bind_eq_ok _ _ _ _ _ done
    cases rest
    exact balanced.exec_collectGarbage present count collected
  | turn =>
    obtain ⟨y, w₁, there, next⟩ := allowed
    cases present.symm.trans there
    exact balanced.turn present w₁ next answer done

/-- On the thread of the realm every move comes to its end, and none is refused. -/
theorem Balanced.granted (balanced : Balanced x hands) (present : w.realms[r]? = some x)
    (owner : x.owner = w.here) (m : Move) (allowed : m.Allowed r w hands) (fits : m.Fits x.table) :
    ∃ made w', exec (m.act r) w = (.ok (.ok made), w') := by
  cases m with
  | retain v =>
    obtain ⟨h, w₁, retained, _⟩ := balanced.exec_retain present owner v fits
    exact ⟨some h, w₁, by rw [Move.act, exec_bind, retained, goOn_ok, exec_pure]⟩
  | global =>
    obtain ⟨w₁, copied, _⟩ :=
      balanced.exec_copyRef present owner ⟨.globalObject, _⟩ balanced.stands_root fits
    refine ⟨some .globalObject, w₁, ?_⟩
    rw [Move.act, exec_bind, copied, goOn_ok, exec_pure]
    rfl
  | copy o =>
    have stands := balanced.stands o (List.mem_append_left _ allowed)
    obtain ⟨w₁, copied, _⟩ := balanced.exec_copyRef present owner o stands fits
    refine ⟨some o.handle, w₁, ?_⟩
    rw [Move.act, exec_bind, copied, goOn_ok, exec_pure]
    rfl
  | adopt o => exact ⟨some o.handle, w, rfl⟩
  | disown o => exact ⟨some o.handle, w, rfl⟩
  | release o =>
    obtain ⟨w₁, released, _⟩ := balanced.exec_releaseRef present owner o
      (List.mem_append_left _ allowed) (due_letGo o allowed x.finalizers) (mem_of_letGo o) rfl
    refine ⟨none, w₁, ?_⟩
    rw [Move.act, exec_bind, released, goOn_ok, exec_pure]
    rfl
  | releaseRaw o =>
    obtain ⟨w₁, released, _⟩ := balanced.exec_releaseRef present owner o
      (List.mem_append_right _ allowed) (due_letGoRaw o allowed x.finalizers) (mem_of_letGoRaw o) rfl
    refine ⟨none, w₁, ?_⟩
    rw [Move.act, exec_bind, released, goOn_ok, exec_pure]
    rfl
  | drop o =>
    refine ⟨none, w.lost ⟨r, o.handle⟩, ?_⟩
    rw [Move.act, exec_bind, exec_dropRef w ⟨r, o.handle⟩ x present, goOn_ok, exec_pure]
  | collect =>
    obtain ⟨count, y, collected, _⟩ := Act.exec_collectGarbage w r x present owner
    refine ⟨none, w.withRealm r y, ?_⟩
    rw [Move.act, exec_bind, collected, goOn_ok, exec_pure]
  | turn =>
    obtain ⟨y, w₁, there, next⟩ := allowed
    cases present.symm.trans there
    obtain ⟨realms, here⟩ := present_of_next x.loop _ w₁ next
    obtain ⟨count, y, collected, _⟩ :=
      Act.exec_collectGarbage w₁ r x (by rw [realms, present]) (by rw [here, owner])
    rw [exec_turn_collect present w₁ next, exec_performJob_collect, collected]
    split
    · exact ⟨none, w₁.withRealm r y, rfl⟩
    · exact ⟨none, w₁, rfl⟩

theorem Balanced.conserved (balanced : Balanced x hands) : Conserved x hands := by
  have counted : ∀ h, x.table.count h = (if h = .globalObject then 1 else 0) +
      references hands.held h + references hands.raw h +
        if x.features.weakRefs then x.finalizers.count h else hands.lost.count h := by
    intro h
    have total := balanced.counted h
    rw [Hands.due, rooted] at total
    cases weak : x.features.weakRefs with
    | true =>
      rw [balanced.weak weak, List.count_nil] at total
      simp only [↓reduceIte]
      omega
    | false =>
      rw [balanced.strong weak, List.count_nil] at total
      simp only [Bool.false_eq_true, ↓reduceIte]
      omega
  have live : ∀ h, x.table.contains h ↔ 0 < x.table.count h := fun h =>
    (balanced.sound.count_pos_iff h).symm
  refine ⟨counted, live, fun o member => ?_, ?_, fun weak noHeld noRaw noneNoted h => ?_⟩
  · obtain ⟨v, value, key⟩ := balanced.stands o member
    exact ⟨v, (get_eq_ok_iff o.handle v).mpr value, key⟩
  · exact (get_eq_ok_iff _ _).mpr balanced.sound.root
  · rw [live h, counted h, noHeld, noRaw, noneNoted, if_pos weak]
    show 0 < (if h = .globalObject then 1 else 0) + 0 + 0 + 0 ↔ _
    split
    · next root => exact iff_of_true (by omega) root
    · next other => exact iff_of_false (by omega) other

theorem Run.becomes (start : World) (fresh : Realm) (there : start.realms[r]? = some fresh)
    (balanced : Balanced fresh .empty) (run : Run r start hands w) : Leaves r fresh hands w := by
  induction run with
  | begin => exact balanced.leaves there
  | @move _ w _ x m thread answer _ present allowed fits done ih =>
    obtain ⟨y, same, former⟩ := ih
    cases present.symm.trans same
    have inside : { w with here := thread }.realms[r]? = some x := present
    obtain ⟨z, left, step⟩ := former.balanced.step inside m allowed fits answer done
    exact ⟨z, left, step.owner.trans former.owner, step.features.trans former.features,
      step.globalObject.trans former.globalObject, step.balanced⟩

/-- After any run the references that were taken and not given back are where they are said to be,
each stands for its value, and on the thread of the realm nothing that may be done next is refused. -/
theorem references_conserved (thread : ThreadIndex) (owner : ThreadId) (loop : LoopId)
    (features : Features) (layout : Layout) (globalObject : ObjectId) (start : World)
    (fresh : start.realms[r]? = some (.create thread owner loop features layout globalObject))
    (run : Run r start hands w) :
    ∃ x, w.realms[r]? = some x ∧ x.owner = owner ∧ x.features = features ∧
      x.globalObject = globalObject ∧ Conserved x hands ∧
      ∀ m : Move, m.Allowed r { w with here := owner } hands → m.Fits x.table →
        ∃ made w', exec (m.act r) { w with here := owner } = (.ok (.ok made), w') := by
  have balanced := create_balanced thread owner loop features layout globalObject
  obtain ⟨x, present, becomes⟩ := run.becomes start _ fresh balanced
  refine ⟨x, present, becomes.owner, becomes.features, becomes.globalObject,
    becomes.balanced.conserved, fun m allowed fits => ?_⟩
  have inside : { w with here := owner }.realms[r]? = some x := present
  exact becomes.balanced.granted inside becomes.owner m allowed fits

/-- A text is retained and dropped; once it is collected the global object is left alone. -/
theorem references_conserved_dropped :
    let start : World :=
      { World.create .default with realms := #[.create ⟨0⟩ 0 0 ⟨Features.weakFlag⟩ .dense 0] }
    ∃ w x, Run 0 start .empty w ∧ w.realms[0]? = some x ∧ x.finalizers = [] ∧ Conserved x .empty ∧
      ∀ h, x.table.contains h ↔ h = .globalObject := by
  let fresh : Realm := .create ⟨0⟩ 0 0 ⟨Features.weakFlag⟩ .dense 0
  let start : World := { World.create .default with realms := #[fresh] }
  show ∃ w x, Run 0 start .empty w ∧ _
  have balanced : Balanced fresh .empty := create_balanced _ _ _ _ _ _
  have there : start.realms[0]? = some fresh := rfl
  have fits : (Call.retain (.string "payload")).Fits fresh.table :=
    create_fits .dense (.object 0) (.retain (.string "payload"))
  let o : Owned := ⟨(fresh.retain (.string "payload")).1, .string "payload"⟩
  let x₁ : Realm := (fresh.retain (.string "payload")).2
  let w₁ : World := start.withRealm 0 x₁
  have retained : exec (Act.retain 0 (.string "payload")) start = (.ok o.handle, w₁) :=
    Act.exec_retain start 0 fresh there rfl _
  have present₁ : w₁.realms[0]? = some x₁ := by
    rw [start.realms_withRealm 0 fresh x₁ there, if_pos rfl]
  have run₁ : Run 0 start (Hands.empty.hold o) w₁ := by
    refine .move (.retain (.string "payload")) 0 (.ok (some o.handle)) .begin there trivial fits ?_
    show exec _ start = _
    rw [Move.act, exec_bind, retained]
    rfl
  have weak : x₁.features.weakRefs = true := by decide
  let x₂ : Realm := (x₁.scheduleFinalizer o.handle).2
  have present₂ : (w₁.lost ⟨0, o.handle⟩).realms[0]? = some x₂ := by
    rw [w₁.realms_lost ⟨0, o.handle⟩ x₁ present₁, if_pos weak]
  have dropped : exec ((Move.drop o).act 0) w₁ = (.ok (.ok none), w₁.lost ⟨0, o.handle⟩) := by
    rw [Move.act, exec_bind, exec_dropRef w₁ ⟨0, o.handle⟩ x₁ present₁, goOn_ok, exec_pure]
  have empty : Move.after x₁ (Hands.empty.hold o) (.drop o) (.ok none) = .empty := by
    rw [Move.after, if_pos weak, Hands.letGo, Hands.hold, List.erase_cons_head]
  have run₂ := Run.move (.drop o) 0 (.ok none) run₁ present₁ (List.mem_singleton_self o) trivial
    dropped
  rw [empty] at run₂
  let w₂ : World := { w₁.lost ⟨0, o.handle⟩ with here := 0 }
  obtain ⟨count, y, collected, result⟩ := exec_collectGarbage w₂ 0 x₂ present₂ rfl
  have run₃ : Run 0 start .empty (w₂.withRealm 0 y) := by
    refine .move .collect 0 (.ok none) run₂ present₂ trivial trivial ?_
    show exec _ w₂ = _
    rw [Move.act, exec_bind, collected, goOn_ok, exec_pure]
  have settled : y.finalizers = [] := by
    rcases result with ⟨rfl, settled⟩ | rfl
    · exact settled
    · rw [x₂.collect_eq]
  have present₃ : (w₂.withRealm 0 y).realms[0]? = some y := by
    rw [w₂.realms_withRealm 0 x₂ y present₂, if_pos rfl]
  obtain ⟨x, present, _, features, _, conserved, _⟩ :=
    references_conserved ⟨0⟩ 0 0 ⟨Features.weakFlag⟩ .dense 0 start there run₃
  obtain rfl := Option.some.inj (present₃.symm.trans present)
  have weakly : y.features.weakRefs = true := by
    rw [features]
    decide
  exact ⟨_, y, run₃, present₃, settled, conserved, conserved.drained weakly rfl rfl settled⟩

end Membrane.Ownership
