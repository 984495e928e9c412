import Membrane.Proofs.Closures.Quiet
import Membrane.Proofs.Closures.Kept
/-!
Changes that are no moves: guest functions are made known, promises are settled and jobs are taken from
loops. All of them leave what is dead alone, and every guest function but the one that is made. The
numbers of guest functions start over only after all of them were given out.
-/

set_option autoImplicit false

namespace Membrane

/-- The number of the guest function that is registered after some others. -/
def FunctionId.nth (k : Nat) : FunctionId := ⟨UInt32.ofNat (k + 1)⟩

theorem FunctionId.eq_of_nth_eq {j k : Nat} (first : j < 2 ^ 32) (second : k < 2 ^ 32)
    (same : nth j = nth k) : j = k := by
  simp only [nth, FunctionId.mk.injEq, ← UInt32.toNat_inj, UInt32.toNat_ofNat'] at same
  omega

namespace ClosureTable

theorem get?_insert (t : ClosureTable) (g : Guest.Function) (id : FunctionId) :
    (t.insert g).2.get? id = if id = ⟨t.next⟩ then some g else t.get? id := by
  have kept := lookup_filter (fun i => i != ⟨t.next⟩) t.entries id
  rw [get?, insert, List.lookup_append]
  refine (congrArg (Option.or · _) kept).trans ?_
  by_cases same : id = ⟨t.next⟩
  · simp [same]
  · have other : (id == ⟨t.next⟩) = false := beq_false_of_ne same
    simp [same, get?, List.lookup_cons, other]

theorem mem_insert (t : ClosureTable) (g : Guest.Function) (e : FunctionId × Guest.Function)
    (known : e ∈ (t.insert g).2.entries) :
    e ∈ t.entries ∧ e.1 ≠ ⟨t.next⟩ ∨ e = (⟨t.next⟩, g) := by
  obtain known | known := List.mem_append.mp known
  · obtain ⟨known, other⟩ := List.mem_filter.mp known
    exact Or.inl ⟨known, ne_of_beq_false (Bool.not_eq_true' _ ▸ other)⟩
  · exact Or.inr (List.mem_singleton.mp known)

end ClosureTable

/-- A realm that gets to know a guest function, and may hold its function object. -/
structure Realm.Learns (x : Realm) (g : Guest.Function) (o : ObjectId) (y : Realm) : Prop where
  held : ∀ v ∈ y.held, v ∈ x.held ∨ v ∈ g.holds ∨ v = .object o
  loop : y.loop = x.loop
  features : y.features = x.features
  closures : y.closures = (x.closures.insert g).2

namespace World

variable {w w' w₀ u v : World} {A B : List Host.Value} {r s : RealmId} {id : FunctionId}
  {x : Realm} {g : Guest.Function} {n : Nat} {F : RealmId → FunctionId → Prop}

/-- Reactions that wait for a promise hold no other one. -/
def Reactive (w : World) : Prop :=
  ∀ (p : PromiseId) x, w.promises[p]? = some x → ∀ reaction ∈ x.reactions, ∀ q,
    reaction.held? = some q → q = p

/-- A world where code makes nothing up, realms are attached, and reactions hold their own promises. -/
structure Ready (w : World) : Prop where
  honest : w.Honest
  attached : w.Attached
  reactive : w.Reactive

theorem Moves.reactive (moves : Moves F A w B w') (reactive : w.Reactive) : w'.Reactive := by
  induction moves with
  | take | aside | pin | name | make | write | turn | post | forget => exact reactive
  | trans _ _ ih₁ ih₂ => exact ih₂ (ih₁ reactive)
  | promise present =>
    intro p x there
    rw [getElem?_pushed] at there
    split at there
    · cases there
      exact fun _ => nofun
    · exact reactive p x there
  | sweep =>
    rw [sweep_eq]
    exact reactive

theorem Ready.moves (ready : w.Ready) (moves : Moves F A w B w') : w'.Ready where
  honest := moves.honest ready.honest
  attached := ready.attached.grows moves.grows
  reactive := moves.reactive ready.reactive

/-- So many guest functions were registered in a realm: its next number, and the numbers that its
function objects have. -/
structure Numbered (w : World) (r : RealmId) (n : Nat) : Prop where
  next : ∃ x, w.realms[r]? = some x ∧ (⟨x.closures.next⟩ : FunctionId) = .nth n
  issued : ∀ o id, w.IsFunctionObject r id o → ∃ k < n, id = .nth k

/-- What function objects were function objects before. -/
theorem Grows.isFunctionObject_iff (grows : Grows w w') (o : ObjectId) :
    w'.IsFunctionObject r id o ↔ w.IsFunctionObject r id o := by
  refine ⟨fun ⟨y, there, kind⟩ => grows.functions o y r id there kind, fun ⟨y, there, kind⟩ => ?_⟩
  obtain ⟨z, there, same⟩ := grows.objects o y there
  exact ⟨z, there, same.trans kind⟩

theorem Numbered.grows (numbered : w.Numbered r n) (grows : Grows w w') : w'.Numbered r n where
  next := by
    obtain ⟨x, present, next⟩ := numbered.next
    obtain ⟨y, present, recalls⟩ := grows.realms r x present
    exact ⟨y, present, by rw [recalls.next, next]⟩
  issued o id function := numbered.issued o id ((grows.isFunctionObject_iff o).mp function)

/-- What is done leaves a guest function alone: it is known or not as before, and has the function
objects that it had. -/
structure LeavesAlone (r : RealmId) (id : FunctionId) (w w' : World) : Prop where
  realm : ∀ x, w.realms[r]? = some x → ∃ y, w'.realms[r]? = some y ∧ y.features = x.features ∧
    y.closures.get? id = x.closures.get? id ∧
    ∀ f, (id, f) ∈ y.closures.entries → (id, f) ∈ x.closures.entries
  objects : ∀ o, w'.IsFunctionObject r id o ↔ w.IsFunctionObject r id o
  shut : ∀ w₀, Sealed w₀ w → Sealed w₀ w'

/-- Promises and loops change, objects and realms do not, and what is dead is left alone. -/
structure Stirs (w w' : World) : Prop where
  heap : w'.heap = w.heap
  realms : w'.realms = w.realms
  runtime : w'.runtime = w.runtime
  reactive : w.Reactive → w'.Reactive
  shut : ∀ w₀, Sealed w₀ w → Sealed w₀ w'

theorem Stirs.refl (w : World) : Stirs w w := ⟨rfl, rfl, rfl, id, fun _ => id⟩

/-- It does not matter which thread runs. -/
theorem Stirs.onThread (w : World) (here : ThreadId) : Stirs w { w with here } :=
  ⟨rfl, rfl, rfl, id, fun _ shut => { shut with }⟩

theorem Stirs.leavesAlone (stirs : Stirs w w') : LeavesAlone r id w w' where
  realm x there := ⟨x, stirs.realms ▸ there, rfl, rfl, fun _ known => known⟩
  objects o := by rw [IsFunctionObject, IsFunctionObject, stirs.heap]
  shut := stirs.shut

theorem Stirs.ready (stirs : Stirs w w') (ready : w.Ready) : w'.Ready where
  honest := by
    refine ⟨?_, ?_, ?_⟩
    · rw [stirs.heap]
      exact ready.honest.objects
    · rw [stirs.runtime]
      exact ready.honest.imports
    · rw [stirs.realms]
      exact ready.honest.closures
  attached := by
    rw [Attached, stirs.realms, stirs.runtime]
    exact ready.attached
  reactive := stirs.reactive ready.reactive

theorem Stirs.numbered (stirs : Stirs w w') (numbered : w.Numbered r n) : w'.Numbered r n where
  next := by
    rw [stirs.realms]
    exact numbered.next
  issued := by
    simp only [IsFunctionObject, stirs.heap]
    exact numbered.issued

/-! Settling promises, and taking jobs -/

/-- A promise is settled that is not dead, with a value that is not. -/
theorem Sealed.settled (shut : Sealed w₀ w) {p : PromiseId} {x y : Promise Reaction}
    (present : w.promises[p]? = some x) (lives : ¬w₀.dead.promises p) (loop : y.loop = x.loop)
    (had : ∀ outcome, y.outcome? = some outcome → w₀.dead.Lacks outcome.value) :
    Sealed w₀ { w with promises := w.promises.setIfInBounds p y } := by
  refine { shut with promises := ?_, outcomes := ?_ }
  · intro q dead
    rw [getElem?_written _ _ x y present, if_neg, shut.promises q dead]
    rintro rfl
    exact lives dead
  · intro q z alive there
    rw [getElem?_written _ _ x y present] at there
    split at there
    · cases there
      exact ⟨had, loop ▸ (shut.outcomes p x lives present).2⟩
    · exact shut.outcomes q z alive there

theorem Sealed.taken (shut : Sealed w₀ w) {l : LoopId} {c : LoopCell} {rest : EventLoop Job}
    (present : w.loops[l]? = some c) (lives : ¬w₀.dead.loops l)
    (fewer : ∀ j ∈ rest.jobs, j ∈ c.queue.jobs) : Sealed w₀ (w.withQueue l fun _ => rest) := by
  refine { shut with loops := ?_, queued := ?_ }
  · intro k dead
    rw [loops_withQueue, if_neg, shut.loops k dead]
    rintro rfl
    exact lives dead
  · intro k d j alive there waits
    rw [loops_withQueue] at there
    split at there
    · next same =>
      subst same
      rw [present] at there
      cases there
      exact shut.queued l c j lives present (fewer j waits)
    · exact shut.queued k d j alive there waits

/-! Making a guest function known -/

/-- The world with a new function object, where a realm knows its guest function. -/
def created (w : World) (r : RealmId) (number : UInt32) (y : Realm) : World :=
  { w.withRealm r y with
    heap := (w.heap.alloc ⟨some Host.Object.functionClass, .guestFunction r ⟨number⟩, []⟩).2 }

theorem isFunctionObject_created (number : UInt32) (y : Realm) (s : RealmId) (id : FunctionId)
    (o : ObjectId) : (w.created r number y).IsFunctionObject s id o ↔
      o = w.heap.objects.size ∧ s = r ∧ id = ⟨number⟩ ∨ w.IsFunctionObject s id o := by
  have there : (w.created r number y).heap.get? o = _ := Host.Heap.get?_alloc w.heap _ o
  rw [IsFunctionObject, IsFunctionObject, there]
  split
  · next new =>
    have none : w.heap.get? o = none := Array.getElem?_eq_none (Nat.le_of_eq new.symm)
    constructor
    · rintro ⟨y, same, kind⟩
      cases same
      cases kind
      exact Or.inl ⟨new, rfl, rfl⟩
    · rintro (⟨_, rfl, rfl⟩ | ⟨y, old, _⟩)
      · exact ⟨_, rfl, rfl⟩
      · rw [none] at old
        cases old
  · next old => simp only [old, false_and, false_or]

section

variable {y : Realm} (present : w.realms[r]? = some x) (learns : x.Learns g w.heap.objects.size y)

include present learns

theorem Sealed.created (shut : Sealed w₀ w) (had : ∀ v ∈ g.holds, w₀.dead.Lacks v) :
    Sealed w₀ (w.created r x.closures.next y) := by
  have made := shut.alloc (x := ⟨some Host.Object.functionClass,
    .guestFunction r ⟨x.closures.next⟩, []⟩) (fun _ held => by cases held) fun _ => nofun
  refine made.1.withRealm present (fun v held => ?_) learns.loop
  obtain held | held | rfl := learns.held v held
  · exact shut.held r x present v held
  · exact had v held
  · rintro o same
    cases same
    exact made.2

theorem Ready.created (ready : w.Ready) (honest : g.Honest) :
    (w.created r x.closures.next y).Ready where
  honest := by
    refine ⟨fun o z there => ?_, ready.honest.imports, fun s z id f there known => ?_⟩
    · have there := (Host.Heap.get?_alloc w.heap _ o).symm.trans there
      split at there
      · cases there
        trivial
      · exact ready.honest.objects o z there
    · have there := (realms_withRealm w r x y present s).symm.trans there
      split at there
      · cases there
        rw [learns.closures] at known
        obtain ⟨known, _⟩ | new := x.closures.mem_insert g _ known
        · exact ready.honest.closures r x id f present known
        · cases new
          exact honest
      · exact ready.honest.closures s z id f there known
  attached := by
    intro s z there
    have there := (realms_withRealm w r x y present s).symm.trans there
    split at there
    · next same => exact same ▸ ready.attached r x present
    · exact ready.attached s z there
  reactive := ready.reactive

theorem Numbered.created (numbered : w.Numbered s n) :
    (w.created r x.closures.next y).Numbered s (if s = r then n + 1 else n) := by
  obtain ⟨⟨z, there, next⟩, issued⟩ := numbered
  have realms := realms_withRealm w r x y present s
  by_cases same : s = r
  · subst same
    obtain rfl := Option.some.inj (present.symm.trans there)
    rw [if_pos rfl] at realms ⊢
    refine ⟨⟨y, realms, ?_⟩, fun o id function => ?_⟩
    · rw [learns.closures]
      have next : x.closures.next = UInt32.ofNat (n + 1) := congrArg FunctionId.raw next
      show (⟨x.closures.next + 1⟩ : FunctionId) = ⟨UInt32.ofNat (n + 1 + 1)⟩
      rw [next, UInt32.ofNat_add (n + 1) 1]
      rfl
    · obtain ⟨_, _, rfl⟩ | old := (isFunctionObject_created _ _ _ _ _).mp function
      · exact ⟨n, Nat.lt_succ_self n, next⟩
      · obtain ⟨k, before, rfl⟩ := issued o id old
        exact ⟨k, Nat.lt_succ_of_lt before, rfl⟩
  · rw [if_neg same] at realms ⊢
    refine ⟨⟨z, realms.trans there, next⟩, fun o id function => ?_⟩
    obtain ⟨_, same', _⟩ | old := (isFunctionObject_created _ _ _ _ _).mp function
    · exact absurd same' same
    · exact issued o id old

/-- Another guest function than the one that is made is left alone. -/
theorem LeavesAlone.created (had : ∀ v ∈ g.holds, w.AtHand [] v)
    (other : s = r → id ≠ ⟨x.closures.next⟩) :
    LeavesAlone s id w (w.created r x.closures.next y) where
  realm z there := by
    have realms := realms_withRealm w r x y present s
    by_cases same : s = r
    · subst same
      obtain rfl := Option.some.inj (present.symm.trans there)
      refine ⟨y, realms.trans (if_pos rfl), learns.features, ?_, fun f known => ?_⟩
      · rw [learns.closures, ClosureTable.get?_insert, if_neg (other rfl)]
      · rw [learns.closures] at known
        obtain ⟨known, _⟩ | new := x.closures.mem_insert g _ known
        · exact known
        · exact absurd (congrArg Prod.fst new) (other rfl)
    · exact ⟨z, (realms.trans (if_neg same)).trans there, rfl, rfl, fun _ known => known⟩
  objects o := by
    rw [isFunctionObject_created]
    refine or_iff_right ?_
    rintro ⟨_, same, new⟩
    exact other same new
  shut _ shut := shut.created present learns fun v held => shut.lacks (A := []) (fun _ => nofun) (had v held)

end

end World

namespace Act

open World

/-- A realm that is there gets to know the guest function that is made, whether or not the thread that
makes it may retain the function object. -/
theorem exec_newClosure (r : RealmId) (g : Guest.Function) (w : World) (x : Realm)
    (present : w.realms[r]? = some x) :
    ∃ y, x.Learns g w.heap.objects.size y ∧
      (exec (newClosure r g) w).2 = w.created r x.closures.next y ∧
      ∀ c, (exec (newClosure r g) w).1 = .ok c → c.ref.realm = r ∧ c.function = ⟨x.closures.next⟩ := by
  let z : Realm := { x with closures := (x.closures.insert g).2 }
  let v : Host.Value := .object w.heap.objects.size
  have registers : exec (newClosure r g) w =
      goOn (exec (retain r v) (w.created r x.closures.next z)) fun h =>
        pure ⟨⟨x.closures.next⟩, ⟨r, h⟩⟩ := by
    have registered : exec (registerFunction r g) w = (.ok ⟨x.closures.next⟩, w.withRealm r z) :=
      exec_onRealm w r x present _
    rw [newClosure, exec_bind, registered, goOn_ok, exec_bind]
    exact exec_bind _ _ _
  have there : (w.created r x.closures.next z).realms[r]? = some z :=
    (realms_withRealm w r x z present r).trans (if_pos rfl)
  have learns : x.Learns g w.heap.objects.size z := by
    refine ⟨fun u held => ?_, rfl, rfl, rfl⟩
    simp only [Realm.mem_held_iff] at held ⊢
    obtain held | held | held | ⟨id, f, known, held⟩ := held
    · exact Or.inl (Or.inl held)
    · exact Or.inl (Or.inr (Or.inl held))
    · exact Or.inl (Or.inr (Or.inr (Or.inl held)))
    · obtain ⟨known, _⟩ | new := x.closures.mem_insert g _ known
      · exact Or.inl (Or.inr (Or.inr (Or.inr ⟨id, f, known, held⟩)))
      · cases new
        exact Or.inr (Or.inl held)
  by_cases owner : x.owner = w.here
  · have turns : z.Turns (· = v) (z.retain v).2 := z.turns_retain rfl
    refine ⟨(z.retain v).2, ⟨fun u held => ?_, rfl, rfl, rfl⟩, ?_, ?_⟩
    · exact (turns.held u held).elim (learns.held u) fun same => Or.inr (Or.inr same)
    all_goals rw [registers, exec_retain _ r z there owner v, goOn_ok]
    · show (w.created r x.closures.next z).withRealm r _ = _
      simp only [created, withRealm, Array.setIfInBounds_setIfInBounds]
    · rintro c done
      cases done
      exact ⟨rfl, rfl⟩
  · refine ⟨z, learns, ?_⟩
    rw [registers, retain, exec_bind, exec_assertOwner_foreign _ r z there owner]
    refine ⟨rfl, fun c done => ?_⟩
    cases done

/-- To settle a promise is to write it and to queue its reactions. -/
theorem settle_keeps {P : World → Prop} (p : PromiseId) (outcome : Outcome) (w : World) (start : P w)
    (settles : ∀ x, w.promises[p]? = some x →
      P { w with promises := w.promises.setIfInBounds p ⟨x.loop, .settled outcome⟩ })
    (posts : ∀ x u, w.promises[p]? = some x → ∀ reaction ∈ x.reactions, P u →
      P (u.post x.loop (.react reaction outcome))) : P (exec (settle p outcome) w).2 := by
  rw [settle, exec_bind]
  cases present : w.promises[p]? with
  | none =>
    have missing : exec (promise p) w = (.error .missing, w) := by
      rw [promise, fetch, exec_bind, exec_get, goOn_ok, present, exec_throw]
    rw [missing]
    exact start
  | some x =>
    rw [promise, exec_fetch (·.promises[p]?) w x present, goOn_ok]
    cases state : x.state with
    | settled =>
      simp only [Promise.settle?, state, exec_pure]
      exact start
    | pending reactions =>
      have waiting : x.reactions = reactions := by rw [Promise.reactions, state]
      have queued : ∀ (rs : List Reaction) (u : World), (∀ reaction ∈ rs, reaction ∈ reactions) →
          P u → P (exec (do
            rs.forM fun r => queueMicrotask x.loop (.react r outcome)
            return true) u).2 := by
        intro rs
        induction rs with
        | nil => exact fun u _ holds => holds
        | cons first rest ih =>
          intro u all holds
          refine ih (u.post x.loop (.react first outcome)) (fun r there =>
            all r (List.mem_cons_of_mem first there)) ?_
          exact posts x u present first (waiting ▸ all first List.mem_cons_self) holds
      simp only [Promise.settle?, state]
      rw [setPromise, exec_bind, exec_modify, goOn_ok]
      exact queued reactions _ (fun _ there => there) (settles x present)

end Act

namespace World

variable {w u : World}

/-- After something that stirs, to settle a promise that is not dead, with a value that is not. -/
theorem Stirs.settle (stirs : Stirs w u) (p : PromiseId) (outcome : Outcome)
    (reactive : w.Reactive)
    (alive : ∀ w₀, Sealed w₀ w → ¬w₀.dead.promises p ∧ w₀.dead.Lacks outcome.value) :
    Stirs w (Act.exec (Act.settle p outcome) u).2 := by
  have waiting := stirs.reactive reactive
  obtain ⟨heap, realms, runtime, later⟩ := Act.settle_keeps
    (P := fun v => v.heap = w.heap ∧ v.realms = w.realms ∧ v.runtime = w.runtime ∧ v.Reactive)
    p outcome u ⟨stirs.heap, stirs.realms, stirs.runtime, waiting⟩
    (fun x present => ⟨stirs.heap, stirs.realms, stirs.runtime, fun q y there => by
      rw [getElem?_written _ _ x _ present] at there
      split at there
      · cases there
        exact fun _ => nofun
      · exact waiting q y there⟩)
    fun _ _ _ _ _ holds => holds
  refine ⟨heap, realms, runtime, fun _ => later, fun w₀ before => ?_⟩
  obtain ⟨lives, lacks⟩ := alive w₀ before
  have shut := stirs.shut w₀ before
  refine Act.settle_keeps (P := Sealed w₀) p outcome u shut (fun x present => ?_)
    fun x v present reaction waits sealed_ => ?_
  · refine shut.settled present lives rfl fun o same => ?_
    cases same
    exact lacks
  · refine sealed_.post _ _ (shut.outcomes p x lives present).2
      (fun c j there => EventLoop.mem_jobs_of_queueMicrotask c.queue v.here _ j there)
      (fun v held => ?_) (fun q held => ?_) rfl
    · obtain rfl := List.mem_singleton.mp held
      exact lacks
    · rw [Job.promises, Option.mem_toList] at held
      exact waiting p x present reaction waits q held ▸ lives

theorem Stirs.take {l : LoopId} {c : LoopCell} {rest : EventLoop Job}
    (present : w.loops[l]? = some c) (lives : ∀ w₀, Sealed w₀ w → ¬w₀.dead.loops l)
    (fewer : ∀ j ∈ rest.jobs, j ∈ c.queue.jobs) : Stirs w (w.withQueue l fun _ => rest) :=
  ⟨rfl, rfl, rfl, fun reactive => reactive, fun w₀ shut => shut.taken present (lives w₀ shut) fewer⟩

end World

end Membrane
