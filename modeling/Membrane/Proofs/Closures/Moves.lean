import Membrane.Proofs.Closures.Honest
import Membrane.Proofs.World.Heap
import Membrane.Proofs.World.Update
/-!
What actions do to a world while some values are in their hands. Everything is done in a few moves, and
each move spreads only values that are at hand: those in the hands, and those that the world itself
leads to. So an object that nothing leads to cannot come back.
-/

set_option autoImplicit false

namespace Membrane

open Host.Heap (get?_alloc get?_setProperty)

namespace Realm

/-- All values that a realm holds. -/
def held (x : Realm) : List Host.Value :=
  x.table.values ++ x.exception.toList ++ [.object x.globalObject] ++
    x.closures.entries.flatMap (·.2.holds)

theorem mem_held_iff (x : Realm) (v : Host.Value) :
    v ∈ x.held ↔ v ∈ x.table.values ∨ x.exception = some v ∨ v = .object x.globalObject ∨
      ∃ id f, (id, f) ∈ x.closures.entries ∧ v ∈ f.holds := by
  simp only [held, List.mem_append, Option.mem_toList, List.mem_singleton, List.mem_flatMap,
    Prod.exists, or_assoc]

/-- A realm that turns into another one: it holds new values only if they are allowed, and knows the
same guest functions. -/
structure Turns (allowed : Host.Value → Prop) (x y : Realm) : Prop where
  held : ∀ v ∈ y.held, v ∈ x.held ∨ allowed v
  loop : y.loop = x.loop
  features : y.features = x.features
  closures : y.closures = x.closures

/-- A realm that knows no guest function that another one did not know. -/
structure Recalls (x y : Realm) : Prop where
  loop : y.loop = x.loop
  features : y.features = x.features
  next : y.closures.next = x.closures.next
  entries : ∀ e ∈ y.closures.entries, e ∈ x.closures.entries

theorem Recalls.refl (x : Realm) : Recalls x x := ⟨rfl, rfl, rfl, fun _ => id⟩

theorem Recalls.trans {x y z : Realm} (first : Recalls x y) (rest : Recalls y z) : Recalls x z :=
  ⟨rest.loop.trans first.loop, rest.features.trans first.features, rest.next.trans first.next,
    fun e known => first.entries e (rest.entries e known)⟩

theorem Turns.recalls {allowed : Host.Value → Prop} {x y : Realm} (turns : x.Turns allowed y) :
    x.Recalls y :=
  ⟨turns.loop, turns.features, by rw [turns.closures], fun e known => turns.closures ▸ known⟩

/-- A realm that forgets a guest function. -/
def without (x : Realm) (id : FunctionId) : Realm :=
  { x with closures := (x.closures.remove id).2 }

theorem recalls_without (x : Realm) (id : FunctionId) : x.Recalls (x.without id) :=
  ⟨rfl, rfl, rfl, fun _ known => (List.mem_filter.mp known).1⟩

/-- With fewer guest functions a realm holds fewer values. -/
theorem mem_held_of_fewer (x : Realm) (closures : ClosureTable)
    (fewer : ∀ e ∈ closures.entries, e ∈ x.closures.entries) (v : Host.Value)
    (held : v ∈ { x with closures }.held) : v ∈ x.held := by
  rw [mem_held_iff] at held ⊢
  obtain held | held | held | ⟨id, f, known, held⟩ := held
  · exact .inl held
  · exact .inr (.inl held)
  · exact .inr (.inr (.inl held))
  · exact .inr (.inr (.inr ⟨id, f, fewer _ known, held⟩))

end Realm

namespace World

variable {w w' u v : World} {A B C : List Host.Value}

/-- A value that can be had without asking anybody: it is in the hands, or the world leads to it. -/
inductive AtHand (w : World) (hands : List Host.Value) : Host.Value → Prop
  | plain {v : Host.Value} (plain : v.object? = none) : AtHand w hands v
  | hand {v : Host.Value} (held : v ∈ hands) : AtHand w hands v
  | pinned {v : Host.Value} (held : v ∈ w.pins) : AtHand w hands v
  | register {v : Host.Value} {name : String} (held : (name, v) ∈ w.registers.values) :
      AtHand w hands v
  | realm {v : Host.Value} {r : RealmId} {x : Realm} (present : w.realms[r]? = some x)
      (held : v ∈ x.held) : AtHand w hands v
  | imported {v : Host.Value} {name : String} {i : Import} (known : (name, i) ∈ w.runtime.imports)
      (held : v ∈ i.holds) : AtHand w hands v
  | object {v : Host.Value} {o : ObjectId} {x : Host.Object} (holder : AtHand w hands (.object o))
      (present : w.heap.get? o = some x) (held : v ∈ x.references) : AtHand w hands v

theorem atHand_of_known {v : Host.Value} (known : v.IsKnown A) : w.AtHand A v := by
  cases object : v.object? with
  | none => exact .plain object
  | some o => exact .hand (known (by rw [object]; rfl))

/-- A value that stays at hand as long as a call runs: it is in the hands of a call, or it is referred
to by the code of an import or of a function in the hands of a call. -/
inductive Gripped (w : World) : Host.Value → Prop
  | plain {v : Host.Value} (plain : v.object? = none) : Gripped w v
  | pinned {v : Host.Value} (held : v ∈ w.pins) : Gripped w v
  | imported {v : Host.Value} {name : String} {i : Import} (known : (name, i) ∈ w.runtime.imports)
      (held : v ∈ i.holds) : Gripped w v
  | code {v : Host.Value} {o : ObjectId} {x : Host.Object} (holder : Gripped w (.object o))
      (present : w.heap.get? o = some x) (held : v ∈ x.kind.holds) : Gripped w v

theorem Gripped.atHand {v : Host.Value} (gripped : w.Gripped v) : w.AtHand A v := by
  induction gripped with
  | plain plain => exact .plain plain
  | pinned held => exact .pinned held
  | imported known held => exact .imported known held
  | code _ present held ih => exact .object ih present ((Host.Object.mem_references_iff _ _).mpr (.inr held))

/-- The running thread owns a realm. -/
def Owns (w : World) (r : RealmId) : Prop := ∃ x, w.realms[r]? = some x ∧ x.owner = w.here

/-- A promise that is not settled and whose loop is that of a realm. -/
def Open (w : World) (p : PromiseId) : Prop :=
  ∃ x, w.promises[p]? = some x ∧ x.outcome? = none ∧
    ∃ (r : RealmId) (y : Realm), w.realms[r]? = some y ∧ y.loop = x.loop

/-- What an object may be that is made. Function objects of guest functions are made with them. -/
def Makes (w : World) : Host.Kind → Prop
  | .promise p => w.Open p
  | .guestFunction .. => False
  | kind => kind.Honest

/-- The jobs that are queued on the way. -/
def Posts (w : World) (hands : List Host.Value) : Job → Prop
  | .collect _ => True
  | .settle p outcome => w.Open p ∧ w.AtHand hands outcome.value
  | _ => False

/-- What actions do while values are in their hands: the hands before and after, and the worlds.
`F` are the guest functions that may be given up. -/
inductive Moves (F : RealmId → FunctionId → Prop) :
    List Host.Value → World → List Host.Value → World → Prop
  /-- Takes other values into the hands. -/
  | take {A B : List Host.Value} {w : World} (had : ∀ v ∈ B, w.AtHand A v) : Moves F A w B w
  | trans {A B C : List Host.Value} {w u v : World} (first : Moves F A w B u)
      (rest : Moves F B u C v) : Moves F A w C v
  | aside {A : List Host.Value} {w : World} (here : ThreadId) (log : List (ThreadId × String)) :
      Moves F A w A { w with here, log }
  | pin {A : List Host.Value} {w : World} (pins : List Host.Value)
      (had : ∀ v ∈ pins, w.AtHand A v) : Moves F A w A { w with pins }
  /-- Gives values other names. -/
  | name {A : List Host.Value} {w : World} (values : Names Host.Value)
      (had : ∀ name v, (name, v) ∈ values → w.AtHand A v) :
      Moves F A w A { w with registers := { w.registers with values } }
  | make {A : List Host.Value} {w : World} (x : Host.Object)
      (had : ∀ v ∈ x.references, w.AtHand A v) (makes : w.Makes x.kind) :
      Moves F A w (.object w.heap.objects.size :: A) { w with heap := (w.heap.alloc x).2 }
  | write {A : List Host.Value} {w : World} (o : ObjectId) (name : String) (v : Host.Value)
      (target : w.AtHand A (.object o)) (had : w.AtHand A v) :
      Moves F A w A { w with heap := w.heap.setProperty o name v }
  | turn {A : List Host.Value} {w : World} {r : RealmId} {x y : Realm}
      (present : w.realms[r]? = some x) (turns : x.Turns (w.AtHand A) y) :
      Moves F A w A (w.withRealm r y)
  /-- Queues a job on the loop of a realm. -/
  | post {A : List Host.Value} {w : World} {r : RealmId} {x : Realm} (job : Job)
      (f : LoopCell → LoopCell) (present : w.realms[r]? = some x) (posts : w.Posts A job)
      (adds : ∀ c, ∀ j ∈ (f c).queue.jobs, j ∈ c.queue.jobs ∨ j = job) :
      Moves F A w A { w with loops := w.loops.modify x.loop f }
  | promise {A : List Host.Value} {w : World} {r : RealmId} {x : Realm}
      (present : w.realms[r]? = some x) :
      Moves F A w A { w with promises := w.promises.push (.create x.loop) }
  | forget {A : List Host.Value} {w : World} {r : RealmId} {x : Realm} {id : FunctionId}
      (present : w.realms[r]? = some x) (allowed : F r id) :
      Moves F A w A (w.withRealm r (x.without id))
  /-- Forgets the guest functions whose function objects are gone. Nothing is in the hands alone. -/
  | sweep {w : World} : Moves F [] w [] w.sweep

theorem Moves.refl {F : RealmId → FunctionId → Prop} (A : List Host.Value) (w : World) :
    Moves F A w A w := .take fun _ => .hand

/-- What of the world is not touched by moves. -/
def backdrop (w : World) : World :=
  { w with
    heap := .empty, promises := #[], loops := #[], realms := #[], here := 0, log := [], pins := []
    registers := { w.registers with values := [] } }

/-- What can be told from the backdrop is the same in worlds with the same one. -/
theorem eq_of_backdrop {α : Type} (f : World → α) (same : w'.backdrop = w.backdrop)
    (told : ∀ w, f w = f w.backdrop) : f w' = f w := by
  rw [told w', same, ← told w]

theorem sweep_eq (w : World) : w.sweep = { w with realms := w.sweep.realms } := by
  unfold sweep
  split <;> rfl

/-- Guest functions are forgotten, and no other ones are known than before. -/
theorem realms_sweep_eq (w : World) (r : RealmId) (x : Realm) (present : w.realms[r]? = some x) :
    ∃ entries, w.sweep.realms[r]? = some { x with closures := { x.closures with entries } } ∧
      ∀ e ∈ entries, e ∈ x.closures.entries := by
  unfold sweep
  split
  · exact ⟨_, present, fun _ => id⟩
  · simp only [Array.getElem?_mapIdx, present, Option.map_some]
    split
    · exact ⟨_, rfl, fun _ known => (List.mem_filter.mp known).1⟩
    · exact ⟨_, rfl, fun _ => id⟩

/-- What moves leave of a world. -/
structure Grows (w w' : World) : Prop where
  backdrop : w'.backdrop = w.backdrop
  objects : ∀ o x, w.heap.get? o = some x → ∃ x', w'.heap.get? o = some x' ∧ x'.kind = x.kind
  functions : ∀ o x' r id, w'.heap.get? o = some x' → x'.kind = .guestFunction r id →
    ∃ x, w.heap.get? o = some x ∧ x.kind = .guestFunction r id
  promises : ∀ (p : PromiseId) x, w.promises[p]? = some x → w'.promises[p]? = some x
  realms : ∀ (r : RealmId) x, w.realms[r]? = some x → ∃ x', w'.realms[r]? = some x' ∧ x.Recalls x'
  noRealm : ∀ r : RealmId, w.realms[r]? = none → w'.realms[r]? = none

namespace Grows

theorem refl (w : World) : Grows w w where
  backdrop := rfl
  objects _ x there := ⟨x, there, rfl⟩
  functions _ x' _ _ there kind := ⟨x', there, kind⟩
  promises _ _ there := there
  realms _ x there := ⟨x, there, .refl x⟩
  noRealm _ none := none

theorem trans (first : Grows w u) (rest : Grows u v) : Grows w v where
  backdrop := rest.backdrop.trans first.backdrop
  objects o x there := by
    obtain ⟨y, there, kind⟩ := first.objects o x there
    obtain ⟨z, there, same⟩ := rest.objects o y there
    exact ⟨z, there, same.trans kind⟩
  functions o z r id there kind := by
    obtain ⟨y, there, kind⟩ := rest.functions o z r id there kind
    exact first.functions o y r id there kind
  promises p x there := rest.promises p x (first.promises p x there)
  realms r x there := by
    obtain ⟨y, there, recalls⟩ := first.realms r x there
    obtain ⟨z, there, more⟩ := rest.realms r y there
    exact ⟨z, there, recalls.trans more⟩
  noRealm r none := rest.noRealm r (first.noRealm r none)

/-- Each realm was there before. -/
theorem realm (grows : Grows w w') {r : RealmId} {x' : Realm} (present : w'.realms[r]? = some x') :
    ∃ x, w.realms[r]? = some x ∧ x.Recalls x' := by
  cases old : w.realms[r]? with
  | none =>
    rw [grows.noRealm r old] at present
    cases present
  | some x =>
    obtain ⟨y, there, recalls⟩ := grows.realms r x old
    obtain rfl := Option.some.inj (there.symm.trans present)
    exact ⟨x, rfl, recalls⟩

/-- A realm that is there stays there. -/
theorem present {r : RealmId} (grows : Grows w w') (there : ∃ x, w.realms[r]? = some x) :
    ∃ x, w'.realms[r]? = some x := by
  obtain ⟨x, there⟩ := there
  obtain ⟨x', there, _⟩ := grows.realms r x there
  exact ⟨x', there⟩

theorem runtime (grows : Grows w w') : w'.runtime = w.runtime :=
  eq_of_backdrop World.runtime grows.backdrop fun _ => rfl

/-- A realm is replaced by one that knows no more. -/
theorem withRealm {r : RealmId} {x y : Realm} (present : w.realms[r]? = some x)
    (recalls : x.Recalls y) : Grows w (w.withRealm r y) where
  backdrop := rfl
  objects _ x there := ⟨x, there, rfl⟩
  functions _ x' _ _ there kind := ⟨x', there, kind⟩
  promises _ _ there := there
  realms s z there := by
    rw [realms_withRealm w r x y present]
    split
    · next same =>
      subst same
      obtain rfl := Option.some.inj (present.symm.trans there)
      exact ⟨y, rfl, recalls⟩
    · exact ⟨z, there, .refl z⟩
  noRealm s none := by
    rw [realms_withRealm w r x y present, if_neg, none]
    rintro rfl
    rw [present] at none
    cases none

theorem sweep (w : World) : Grows w w.sweep := by
  rw [sweep_eq]
  refine { refl w with realms := fun r x there => ?_, noRealm := fun r none => ?_ }
  · obtain ⟨entries, swept, fewer⟩ := w.realms_sweep_eq r x there
    exact ⟨_, swept, rfl, rfl, rfl, fewer⟩
  · unfold World.sweep
    split
    · exact none
    · simp only [Array.getElem?_mapIdx, none, Option.map_none]

theorem isOpen (grows : Grows w w') {p : PromiseId} (isOpen : w.Open p) : w'.Open p := by
  obtain ⟨x, there, waits, r, y, present, loop⟩ := isOpen
  obtain ⟨y', present, recalls⟩ := grows.realms r y present
  exact ⟨x, grows.promises p x there, waits, r, y', present, recalls.loop.trans loop⟩

theorem gripped (grows : Grows w w') (pins : w.pins ⊆ w'.pins) {v : Host.Value}
    (gripped : w.Gripped v) : w'.Gripped v := by
  induction gripped with
  | plain plain => exact .plain plain
  | pinned held => exact .pinned (pins held)
  | imported known held => exact .imported (grows.runtime ▸ known) held
  | code _ present held ih =>
    obtain ⟨x', there, kind⟩ := grows.objects _ _ present
    exact .code ih there (kind ▸ held)

end Grows

variable {F : RealmId → FunctionId → Prop}

theorem Moves.grows (moves : Moves F A w B w') : Grows w w' := by
  induction moves with
  | take => exact .refl _
  | trans _ _ ih₁ ih₂ => exact ih₁.trans ih₂
  | aside | pin | name | post => exact { Grows.refl _ with }
  | @make A w x _ makes =>
    refine { Grows.refl w with objects := ?_, functions := ?_ }
    · intro o y there
      refine ⟨y, ?_, rfl⟩
      rw [get?_alloc, if_neg, there]
      rintro rfl
      exact absurd (Array.getElem?_eq_some_iff.mp there).1 (Nat.lt_irrefl _)
    · intro o y r id there kind
      rw [get?_alloc] at there
      split at there
      · cases there
        rw [kind] at makes
        cases makes
      · exact ⟨y, there, kind⟩
  | @write A w o name v _ _ =>
    refine { Grows.refl w with objects := ?_, functions := ?_ }
    · intro i y there
      simp only [get?_setProperty, there, Option.map_some]
      split <;> exact ⟨_, rfl, rfl⟩
    · intro i y r id there kind
      simp only [get?_setProperty] at there
      split at there
      · obtain ⟨z, found, rfl⟩ := Option.map_eq_some_iff.mp there
        exact ⟨z, found, kind⟩
      · exact ⟨y, there, kind⟩
  | turn present turns => exact .withRealm present turns.recalls
  | @promise A w r x _ =>
    refine { Grows.refl w with promises := ?_ }
    intro p y there
    rw [getElem?_pushed, if_neg, there]
    exact Nat.ne_of_lt (Array.getElem?_eq_some_iff.mp there).1
  | forget present _ => exact .withRealm present (Realm.recalls_without _ _)
  | sweep => exact .sweep _

theorem Makes.honest {kind : Host.Kind} (makes : w.Makes kind) : kind.Honest := by
  cases kind with
  | plain | promise | guestFunction => trivial
  | function | constructor => exact makes

/-- Only honest code is made. -/
theorem Moves.honest_objects (moves : Moves F A w B w')
    (honest : ∀ o x, w.heap.get? o = some x → x.kind.Honest) :
    ∀ o x, w'.heap.get? o = some x → x.kind.Honest := by
  induction moves with
  | take | aside | pin | name | turn | post | promise | forget => exact honest
  | trans _ _ ih₁ ih₂ => exact ih₂ (ih₁ honest)
  | make x _ makes =>
    intro o y there
    rw [get?_alloc] at there
    split at there
    · cases there
      exact makes.honest
    · exact honest o y there
  | write o name v _ _ =>
    intro i y there
    rw [get?_setProperty] at there
    split at there
    · obtain ⟨x, found, rfl⟩ := Option.map_eq_some_iff.mp there
      exact honest i x found
    · exact honest i y there
  | sweep =>
    rw [sweep_eq]
    exact honest

theorem Moves.honest (moves : Moves F A w B w') (honest : w.Honest) : w'.Honest where
  objects := moves.honest_objects honest.objects
  imports name i known := honest.imports name i (moves.grows.runtime ▸ known)
  closures r x id f present known := by
    obtain ⟨y, there, recalls⟩ := moves.grows.realm present
    exact honest.closures r y id f there (recalls.entries _ known)

end World

end Membrane
