import Membrane.Proofs.Closures.Changes
import Membrane.Proofs.Closures.Deeds
import Membrane.Proofs.Crossing.Meaning
/-!
How long guest functions are known. A guest function that is made with a closure is known until it is
given up or, where weak references are in use, until no copy of its function object exists. That is so
after whatever was done, and inside of every call as well.
-/

set_option autoImplicit false

namespace Membrane

open World

/-! What deeds come to -/

/-- A deed makes a guest function known, or stirs and then moves. -/
inductive Deed.Does (w : World) : Deed → World → Prop
  | creates {r : RealmId} {g : Guest.Function} {x y : Realm} (present : w.realms[r]? = some x)
      (learns : x.Learns g w.heap.objects.size y) :
      Does w (.create r g) (w.created r x.closures.next y)
  | moves {d : Deed} {v w' : World} (stirs : Stirs w v)
      (moves : Moves (d.GivesUp w · ·) [] v [] w')
      (lost : ∀ r id x, w.realms[r]? = some x → d.GivesUp w r id → w'.Lost r id) : Does w d w'

namespace Deed

variable {w : World} {d : Deed}

theorem exec_ending {α : Type} (act : Act α) (w : World) :
    (Act.exec (do let _ ← act) w).2 = (Act.exec act w).2 := by
  rw [Act.exec_bind]
  rcases Act.exec act w with ⟨_ | _, _⟩ <;> rfl

/-- To take a job out of its loop is to leave the rest of them there. -/
theorem exec_job (l : LoopId) (rest : EventLoop Job) (j : Job) (w : World) :
    Act.exec (job l rest j).act w = Act.exec (Act.performJob j) (w.withQueue l fun _ => rest) := rfl

theorem ordinary_of_givesUp {r : RealmId} {id : FunctionId} (gives : d.GivesUp w r id) :
    d.IsOrdinary := by
  obtain (rfl | ⟨f, begins, _⟩) | ⟨releases, _⟩ := gives
  · trivial
  · cases begins <;> trivial
  · cases d with
    | release => trivial
    | _ => exact releases.elim

/-- A deed that is not ordinary gives nothing up, so it may stir and move as it likes. -/
theorem does_of_stirs {v w' : World} (other : ¬d.IsOrdinary) (stirs : Stirs w v)
    (moves : Moves (d.GivesUp w · ·) [] v [] w') : d.Does w w' :=
  .moves stirs moves fun _ _ _ _ gives => absurd (ordinary_of_givesUp gives) other

theorem does (ready : w.Ready) (fits : d.Fits w) : d.Does w (Act.exec d.act w).2 := by
  by_cases ordinary : d.IsOrdinary
  · exact .moves (.refl w) (d.leads ordinary ready.honest fits).moves_away fun r id x present gives =>
      lost ready.honest fits present gives
  cases d with
  | create r g =>
    cases present : w.realms[r]? with
    | none =>
      have missing : (Act.exec (Deed.create r g).act w).2 = w := by
        simp only [act, Act.newClosure, Act.registerFunction, Act.onRealm, Act.realm, Act.fetch,
          Act.exec_bind, Act.exec_get, Act.goOn_ok, present, Act.exec_throw, Act.goOn_error]
      rw [missing]
      exact does_of_stirs ordinary (.refl w) (.refl [] w)
    | some x =>
      obtain ⟨y, learns, made, _⟩ := Act.exec_newClosure r g w x present
      rw [act, exec_ending, made]
      exact .creates present learns
  | settle p outcome =>
    obtain ⟨had, o, y, atHand, there, kind⟩ := fits
    refine does_of_stirs ordinary ?_ (.refl [] _)
    rw [act, exec_ending]
    exact .settle (.refl w) p outcome ready.reactive fun w₀ shut =>
      ⟨shut.not_dead_of_atHand atHand there kind, shut.lacks (A := []) (fun _ held => (List.not_mem_nil held).elim) had⟩
  | job l rest j =>
    obtain ⟨plain, ⟨r, x, present, rfl⟩, c, waiting, waits, fewer⟩ := fits
    have lives (w₀ : World) (shut : Sealed w₀ w) : ¬w₀.dead.loops x.loop :=
      (shut.realms r x present).1
    have takes : Stirs w (w.withQueue x.loop fun _ => rest) := .take waiting lives fewer
    rw [exec_job]
    cases j with
    | collect s =>
      have collects : Act.LeadsAt (GivesUp w · · (.job x.loop rest (.collect s)))
          (w.withQueue x.loop fun _ => rest) [] (Act.performJob (.collect s)) fun _ => [] := by
        refine .get ?_
        split
        · exact .bind (.collectGarbage s) fun _ _ _ => .pure fun _ held => (List.not_mem_nil held).elim
        · exact .pure fun _ held => (List.not_mem_nil held).elim
      exact does_of_stirs ordinary takes collects.moves_away
    | settle p outcome =>
      refine does_of_stirs ordinary ?_ (.refl [] _)
      rw [Act.performJob, exec_ending]
      refine takes.settle p outcome ready.reactive fun w₀ shut => ?_
      obtain ⟨values, promises, _⟩ := shut.queued x.loop c _ (lives w₀ shut) waiting waits
      exact ⟨promises p List.mem_cons_self, values _ List.mem_cons_self⟩
    | line s => exact does_of_stirs ordinary takes (.aside _ _)
    | _ => exact plain.elim
  | _ => exact absurd trivial ordinary

/-- How many guest functions a deed registers in a realm. -/
def registrations (r : RealmId) : Deed → Nat
  | .create s _ => if r = s then 1 else 0
  | _ => 0

theorem Does.ready {w' : World} (does : d.Does w w') (ready : w.Ready) (fits : d.Fits w) :
    w'.Ready := by
  cases does with
  | creates present learns => exact ready.created present learns fits.1
  | moves stirs moves => exact (stirs.ready ready).moves moves

theorem Does.numbered {w' : World} (does : d.Does w w') {r : RealmId} {n : Nat}
    (numbered : w.Numbered r n) : ∃ m ≤ n + d.registrations r, w'.Numbered r m := by
  cases does with
  | @creates s g x y present learns =>
    refine ⟨_, Nat.le_of_eq ?_, numbered.created present learns⟩
    simp only [registrations]
    split <;> rfl
  | moves stirs moves =>
    exact ⟨n, Nat.le_add_right n _, (stirs.numbered numbered).grows moves.grows⟩

end Deed

/-! What is kept of a guest function -/

/-- A guest function that was made with a closure: it has one function object and is the only one under
its number. Once it was given up it is unknown. Before, it is known unless its function object is gone
for good. -/
structure World.Follows (w : World) (r : RealmId) (id : FunctionId) (g : Guest.Function) (weak : Bool)
    (o : ObjectId) (givenUp : Prop) : Prop where
  realm : ∃ x, w.realms[r]? = some x ∧ x.features.weakRefs = weak ∧
    ∀ f, (id, f) ∈ x.closures.entries → f = g
  function : ∀ i, w.IsFunctionObject r id i ↔ i = o
  lost : givenUp → w.Lost r id
  kept : ¬givenUp → w.Knows r id g ∨ w.Gone [] r id

namespace World.Follows

variable {w w' : World} {r : RealmId} {id : FunctionId} {g : Guest.Function} {weak : Bool}
  {o : ObjectId} {givenUp : Prop} {F : RealmId → FunctionId → Prop} {n : Nat}

theorem moves (follows : w.Follows r id g weak o givenUp) (attached : w.Attached)
    (moves : Moves F [] w [] w') (lost : F r id → w'.Lost r id) :
    w'.Follows r id g weak o (givenUp ∨ F r id) where
  realm := by
    obtain ⟨x, present, features, only⟩ := follows.realm
    obtain ⟨y, present, recalls⟩ := moves.grows.realms r x present
    exact ⟨y, present, recalls.features ▸ features, fun f known => only f (recalls.entries _ known)⟩
  function i := (moves.grows.isFunctionObject_iff i).trans (follows.function i)
  lost gone := gone.elim (fun before => moves.grows.lost (follows.lost before)) lost
  kept spared := by
    rw [not_or] at spared
    obtain knows | gone := follows.kept spared.1
    · exact moves.kept spared.2 attached knows
    · exact Or.inr (gone.moves moves)

theorem leavesAlone (follows : w.Follows r id g weak o givenUp) (alone : LeavesAlone r id w w') :
    w'.Follows r id g weak o givenUp where
  realm := by
    obtain ⟨x, present, features, only⟩ := follows.realm
    obtain ⟨y, present, same, _, fewer⟩ := alone.realm x present
    exact ⟨y, present, same ▸ features, fun f known => only f (fewer f known)⟩
  function i := (alone.objects i).trans (follows.function i)
  lost gone := by
    obtain ⟨x, present, none⟩ := follows.lost gone
    obtain ⟨y, present, _, same, _⟩ := alone.realm x present
    exact ⟨y, present, same.trans none⟩
  kept spared := by
    obtain ⟨x, present, known⟩ | ⟨⟨x, present, features⟩, w₀, i, dead, function, shut, hands⟩ :=
      follows.kept spared
    · obtain ⟨y, present, _, same, _⟩ := alone.realm x present
      exact Or.inl ⟨y, present, same.trans known⟩
    · obtain ⟨y, present, same, _⟩ := alone.realm x present
      exact Or.inr ⟨⟨y, present, same ▸ features⟩, w₀, i, dead, function, alone.shut w₀ shut, hands⟩

theorem congr {gone : Prop} (follows : w.Follows r id g weak o givenUp) (same : givenUp ↔ gone) :
    w.Follows r id g weak o gone := propext same ▸ follows

/-- A guest function that is followed is known as long as it was not given up and, with weak references,
there is a copy of its function object. -/
theorem known_iff (follows : w.Follows r id g weak o givenUp) (attached : w.Attached) :
    (∀ f, w.guestFunction? r id = some f → f = g) ∧
      ((w.guestFunction? r id).isSome ↔
        ¬givenUp ∧ (weak = true → w.HasCopy w.living (.object o))) := by
  obtain ⟨x, present, rfl, only⟩ := follows.realm
  obtain ⟨y, there, kind⟩ := (follows.function o).mpr rfl
  have inside : o < w.heap.objects.size := (Array.getElem?_eq_some_iff.mp there).1
  have swept := realms_sweep_of_held (attached.holdsRealm present) present
  have found : w.guestFunction? r id =
      if !w.isForgotten w.survivors r id then x.closures.get? id else none := by
    rw [guestFunction?, swept, Option.bind_some]
    exact lookup_filter (fun i => !w.isForgotten w.survivors r i) x.closures.entries id
  have remembers : w.Remembers w.living x r id ↔
      (x.features.weakRefs = true → w.HasCopy w.living (.object o)) := by
    constructor
    · intro remembers weak
      exact (sustains_living.objects o (remembers weak o y there kind)).2
    · intro copy weak i z there kind
      obtain rfl := (follows.function i).mp ⟨z, there, kind⟩
      exact living_objects_of_copy inside (copy weak)
  rw [found, ← remembers, ← isForgotten_iff present id]
  cases forgotten : w.isForgotten w.survivors r id with
  | true => simp
  | false =>
    simp only [Bool.not_false, ↓reduceIte, and_true]
    refine ⟨fun f known => only f (mem_of_lookup known), fun some gone => ?_, fun spared => ?_⟩
    · obtain ⟨z, there, none⟩ := follows.lost gone
      obtain rfl := Option.some.inj (present.symm.trans there)
      rw [none] at some
      cases some
    · obtain ⟨z, there, known⟩ | gone := follows.kept spared
      · obtain rfl := Option.some.inj (present.symm.trans there)
        rw [known]
        rfl
      · obtain ⟨i, function, dead⟩ := gone.not_exists
        obtain ⟨⟨z, there, weak⟩, _⟩ := gone
        obtain rfl := Option.some.inj (present.symm.trans there)
        obtain rfl := (follows.function i).mp function
        have remembers := (isForgotten_iff present id).mp forgotten
        exact absurd (remembers weak _ y (by assumption) kind) dead

end World.Follows

/-- The next number was not given out before. -/
theorem World.Numbered.fresh {w : World} {r : RealmId} {n : Nat} {x : Realm} (numbered : w.Numbered r n)
    (fewer : n < 2 ^ 32) (present : w.realms[r]? = some x) (i : ObjectId) :
    ¬w.IsFunctionObject r ⟨x.closures.next⟩ i := by
  intro function
  obtain ⟨z, there, next⟩ := numbered.next
  obtain rfl := Option.some.inj (present.symm.trans there)
  obtain ⟨k, before, same⟩ := numbered.issued i _ function
  have taken : k = n :=
    FunctionId.eq_of_nth_eq (Nat.lt_trans before fewer) fewer (same.symm.trans next)
  exact absurd before (Nat.not_lt_of_le (Nat.le_of_eq taken.symm))

/-- A guest function that is made is followed from then on. -/
theorem World.Numbered.follows {w : World} {r : RealmId} {n : Nat} {g : Guest.Function} {x y : Realm}
    (numbered : w.Numbered r n) (fewer : n < 2 ^ 32) (present : w.realms[r]? = some x)
    (learns : x.Learns g w.heap.objects.size y) :
    (w.created r x.closures.next y).Follows r ⟨x.closures.next⟩ g x.features.weakRefs
      w.heap.objects.size False := by
  have there : (w.created r x.closures.next y).realms[r]? = some y :=
    (realms_withRealm w r x y present r).trans (if_pos rfl)
  have known : y.closures.get? ⟨x.closures.next⟩ = some g := by
    rw [learns.closures, ClosureTable.get?_insert, if_pos rfl]
  refine ⟨⟨y, there, by rw [learns.features], fun f known => ?_⟩, fun i => ?_, False.elim,
    fun _ => Or.inl ⟨y, there, known⟩⟩
  · rw [learns.closures] at known
    obtain ⟨_, other⟩ | new := x.closures.mem_insert g _ known
    · exact absurd rfl other
    · exact congrArg Prod.snd new
  · rw [isFunctionObject_created]
    refine ⟨fun function => ?_, fun same => Or.inl ⟨same, rfl, rfl⟩⟩
    obtain ⟨same, _⟩ | old := function
    · exact same
    · exact absurd old (numbered.fresh fewer present i)

/-! Courses of deeds -/

namespace Deed

/-- Deeds are done one after the other, on any threads: what was done, each deed in the world that it
found. -/
inductive Course : World → List (World × Deed) → World → Prop
  | start (w : World) : Course w [] w
  | deed {w u : World} {past : List (World × Deed)} {d : Deed} (before : Course w past u)
      (fits : d.Fits u) : Course w (past ++ [(u, d)]) (Act.exec d.act u).2
  /-- Another thread runs. -/
  | thread {w u : World} {past : List (World × Deed)} (before : Course w past u) (here : ThreadId) :
      Course w past { u with here }

variable {w u v : World} {d : Deed} {past : List (World × Deed)} {r : RealmId} {id : FunctionId}
  {g : Guest.Function} {o : ObjectId} {weak : Bool} {n : Nat}

/-- A guest function was freed, by a deed itself or by code that a deed ran. -/
def FreedIn (past : List (World × Deed)) (r : RealmId) (id : FunctionId) : Prop :=
  ∃ w d, (w, d) ∈ past ∧ d.Frees w r id

/-- The closure of a guest function was given back. -/
def ReleasedIn (past : List (World × Deed)) (r : RealmId) (id : FunctionId) : Prop :=
  ∃ w d, (w, d) ∈ past ∧ d.Releases r id

/-- How many guest functions were registered in a realm. -/
def registered (r : RealmId) (past : List (World × Deed)) : Nat :=
  (past.map (·.2.registrations r)).sum

theorem freedIn_append :
    FreedIn (past ++ [(w, d)]) r id ↔ FreedIn past r id ∨ d.Frees w r id := by
  simp [FreedIn, or_and_right, exists_or]

theorem releasedIn_append :
    ReleasedIn (past ++ [(w, d)]) r id ↔ ReleasedIn past r id ∨ d.Releases r id := by
  simp [ReleasedIn, or_and_right, exists_or]

theorem registered_append :
    registered r (past ++ [(w, d)]) = registered r past + d.registrations r := by
  simp [registered]

/-- To be given up is to be freed or, without weak references, to be given back. -/
def GivenUp (past : List (World × Deed)) (weak : Bool) (r : RealmId) (id : FunctionId) : Prop :=
  FreedIn past r id ∨ weak = false ∧ ReleasedIn past r id

theorem givenUp_append (follows : w.Follows r id g weak o (GivenUp past weak r id)) :
    GivenUp (past ++ [(w, d)]) weak r id ↔ GivenUp past weak r id ∨ d.GivesUp w r id := by
  obtain ⟨x, present, rfl, _⟩ := follows.realm
  have here : (∃ y, w.realms[r]? = some y ∧ y.features.weakRefs = false) ↔
      x.features.weakRefs = false := by
    simp [present]
  rw [GivenUp, GivenUp, GivesUp, freedIn_append, releasedIn_append, here]
  tauto

/-- Nothing is given up by making a guest function. -/
theorem not_givesUp_create {s : RealmId} {f : Guest.Function} : ¬(create s f).GivesUp w r id := by
  rintro ((same | ⟨_, begins, _⟩) | ⟨releases, _⟩)
  · cases same
  · cases begins
  · exact releases

/-- Worlds stay ready, and numbers are given out one by one. -/
theorem Course.ready (course : Course w past u) (ready : w.Ready) : u.Ready := by
  induction course with
  | start => exact ready
  | deed _ fits ih => exact (does ih fits).ready ih fits
  | @thread u _ _ here ih => exact (Stirs.onThread u here).ready ih

theorem Course.numbered (course : Course w past u) (ready : w.Ready) (numbered : w.Numbered r n) :
    ∃ m ≤ n + registered r past, u.Numbered r m := by
  induction course with
  | start => exact ⟨n, Nat.le_refl n, numbered⟩
  | deed before fits ih =>
    obtain ⟨m, most, numbered⟩ := ih
    obtain ⟨k, more, numbered⟩ := (does (before.ready ready) fits).numbered numbered
    refine ⟨k, ?_, numbered⟩
    rw [registered_append]
    omega
  | @thread u _ _ here ih =>
    obtain ⟨m, most, numbered⟩ := ih
    exact ⟨m, most, (Stirs.onThread u here).numbered numbered⟩

/-- One deed: a guest function that is followed is followed on, unless its number is given out again. -/
theorem follows_deed (ready : w.Ready) (fits : d.Fits w) (numbered : w.Numbered r n)
    (fewer : n + d.registrations r ≤ 2 ^ 32)
    (follows : w.Follows r id g weak o (GivenUp past weak r id)) :
    (Act.exec d.act w).2.Follows r id g weak o (GivenUp (past ++ [(w, d)]) weak r id) := by
  generalize after : (Act.exec d.act w).2 = w'
  have does : d.Does w w' := after ▸ does ready fits
  cases does with
  | @creates s f x y present learns =>
    refine World.Follows.congr (follows.leavesAlone (.created present learns fits.2 ?_)) ?_
    · rintro rfl rfl
      have room : n < 2 ^ 32 := by
        simp only [registrations, if_true] at fewer
        omega
      exact numbered.fresh room present o ((follows.function o).mpr rfl)
    · rw [givenUp_append follows, or_iff_left not_givesUp_create]
  | moves stirs moves lost =>
    obtain ⟨x, present, _⟩ := follows.realm
    refine World.Follows.congr ((follows.leavesAlone stirs.leavesAlone).moves
      (stirs.ready ready).attached moves (lost r id x present)) (givenUp_append follows).symm

/-- A guest function that is followed is followed through all that is done. -/
theorem Course.follows (course : Course w past u) (ready : w.Ready) (numbered : w.Numbered r n)
    (fewer : n + registered r past ≤ 2 ^ 32) (follows : w.Follows r id g weak o False) :
    u.Follows r id g weak o (GivenUp past weak r id) := by
  induction course with
  | start => exact follows.congr (by simp [GivenUp, FreedIn, ReleasedIn])
  | deed before fits ih =>
    rw [registered_append] at fewer
    obtain ⟨m, most, counted⟩ := before.numbered ready numbered
    exact follows_deed (before.ready ready) fits counted (by omega)
      (ih (by omega))
  | @thread u _ _ here ih =>
    exact (ih fewer).leavesAlone (Stirs.onThread u here).leavesAlone

/-- Inside of a call, a guest function is also given up by what the call did so far. -/
theorem follows_inside {f f' : Frame} {e : Nat} {givenUp : Prop} (ready : w.Ready) (fits : d.Fits w)
    (begins : d.Begins w f) (gets : Act.GetsTo Act.depthLimit f e f')
    (follows : w.Follows r id g weak o givenUp) :
    f'.world.Attached ∧ f'.world.Follows r id g weak o
      (givenUp ∨ Act.FreesBefore r id Act.depthLimit f e f') := by
  obtain ⟨sound, enters⟩ :=
    begins.sound (F := fun s i => Act.FreesBefore s i Act.depthLimit f e f') ready.honest fits
  obtain ⟨_, further⟩ := gets.moves sound fun _ _ frees => frees
  have all := enters.trans further
  refine ⟨(ready.moves all).attached, follows.moves ready.attached all fun frees => ?_⟩
  obtain ⟨x, there, _⟩ := follows.realm
  exact frees.lost sound (enters.grows.present ⟨x, there⟩)

end Deed

/-! How long closures last -/

/-- How long a guest function is known, and no other one under its number: without weak references until
it is freed or its closure is given back, with them until it is freed or there is no copy of its
function object. -/
structure World.KnownUntil (w : World) (r : RealmId) (id : FunctionId) (g : Guest.Function)
    (weak : Bool) (o : ObjectId) (freed released : Prop) : Prop where
  only : ∀ f, w.guestFunction? r id = some f → f = g
  withoutWeakRefs : weak = false → ((w.guestFunction? r id).isSome ↔ ¬freed ∧ ¬released)
  withWeakRefs : weak = true →
    ((w.guestFunction? r id).isSome ↔ ¬freed ∧ w.HasCopy w.living (.object o))

theorem World.Follows.knownUntil {w : World} {r : RealmId} {id : FunctionId} {g : Guest.Function}
    {weak : Bool} {o : ObjectId} {givenUp freed released : Prop}
    (follows : w.Follows r id g weak o givenUp) (attached : w.Attached)
    (ways : givenUp ↔ freed ∨ weak = false ∧ released) :
    w.KnownUntil r id g weak o freed released := by
  obtain ⟨only, known⟩ := follows.known_iff attached
  rw [ways] at known
  refine ⟨only, fun without => ?_, fun weak => ?_⟩
  · rw [known]
    simp [without]
  · rw [known]
    simp [weak]

namespace Deed

/-- A closure that is made has one function object, and its guest function is known, after all that is
done and inside of all calls, until it is freed or its closure is given back or, with weak references,
until it is freed or there is no copy of its function object. Numbers start over only after all of them
were given out in the realm. -/
theorem closure_lasts {w u v : World} {r : RealmId} {x : Realm} {n : Nat} {g : Guest.Function}
    {c : Guest.Closure} {later : List (World × Deed)} (ready : w.Ready)
    (present : w.realms[r]? = some x) (numbered : w.Numbered r n) (fits : (create r g).Fits w)
    (made : Act.exec (Act.newClosure r g) w = (.ok c, u)) (course : Course u later v)
    (numbers : n + 1 + registered r later ≤ 2 ^ 32) :
    c.ref.realm = r ∧ ∃ o, (∀ i, v.IsFunctionObject r c.function i ↔ i = o) ∧
      v.KnownUntil r c.function g x.features.weakRefs o (FreedIn later r c.function)
        (ReleasedIn later r c.function) ∧
      ∀ (d : Deed) f e f', d.Fits v → d.Begins v f → Act.GetsTo Act.depthLimit f e f' →
        f'.world.KnownUntil r c.function g x.features.weakRefs o
          (FreedIn later r c.function ∨ Act.FreesBefore r c.function Act.depthLimit f e f')
          (ReleasedIn later r c.function) := by
  obtain ⟨y, learns, world, result⟩ := Act.exec_newClosure r g w x present
  rw [made] at world result
  obtain rfl : u = w.created r x.closures.next y := world
  obtain ⟨home, number⟩ := result c rfl
  have start := numbered.follows (by omega) present learns
  rw [← number] at start
  have counted := numbered.created present learns
  rw [if_pos rfl] at counted
  have begun := ready.created present learns fits.1
  have ready := course.ready begun
  have follows := course.follows begun counted numbers start
  refine ⟨home, _, follows.function, follows.knownUntil ready.attached Iff.rfl, ?_⟩
  intro d f e f' fits begins gets
  obtain ⟨attached, follows⟩ := follows_inside ready fits begins gets follows
  refine follows.knownUntil attached ?_
  rw [GivenUp, or_right_comm]

/-- A world with a global object and a realm that is attached. -/
def lodging : World :=
  { World.lone .blank [] with
    heap := ⟨#[.plain none]⟩, runtime := (Runtime.create .default).attach 0 0 }

/-- A guest function that returns at once. -/
def idle : Guest.Function := ⟨[], fun _ => .done (.ok .undefined)⟩

theorem lodging_ready : lodging.Ready ∧ lodging.Numbered 0 0 := by
  have object (o : ObjectId) (x : Host.Object) (there : lodging.heap.get? o = some x) :
      x = .plain none := by
    obtain ⟨inside, same⟩ := Array.getElem?_eq_some_iff.mp there
    obtain rfl := Nat.lt_one_iff.mp inside
    exact same.symm
  have realm (r : RealmId) (x : Realm) (present : lodging.realms[r]? = some x) :
      r = 0 ∧ x = .blank := by
    obtain ⟨inside, same⟩ := Array.getElem?_eq_some_iff.mp present
    obtain rfl := Nat.lt_one_iff.mp inside
    exact ⟨rfl, same.symm⟩
  refine ⟨⟨⟨fun o x there => ?_, fun _ _ => nofun, fun r x id f present => ?_⟩,
    fun r x present => ?_, nofun⟩, ⟨.blank, rfl, rfl⟩, fun o id ⟨x, there, kind⟩ => ?_⟩
  · obtain rfl := object o x there
    trivial
  · obtain ⟨rfl, rfl⟩ := realm r x present
    exact nofun
  · obtain ⟨rfl, rfl⟩ := realm r x present
    exact ⟨_, List.mem_singleton_self _, rfl⟩
  · obtain rfl := object o x there
    cases kind

/-- A closure is known when it was made, and not any more when it was freed. -/
theorem closure_lasts_until_freed :
    ∃ c u, Act.exec (Act.newClosure 0 idle) lodging = (.ok c, u) ∧
      u.guestFunction? 0 c.function = some idle ∧
      (Act.exec (free 0 c.function).act u).2.guestFunction? 0 c.function = none := by
  obtain ⟨ready, numbered⟩ := lodging_ready
  have fits : (create 0 idle).Fits lodging := ⟨fun _ => .done fun _ => nofun, fun _ => nofun⟩
  let t := Realm.blank.table.retain (.object 1)
  let y : Realm := { Realm.blank with table := t.2, closures := (ClosureTable.empty.insert idle).2 }
  have made : Act.exec (Act.newClosure 0 idle) lodging =
      (.ok ⟨⟨1⟩, ⟨0, t.1⟩⟩, lodging.created 0 1 y) := rfl
  refine ⟨_, _, made, ?_, ?_⟩
  · obtain ⟨_, o, function, known, _⟩ :=
      closure_lasts ready rfl numbered fits made (.start _) (by decide)
    obtain rfl := (function 1).mp ((isFunctionObject_created 1 y 0 ⟨1⟩ 1).mpr (.inl ⟨rfl, rfl, rfl⟩))
    have room : Realm.blank.table.RoomFor 1 := RefTable.create_roomFor .dense (.object 0) (by decide)
    have sound : Realm.blank.table.Sound (.object 0) := RefTable.create_sound .dense (.object 0)
    have copy : (lodging.created 0 1 y).HasCopy (lodging.created 0 1 y).living (.object 1) :=
      .table (r := 0) (x := y) rfl rfl
        (RefTable.mem_values_of_get t.1 (sound.retain_known room _ (.inr ⟨1, rfl⟩)).1)
    have unfreed : ¬FreedIn [] 0 ⟨1⟩ := by
      rintro ⟨_, _, done, _⟩
      cases done
    obtain ⟨f, found⟩ := Option.isSome_iff_exists.mp ((known.withWeakRefs rfl).mpr ⟨unfreed, copy⟩)
    rw [found, known.only f found]
  · obtain ⟨_, _, _, known, _⟩ := closure_lasts ready rfl numbered fits made
      (.deed (d := free 0 ⟨1⟩) (.start _) trivial) (by decide)
    have gone := mt (known.withWeakRefs rfl).mp fun both => both.1 (freedIn_append.mpr (.inr (.inl rfl)))
    exact Option.not_isSome_iff_eq_none.mp gone

end Deed

end Membrane
