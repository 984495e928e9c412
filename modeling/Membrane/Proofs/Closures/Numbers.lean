import Membrane.Proofs.Closures.Lifetime
import Membrane.Proofs.Ownership.Arguments
/-!
The numbers of guest functions, over all that happens to a realm. A registration gets the next number,
and anybody may free any number at any time, one that was freed before or was never given out as well.
As no number is given out twice while there are others, a late free or a late call meets the function
that it was meant for, or none.
-/

set_option autoImplicit false

namespace Membrane

namespace ClosureTable

/-- Something that happens to the guest functions of a realm. -/
inductive Event where
  /-- A function is registered and gets a number. -/
  | registered (id : FunctionId) (f : Guest.Function)
  /-- A number is freed, and a function is known under it or not. -/
  | freed (id : FunctionId) (known : Bool)

/-! What happened is told with the last first -/

/-- The numbers that were given out. -/
def minted (past : List Event) : List FunctionId :=
  past.filterMap fun
    | .registered id _ => some id
    | .freed .. => none

/-- The numbers under which a free found a function. -/
def ended (past : List Event) : List FunctionId :=
  past.filterMap fun
    | .freed id true => some id
    | _ => none

/-- A function was registered under a number, and nobody freed the number since. -/
def Remains (past : List Event) (id : FunctionId) (f : Guest.Function) : Prop :=
  ∃ later before, past = later ++ .registered id f :: before ∧ ∀ known, .freed id known ∉ later

/-- The functions that remain, with their numbers. -/
def remaining : List Event → List (FunctionId × Guest.Function)
  | [] => []
  | .registered id f :: past => (id, f) :: remaining past
  | .freed id _ :: past => without id (remaining past)

variable {past : List Event} {id : FunctionId} {f : Guest.Function} {t : ClosureTable}

theorem remains_cons (e : Event) : Remains (e :: past) id f ↔
    e = .registered id f ∨ (∀ known, e ≠ .freed id known) ∧ Remains past id f := by
  constructor
  · rintro ⟨later, before, split, unfreed⟩
    cases later with
    | nil => exact Or.inl (List.cons.inj split).1
    | cons last later =>
      obtain ⟨rfl, rest⟩ := List.cons.inj split
      refine Or.inr ⟨fun known same => unfreed known (same ▸ List.mem_cons_self), later, before,
        rest, fun known freed => unfreed known (List.mem_cons_of_mem _ freed)⟩
  · rintro (rfl | ⟨other, later, before, rfl, unfreed⟩)
    · exact ⟨[], past, rfl, fun _ => List.not_mem_nil⟩
    · refine ⟨e :: later, before, rfl, fun known freed => ?_⟩
      obtain same | freed := List.mem_cons.mp freed
      · exact other known same.symm
      · exact unfreed known freed

theorem mem_remaining_iff : (id, f) ∈ remaining past ↔ Remains past id f := by
  induction past with
  | nil => simp [remaining, Remains]
  | cons e past ih =>
    rw [remains_cons, ← ih]
    cases e with
    | registered i g => simp [remaining, eq_comm]
    | freed i known =>
      have swap : ¬i = id ↔ ¬id = i := not_congr eq_comm
      simp [remaining, without, and_comm, swap]

theorem minted_append (later : List Event) : minted (later ++ past) = minted later ++ minted past :=
  List.filterMap_append

/-- To free some numbers gives out none. -/
theorem minted_freed (ids : List FunctionId) :
    minted (ids.map (Event.freed · true)) = [] := by
  rw [minted, List.filterMap_map]
  exact List.filterMap_eq_nil_iff.mpr fun _ _ => rfl

theorem keys_without (entries : List (FunctionId × Guest.Function)) :
    (without id entries).map Prod.fst = (entries.map Prod.fst).filter (· != id) := by
  rw [without, List.filter_map]
  rfl

/-- A table tells what happened to it: it holds what remains, and its next number follows those that
were given out. Each of these remains or was ended by one free. -/
structure Tells (t : ClosureTable) (past : List Event) : Prop where
  next : (⟨t.next⟩ : FunctionId) = .nth (minted past).length
  entries : t.entries = (remaining past).reverse
  numbers : ∀ id ∈ minted past, ∃ k < (minted past).length, id = .nth k
  distinct : (minted past).Nodup
  accounted : (minted past).Perm (ended past ++ (remaining past).map Prod.fst)

theorem tells_empty : Tells .empty [] := ⟨rfl, rfl, nofun, .nil, .nil⟩

namespace Tells

variable (tells : t.Tells past)

include tells

theorem fresh (few : (minted past).length < 2 ^ 32) : ⟨t.next⟩ ∉ minted past := by
  intro given
  obtain ⟨k, before, same⟩ := tells.numbers _ given
  have taken := FunctionId.eq_of_nth_eq few (Nat.lt_trans before few) (tells.next.symm.trans same)
  omega

theorem keys_nodup : ((remaining past).map Prod.fst).Nodup :=
  (List.nodup_append.mp (tells.accounted.nodup_iff.mp tells.distinct)).2.1

theorem minted_of_remains (remains : Remains past id f) : id ∈ minted past :=
  tells.accounted.mem_iff.mpr
    (List.mem_append_right _ (List.mem_map.mpr ⟨_, mem_remaining_iff.mpr remains, rfl⟩))

/-- A table finds what remains. -/
theorem get?_eq_some_iff : t.get? id = some f ↔ Remains past id f := by
  rw [← mem_remaining_iff, ← List.mem_reverse, ← tells.entries]
  refine ⟨fun found => mem_of_lookup found, fun known => ?_⟩
  cases found : t.get? id with
  | none =>
    have absent := List.lookup_eq_none_iff.mp found _ known
    simp at absent
  | some g =>
    have other : (id, g) ∈ t.entries := mem_of_lookup found
    rw [tells.entries, List.mem_reverse] at known other
    have same := List.inj_on_of_nodup_map tells.keys_nodup known other rfl
    rw [(Prod.mk.inj same).2]

theorem isSome_get?_iff : (t.get? id).isSome ↔ ∃ f, Remains past id f := by
  rw [Option.isSome_iff_exists]
  exact exists_congr fun f => tells.get?_eq_some_iff

theorem isSome_get?_iff_mem : (t.get? id).isSome ↔ id ∈ (remaining past).map Prod.fst := by
  simp [tells.isSome_get?_iff, mem_remaining_iff]

/-- A function that is registered under a number that was never given out takes nobody's place. -/
theorem insert (few : (minted past).length < 2 ^ 32) (f : Guest.Function) :
    (t.insert f).2.Tells (.registered (t.insert f).1 f :: past) := by
  have fresh := tells.fresh few
  have kept : without ⟨t.next⟩ t.entries = t.entries := by
    refine List.filter_eq_self.mpr fun e known => bne_iff_ne.mpr ?_
    rintro same
    rw [tells.entries, List.mem_reverse] at known
    exact fresh (same ▸ tells.minted_of_remains (mem_remaining_iff.mp known))
  refine
    { next := ?_
      entries := ?_
      numbers := fun id given => ?_
      distinct := List.nodup_cons.mpr ⟨fresh, tells.distinct⟩
      accounted := (tells.accounted.cons _).trans List.perm_middle.symm }
  · have next : t.next = UInt32.ofNat ((minted past).length + 1) := congrArg FunctionId.raw tells.next
    show (⟨t.next + 1⟩ : FunctionId) = ⟨UInt32.ofNat ((minted past).length + 1 + 1)⟩
    rw [next, UInt32.ofNat_add ((minted past).length + 1) 1]
    rfl
  · show without ⟨t.next⟩ t.entries ++ [(⟨t.next⟩, f)] = _
    rw [kept, tells.entries]
    exact List.reverse_cons.symm
  · obtain rfl | given := List.mem_cons.mp given
    · exact ⟨_, Nat.lt_succ_self _, tells.next⟩
    · obtain ⟨k, before, rfl⟩ := tells.numbers id given
      exact ⟨k, Nat.lt_succ_of_lt before, rfl⟩

/-- A free ends the function that remains under its number, or nothing. -/
theorem remove (id : FunctionId) :
    (t.remove id).2.Tells (.freed id (t.remove id).1 :: past) := by
  refine { tells with entries := ?_, accounted := ?_ }
  · show without id t.entries = (without id (remaining past)).reverse
    rw [tells.entries, without, without, List.filter_reverse]
  · show (minted past).Perm (_ ++ (without id (remaining past)).map Prod.fst)
    rw [keys_without]
    have whether : (t.remove id).1 = (t.get? id).isSome := rfl
    rw [whether]
    cases known : (t.get? id).isSome with
    | true =>
      have there := tells.isSome_get?_iff_mem.mp known
      rw [← tells.keys_nodup.erase_eq_filter]
      refine tells.accounted.trans (.trans ?_ List.perm_middle)
      exact (List.perm_cons_erase there).append_left _
    | false =>
      have absent : id ∉ (remaining past).map Prod.fst := fun there => by
        rw [tells.isSome_get?_iff_mem.mpr there] at known
        cases known
      have kept : ((remaining past).map Prod.fst).filter (· != id) = (remaining past).map Prod.fst := by
        refine List.filter_eq_self.mpr fun i there => bne_iff_ne.mpr ?_
        rintro rfl
        exact absent there
      rw [kept]
      exact tells.accounted

omit tells in
/-- Functions that remain are ended by one free each. -/
theorem removeAll (tells : t.Tells past) (ids : List FunctionId) (distinct : ids.Nodup)
    (known : ∀ id ∈ ids, id ∈ t.entries.map Prod.fst) :
    Tells { t with entries := t.entries.filter (·.1 ∉ ids) }
      (ids.map (Event.freed · true) ++ past) := by
  induction ids with
  | nil =>
    have same : t.entries.filter (·.1 ∉ []) = t.entries := List.filter_eq_self.mpr fun _ _ => by simp
    rw [same]
    exact tells
  | cons id ids ih =>
    -- The other numbers are freed first, so the last one still has its function.
    obtain ⟨other, distinct⟩ := List.nodup_cons.mp distinct
    have later := ih distinct fun i there => known i (List.mem_cons_of_mem _ there)
    let s : ClosureTable := { t with entries := t.entries.filter (·.1 ∉ ids) }
    have there : (s.get? id).isSome := by
      obtain ⟨e, inside, rfl⟩ := List.mem_map.mp (known id List.mem_cons_self)
      refine later.isSome_get?_iff_mem.mpr (List.mem_map.mpr ⟨e, ?_, rfl⟩)
      rw [← List.mem_reverse, ← later.entries, List.mem_filter]
      exact ⟨inside, decide_eq_true other⟩
    have gone : { t with entries := t.entries.filter (·.1 ∉ id :: ids) } = (s.remove id).2 := by
      show ClosureTable.mk t.next _ = ⟨t.next, without id (t.entries.filter (·.1 ∉ ids))⟩
      rw [without, List.filter_filter]
      congr 2
      funext e
      simp [bne, Bool.beq_eq_decide_eq]
    have step := later.remove id
    have answered : (s.remove id).1 = true := there
    rw [gone]
    rw [answered] at step
    exact step

end Tells

end ClosureTable

open Act
open ClosureTable (Event Remains minted ended remaining)

/-- What happens to a realm while no foreign code runs leaves its guest functions alone, or forgets one
of them. -/
theorem Realm.Moves.closures {x y : Realm} (moves : x.Moves y) :
    y.closures = x.closures ∨ ∃ id, y = x.without id := by
  cases moves with
  | copy _ h done =>
    obtain ⟨t, _, rfl⟩ := x.retainHandle_eq_ok y h done
    exact Or.inl rfl
  | release h =>
    rw [Realm.releaseQuietly_eq]
    exact Or.inl rfl
  | read h =>
    obtain ⟨lowered, frames, claimed⟩ := x.claimLowered_eq h
    rw [Realm.read, claimed, Realm.releaseQuietly_eq]
    exact Or.inl rfl
  | retain | lower | note => exact Or.inl rfl
  | forget id => exact Or.inr ⟨id, rfl⟩

namespace World

variable {w u : World} {r s : RealmId} {past : List Event} {x y : Realm} {id : FunctionId}

/-- The numbers of the guest functions whose function objects the host has let go of. -/
def letGo (w : World) (r : RealmId) : List FunctionId :=
  match w.realms[r]? with
  | some x =>
    if w.holdsRealm r then (x.closures.entries.map Prod.fst).filter (w.isForgotten w.survivors r)
    else []
  | none => []

/-- What happened to the guest functions of a realm up to now: with a function object that the host lets
go of, the number is freed. -/
def upToNow (w : World) (r : RealmId) (past : List Event) : List Event :=
  (w.letGo r).map (Event.freed · true) ++ past

/-- A world, and what happened to the guest functions of a realm since it was made: they are registered
and freed, in any order and by anybody, and their function objects are let go of. Whatever else is done
in between leaves them alone. -/
inductive Chronicle (r : RealmId) : List Event → World → Prop
  | start {w : World} {x : Realm} (present : w.realms[r]? = some x) (new : x.closures = .empty) :
      Chronicle r [] w
  | register {past : List Event} {w : World} {x : Realm} (before : Chronicle r past w)
      (present : w.realms[r]? = some x) (f : Guest.Function) :
      Chronicle r (.registered (x.closures.insert f).1 f :: past)
        (w.withRealm r { x with closures := (x.closures.insert f).2 })
  | free {past : List Event} {w : World} {x : Realm} (before : Chronicle r past w)
      (present : w.realms[r]? = some x) (id : FunctionId) :
      Chronicle r (.freed id (x.closures.remove id).1 :: past) (w.withRealm r (x.without id))
  | sweep {past : List Event} {w : World} (before : Chronicle r past w) :
      Chronicle r (w.upToNow r past) w.sweep
  | other {past : List Event} {w u : World} (before : Chronicle r past w)
      (same : (u.realms[r]?).map (·.closures) = (w.realms[r]?).map (·.closures)) :
      Chronicle r past u

theorem minted_upToNow (w : World) (r : RealmId) (past : List Event) :
    minted (w.upToNow r past) = minted past := by
  rw [upToNow, ClosureTable.minted_append, ClosureTable.minted_freed, List.nil_append]

/-- The numbers that are let go of are the ones that a sweep forgets. -/
theorem realms_sweep_letGo (present : w.realms[r]? = some x) :
    w.sweep.realms[r]? = some { x with closures := { x.closures with
      entries := x.closures.entries.filter (·.1 ∉ w.letGo r) } } := by
  cases held : w.holdsRealm r with
  | true =>
    rw [realms_sweep_of_held held present]
    have same : x.closures.entries.filter (fun e => !w.isForgotten w.survivors r e.1) =
        x.closures.entries.filter (·.1 ∉ w.letGo r) := by
      refine List.filter_congr fun e known => ?_
      have inside : e.1 ∈ x.closures.entries.map Prod.fst := List.mem_map_of_mem known
      simp only [letGo, present, held, if_true, List.mem_filter, inside, true_and]
      cases w.isForgotten w.survivors r e.1 <;> rfl
    exact congrArg (fun kept => some { x with closures := { x.closures with entries := kept } }) same
  | false =>
    have none : w.letGo r = [] := by simp [letGo, present, held]
    have all : x.closures.entries.filter (·.1 ∉ w.letGo r) = x.closures.entries :=
      List.filter_eq_self.mpr fun _ _ => by simp [none]
    rw [all]
    have outside : w.heldRealms.contains r = false := held
    unfold sweep
    split
    · exact present
    · simp only [Array.getElem?_mapIdx, present, Option.map_some, outside, Bool.false_eq_true,
        if_false]

/-- Only functions that had a function object are let go of. -/
theorem isFunctionObject_of_letGo (gone : id ∈ w.letGo r) : ∃ o, w.IsFunctionObject r id o := by
  unfold letGo at gone
  split at gone
  · next x present =>
    split at gone
    · obtain ⟨_, forgotten⟩ := List.mem_filter.mp gone
      by_contra none
      have remembers : w.Remembers w.living x r id :=
        fun _ o z there kind => absurd ⟨o, z, there, kind⟩ none
      rw [(isForgotten_iff present id).mpr remembers] at forgotten
      cases forgotten
    · cases gone
  · cases gone

namespace Chronicle

/-- A table tells what happened, as long as its numbers have not started over. -/
theorem tells (chronicle : Chronicle r past w) (few : (minted past).length ≤ 2 ^ 32) :
    ∃ x, w.realms[r]? = some x ∧ x.closures.Tells past := by
  -- Numbers are only ever given out, so the bound holds all the way back.
  induction chronicle with
  | start present new => exact ⟨_, present, new ▸ ClosureTable.tells_empty⟩
  | register before present f ih =>
    have fewer := Nat.lt_of_succ_le few
    obtain ⟨x, there, tells⟩ := ih (Nat.le_of_lt fewer)
    obtain rfl := Option.some.inj (present.symm.trans there)
    exact ⟨_, realm_withRealm _ r _ _ present, tells.insert fewer f⟩
  | free before present id ih =>
    obtain ⟨x, there, tells⟩ := ih few
    obtain rfl := Option.some.inj (present.symm.trans there)
    exact ⟨_, realm_withRealm _ r _ _ present, tells.remove id⟩
  | @sweep past w before ih =>
    rw [minted_upToNow] at few
    obtain ⟨x, present, tells⟩ := ih few
    have keys : (x.closures.entries.map Prod.fst).Nodup := by
      rw [tells.entries, List.map_reverse, List.nodup_reverse]
      exact tells.keys_nodup
    refine ⟨_, realms_sweep_letGo present, tells.removeAll (w.letGo r) ?_ fun id gone => ?_⟩
    · unfold letGo
      rw [present]
      dsimp only
      split
      · exact keys.filter _
      · exact .nil
    · unfold letGo at gone
      rw [present] at gone
      dsimp only at gone
      split at gone
      · exact (List.mem_filter.mp gone).1
      · cases gone
  | other before same ih =>
    obtain ⟨x, present, tells⟩ := ih few
    rw [present, Option.map_some] at same
    obtain ⟨y, there, closures⟩ := Option.map_eq_some_iff.mp same
    exact ⟨y, there, closures ▸ tells⟩

end Chronicle

/-! Calls, whatever is nested in them -/

/-- What happened to the guest functions of a realm goes on from one world to a later one. Nothing is
registered on the way. -/
def Prolongs (r : RealmId) (w u : World) : Prop :=
  ∀ past, Chronicle r past w → ∃ later, minted later = [] ∧ Chronicle r (later ++ past) u

theorem Prolongs.of_same (same : (u.realms[r]?).map (·.closures) = (w.realms[r]?).map (·.closures)) :
    Prolongs r w u :=
  fun _ before => ⟨[], rfl, .other before same⟩

/-- A realm changes, but not its guest functions. -/
theorem Prolongs.withRealm (present : w.realms[s]? = some x) (same : y.closures = x.closures) :
    Prolongs r w (w.withRealm s y) := by
  refine .of_same ?_
  rw [realms_withRealm w s x y present]
  split
  · next here =>
    rw [here, present]
    exact congrArg some same
  · rfl

theorem Prolongs.trans {v : World} (first : Prolongs r u v) (rest : Prolongs r v w) :
    Prolongs r u w := by
  intro past before
  obtain ⟨later, none, between⟩ := first past before
  obtain ⟨last, none', after⟩ := rest _ between
  refine ⟨last ++ later, ?_, List.append_assoc last later past ▸ after⟩
  rw [ClosureTable.minted_append, none, none', List.append_nil]

theorem Prolongs.sweep (w : World) : Prolongs r w w.sweep :=
  fun _ before => ⟨_, ClosureTable.minted_freed _, .sweep before⟩

/-- A realm forgets a guest function, that one or another one. -/
theorem Prolongs.without (present : w.realms[s]? = some x) (id : FunctionId) :
    Prolongs r w (w.withRealm s (x.without id)) := by
  by_cases here : s = r
  · subst here
    exact fun past before => ⟨[_], rfl, .free before present id⟩
  · refine .of_same ?_
    rw [realms_withRealm w s x _ present, if_neg (Ne.symm here)]

/-- Calls of any kind come to such steps. -/
instance (r : RealmId) : Enduring (Prolongs r) where
  refl _ := .of_same rfl
  trans := .trans
  aside same := .of_same (by rw [same.realms])
  move present moves := by
    obtain same | ⟨id, rfl⟩ := moves.closures
    · exact .withRealm present same
    · exact .without present id
  sweep := .sweep
  slot present _ := .withRealm present rfl
  framed := by
    intro p s name args inside w u word done
    obtain ⟨x, outcome, v, present, _, run, last⟩ := exec_invokeImport_eq_ok w p s name args u word done
    have opened : Prolongs r w (w.withRealm s x.openFrame) := .withRealm present rfl
    have ran := inside _ v outcome run
    obtain ⟨_, _, closes, _⟩ := exec_bind_eq_ok _ _ _ _ _ last
    obtain ⟨z, there, _, _⟩ := exec_onRealm_eq_ok v s _ _ _ closes
    rw [exec_endImport v s z there] at last
    cases last
    have same : (z.closeFrame.answered outcome).closures = z.closures := by
      have closed : z.Turns (fun _ => True) z.closeFrame := z.turns_closeFrame
      cases outcome <;> exact closed.closures
    exact .trans opened (.trans ran (.withRealm there same))

/-! What a realm answers -/

/-- A call that threw a type error: its outcome, and the world after it. -/
def ThrowsTypeError (message : String) (after : Except Halt (Except Host.Value Raw) × World) : Prop :=
  ∃ o, after.1 = .ok (.error (.object o)) ∧ after.2.heap.get? o =
    some ((Host.Object.plain (some "TypeError")).set "message" (.string message))

/-- What is left to do when a guest function has come to its end. -/
def handedBack (r : RealmId) (values : List Guest.Value)
    (outcome : Except Host.Value Guest.Value) : Act (Except Host.Value Raw) := do
  values.forM releaseGuestQuietly
  match outcome with
  | .error v => return .error v
  | .ok v => return .ok (← encodeResult r v)

/-- How a realm answers for the numbers of its guest functions, after all that happened to them. -/
structure AnswersFor (w : World) (r : RealmId) (x : Realm) (past : List Event) : Prop where
  /-- No number was given out twice. -/
  distinct : (minted past).Nodup
  /-- Each number that was given out remains, or was ended by one free. -/
  accounted : (minted past).Perm (ended past ++ (remaining past).map Prod.fst)
  /-- A registration gets a number that was never given out. -/
  registers : ∀ f, ∃ id u, exec (registerFunction r f) w = (.ok id, u) ∧ id ∉ minted past ∧
    Chronicle r (.registered id f :: past) u
  /-- A free finds what remains under its number, and no other function goes with it. -/
  frees : ∀ id, ∃ known u, exec (freeFunction r id) w = (.ok known, u) ∧
    (known = true ↔ ∃ f, Remains (w.upToNow r past) id f) ∧
    Chronicle r (.freed id known :: w.upToNow r past) u ∧
    ∀ i, (u.realms[r]?).bind (·.closures.get? i) = if i = id then none else w.guestFunction? r i
  /-- The functions that remain are counted. -/
  counts : ∃ u, exec (functionCount r) w = (.ok (remaining (w.upToNow r past)).length, u) ∧
    Chronicle r (w.upToNow r past) u
  /-- The host lets go only of functions that had a function object. -/
  letsGo : ∀ id ∈ w.letGo r, ∃ o, w.IsFunctionObject r id o
  /-- A thread that does not own the realm runs nothing. -/
  refuses : ¬w.Owns r → ∀ p id raws,
    exec (callFunction p r id raws) w = (.error (.misuse (.foreignThreadAccess x.thread)), w)
  /-- A function that remains is the one that is run, on what its arguments stand for. -/
  runs : w.Owns r → ∀ id f raws, Remains (w.upToNow r past) id f → (x.table.lifting raws).whole →
    ∃ values u, exec (liftGuests r [] raws) w.sweep = (.ok (.ok values), u) ∧
      ∀ p, exec (callFunction p r id raws) w = goOn (exec (runBody p f values) u) (handedBack r values)
  /-- If an argument stands for nothing, a type error is thrown and no code is run: it does not matter
  who would answer the code. -/
  balks : w.Owns r → ∀ id f raws, Remains (w.upToNow r past) id f →
    (x.table.lifting raws).whole = false →
    ∃ e u after, exec (liftGuests r [] raws) w.sweep = (.ok (.error e), u) ∧
      ThrowsTypeError (u.heap.faultText e) after ∧ ∀ p, exec (callFunction p r id raws) w = after
  /-- If no function remains, a type error is thrown and no code is run. -/
  misses : w.Owns r → ∀ id raws, (∀ f, ¬Remains (w.upToNow r past) id f) →
    ∃ after, ThrowsTypeError (id.text ++ " was called after it was released") after ∧
      ∀ p, exec (callFunction p r id raws) w = after
  /-- Whatever is called, in any realm, and however deep: what is freed meanwhile is told as well. -/
  calls : ∀ (d : Nat) (s : RealmId) (id : FunctionId) (raws : List Raw)
    (outcome : Except Host.Value Raw) (u : World),
    exec (callFunction (performer d) s id raws) w = (.ok outcome, u) →
      ∃ later, minted later = [] ∧ Chronicle r (later ++ past) u
  code : ∀ (d : Nat) (α : Type) (code : Code α) (a : α) (u : World),
    exec (code.exec (performer d)) w = (.ok a, u) →
      ∃ later, minted later = [] ∧ Chronicle r (later ++ past) u

theorem throws_throwTypeError (message : String) (w : World) :
    ThrowsTypeError message (exec (throwTypeError message) w) := by
  refine ⟨w.heap.objects.size, rfl, ?_⟩
  show (w.heap.alloc _).2.get? _ = _
  rw [Host.Heap.get?_alloc, if_pos rfl]

theorem throws_throwFault (e : Fault) (w : World) :
    ThrowsTypeError (w.heap.faultText e) (exec (throwFault e) w) := by
  have told : exec (faultText e) w = (.ok (w.heap.faultText e), w) := rfl
  rw [throwFault, exec_bind, told, goOn_ok]
  exact throws_throwTypeError _ w

namespace Chronicle

variable {f : Guest.Function}

/-- Where a sweep leads, the table tells what happened up to then. -/
theorem swept (chronicle : Chronicle r past w) (few : (minted past).length ≤ 2 ^ 32)
    (present : w.realms[r]? = some x) :
    ∃ t, w.sweep.realms[r]? = some { x with closures := t } ∧ t.Tells (w.upToNow r past) := by
  obtain ⟨y, there, tells⟩ := chronicle.sweep.tells (minted_upToNow w r past ▸ few)
  obtain ⟨t, swept⟩ := w.realms_sweep r x present
  obtain rfl := Option.some.inj (swept.symm.trans there)
  exact ⟨t, swept, tells⟩

/-- A number stands for the function that remains under it. -/
theorem guestFunction?_eq_some_iff (chronicle : Chronicle r past w)
    (few : (minted past).length ≤ 2 ^ 32) :
    w.guestFunction? r id = some f ↔ Remains (w.upToNow r past) id f := by
  obtain ⟨x, present, _⟩ := chronicle.tells few
  obtain ⟨t, swept, tells⟩ := chronicle.swept few present
  rw [guestFunction?, swept, Option.bind_some]
  exact tells.get?_eq_some_iff

theorem exec_registerFunction (chronicle : Chronicle r past w) (few : (minted past).length < 2 ^ 32)
    (f : Guest.Function) : ∃ id u, exec (registerFunction r f) w = (.ok id, u) ∧ id ∉ minted past ∧
      Chronicle r (.registered id f :: past) u := by
  obtain ⟨x, present, tells⟩ := chronicle.tells (Nat.le_of_lt few)
  exact ⟨_, _, exec_onRealm w r x present _, tells.fresh few, chronicle.register present f⟩

theorem exec_freeFunction (chronicle : Chronicle r past w) (few : (minted past).length ≤ 2 ^ 32)
    (id : FunctionId) : ∃ known u, exec (freeFunction r id) w = (.ok known, u) ∧
      (known = true ↔ ∃ f, Remains (w.upToNow r past) id f) ∧
      Chronicle r (.freed id known :: w.upToNow r past) u ∧
      ∀ i, (u.realms[r]?).bind (·.closures.get? i) =
        if i = id then none else w.guestFunction? r i := by
  obtain ⟨x, present, _⟩ := chronicle.tells few
  obtain ⟨t, swept, tells⟩ := chronicle.swept few present
  have ran : exec Act.sweep w = (.ok (), w.sweep) := rfl
  refine ⟨(t.remove id).1, w.sweep.withRealm r ({ x with closures := t }.without id), ?_,
    tells.isSome_get?_iff, chronicle.sweep.free swept id, fun i => ?_⟩
  · rw [freeFunction, exec_bind, ran, goOn_ok, exec_onRealm _ r _ swept]
    rfl
  rw [realm_withRealm _ r _ _ swept, Option.bind_some, guestFunction?, swept, Option.bind_some]
  show (t.remove id).2.get? i = if i = id then none else t.get? i
  exact t.get?_without i id

theorem exec_functionCount (chronicle : Chronicle r past w) (few : (minted past).length ≤ 2 ^ 32) :
    ∃ u, exec (functionCount r) w = (.ok (remaining (w.upToNow r past)).length, u) ∧
      Chronicle r (w.upToNow r past) u := by
  obtain ⟨x, present, _⟩ := chronicle.tells few
  obtain ⟨t, swept, tells⟩ := chronicle.swept few present
  refine ⟨w.sweep, ?_, chronicle.sweep⟩
  have ran : exec Act.sweep w = (.ok (), w.sweep) := rfl
  rw [functionCount, exec_bind, ran, goOn_ok, exec_bind, exec_realm _ r _ swept, goOn_ok, exec_pure,
    ClosureTable.size, tells.entries, List.length_reverse]

theorem exec_callFunction_foreign (present : w.realms[r]? = some x) (foreign : ¬w.Owns r)
    (p : Performer) (id : FunctionId) (raws : List Raw) :
    exec (callFunction p r id raws) w = (.error (.misuse (.foreignThreadAccess x.thread)), w) := by
  have other : x.owner ≠ w.here := fun owner => foreign ⟨x, present, owner⟩
  rw [callFunction, exec_bind, exec_assertOwner_foreign w r x present other, goOn_error]

section

variable (chronicle : Chronicle r past w) (few : (minted past).length ≤ 2 ^ 32)
  (present : w.realms[r]? = some x) (owner : x.owner = w.here) (raws : List Raw)

include chronicle few present owner

/-- A call through a number that a function is left under runs that function. -/
theorem exec_callFunction_whole (remains : Remains (w.upToNow r past) id f)
    (whole : (x.table.lifting raws).whole) :
    ∃ values u, exec (liftGuests r [] raws) w.sweep = (.ok (.ok values), u) ∧
      ∀ p, exec (callFunction p r id raws) w =
        goOn (exec (runBody p f values) u) (handedBack r values) := by
  obtain ⟨t, swept, _⟩ := chronicle.swept few present
  have known := (chronicle.guestFunction?_eq_some_iff few).mpr remains
  have stays : x.owner = w.sweep.here := owner.trans w.here_sweep.symm
  obtain ⟨values, lifted, _⟩ :=
    exec_liftGuests_whole raws x.table whole [] w.sweep { x with closures := t } rfl swept stays
  refine ⟨_, _, lifted, fun p => ?_⟩
  rw [exec_callFunction id raws w x present owner, known]
  dsimp only
  rw [lifted, goOn_ok, exec_bind]
  rfl

/-- At an argument that stands for nothing the function is not run. -/
theorem exec_callFunction_partly (remains : Remains (w.upToNow r past) id f)
    (partly : (x.table.lifting raws).whole = false) :
    ∃ e u after, exec (liftGuests r [] raws) w.sweep = (.ok (.error e), u) ∧
      ThrowsTypeError (u.heap.faultText e) after ∧ ∀ p, exec (callFunction p r id raws) w = after := by
  obtain ⟨t, swept, _⟩ := chronicle.swept few present
  have known := (chronicle.guestFunction?_eq_some_iff few).mpr remains
  have stays : x.owner = w.sweep.here := owner.trans w.here_sweep.symm
  obtain ⟨e, u, lifted, _⟩ := exec_liftGuests_partly raws x.table partly [] [] rfl w.sweep
    { x with closures := t } rfl swept stays
  refine ⟨e, u, _, lifted, throws_throwFault e u, fun p => ?_⟩
  rw [exec_callFunction id raws w x present owner, known]
  dsimp only
  rw [lifted, goOn_ok]

/-- A call through a number that no function is left under finds none. -/
theorem exec_callFunction_missing (none : ∀ f, ¬Remains (w.upToNow r past) id f) :
    ∃ after, ThrowsTypeError (id.text ++ " was called after it was released") after ∧
      ∀ p, exec (callFunction p r id raws) w = after := by
  have unknown : w.guestFunction? r id = .none := by
    cases found : w.guestFunction? r id with
    | none => rfl
    | some f => exact absurd ((chronicle.guestFunction?_eq_some_iff few).mp found) (none f)
  refine ⟨_, throws_throwTypeError _ w.sweep, fun p => ?_⟩
  rw [exec_callFunction id raws w x present owner, unknown]

end

/-- A realm answers for the numbers of its guest functions, however they were registered and freed: no
number is given out twice, a free finds the function that is left under its number, and so does a
call. -/
theorem answersFor (chronicle : Chronicle r past w) (few : (minted past).length < 2 ^ 32) :
    ∃ x, w.realms[r]? = some x ∧ w.AnswersFor r x past := by
  have most := Nat.le_of_lt few
  obtain ⟨x, present, tells⟩ := chronicle.tells most
  have owned (owns : w.Owns r) : x.owner = w.here := by
    obtain ⟨y, there, owner⟩ := owns
    obtain rfl := Option.some.inj (present.symm.trans there)
    exact owner
  exact ⟨x, present, {
    distinct := tells.distinct
    accounted := tells.accounted
    registers := chronicle.exec_registerFunction few
    frees := chronicle.exec_freeFunction most
    counts := chronicle.exec_functionCount most
    letsGo := fun _ => isFunctionObject_of_letGo
    refuses := exec_callFunction_foreign present
    runs := fun owns _ _ raws => chronicle.exec_callFunction_whole most present (owned owns) raws
    balks := fun owns _ _ raws => chronicle.exec_callFunction_partly most present (owned owns) raws
    misses := fun owns _ raws => chronicle.exec_callFunction_missing most present (owned owns) raws
    calls := fun d s id raws outcome u called => Keeps.callFunction (R := Prolongs r)
      (Keeps.performer d) s id raws w u outcome called past chronicle
    code := fun d _ code a u ran => Keeps.code (R := Prolongs r) (Keeps.performer d) code w u a ran
      past chronicle }⟩

/-- The lodging after a function was registered. -/
def lodged : World :=
  Deed.lodging.withRealm 0 { Realm.blank with closures := (Realm.blank.closures.insert Deed.idle).2 }

theorem chronicle_lodged : Chronicle 0 [.registered ⟨1⟩ Deed.idle] lodged := by
  have new : Chronicle 0 [] Deed.lodging := .start (x := .blank) rfl rfl
  exact new.register (x := .blank) rfl Deed.idle

/-- A function is registered, freed and registered again. -/
def relodging : List Event :=
  [.registered ⟨2⟩ Deed.idle, .freed ⟨1⟩ true, .registered ⟨1⟩ Deed.idle]

/-- The lodging after that. -/
def relodged : World :=
  Deed.lodging.withRealm 0 { Realm.blank with closures := ⟨3, [(⟨2⟩, Deed.idle)]⟩ }

theorem chronicle_relodged : Chronicle 0 relodging relodged := by
  have freed := chronicle_lodged.free rfl ⟨1⟩
  exact freed.register rfl Deed.idle

/-- Where no function object was made, none is let go of. -/
theorem upToNow_lodging (x : Realm) (past : List Event) :
    (Deed.lodging.withRealm 0 x).upToNow 0 past = past := by
  have none : (Deed.lodging.withRealm 0 x).letGo 0 = [] := by
    refine List.eq_nil_iff_forall_not_mem.mpr fun id gone => ?_
    obtain ⟨o, y, there, kind⟩ := isFunctionObject_of_letGo gone
    obtain ⟨inside, rfl⟩ := Array.getElem?_eq_some_iff.mp there
    obtain rfl := Nat.lt_one_iff.mp inside
    cases kind
  rw [upToNow, none]
  rfl

/-- A free that comes late finds nothing, though a function was registered since, and a call that comes
late throws. -/
theorem answersFor_after_late_free : Chronicle 0 relodging relodged ∧
    (∃ u, exec (freeFunction 0 ⟨1⟩) relodged = (.ok false, u)) ∧
    (∃ u, exec (freeFunction 0 ⟨2⟩) relodged = (.ok true, u)) ∧
    (∃ u, exec (functionCount 0) relodged = (.ok 1, u)) ∧
    ∀ p raws, ThrowsTypeError "host-func#1 was called after it was released"
      (exec (callFunction p 0 ⟨1⟩ raws) relodged) := by
  obtain ⟨x, present, answers⟩ := chronicle_relodged.answersFor (by decide)
  have now : relodged.upToNow 0 relodging = relodging := upToNow_lodging _ _
  have left (id : FunctionId) : (∃ f, Remains (relodged.upToNow 0 relodging) id f) ↔ id = ⟨2⟩ := by
    have one : remaining relodging = [(⟨2⟩, Deed.idle)] := rfl
    simp [now, ← ClosureTable.mem_remaining_iff, one]
  refine ⟨chronicle_relodged, ?_, ?_, ?_, fun p raws => ?_⟩
  · obtain ⟨known, u, freed, found, _⟩ := answers.frees ⟨1⟩
    rw [left] at found
    cases known with
    | false => exact ⟨u, freed⟩
    | true => cases found.mp rfl
  · obtain ⟨known, u, freed, found, _⟩ := answers.frees ⟨2⟩
    rw [left] at found
    exact ⟨u, found.mpr rfl ▸ freed⟩
  · obtain ⟨u, counted, _⟩ := answers.counts
    rw [now] at counted
    exact ⟨u, counted⟩
  · have gone (f : Guest.Function) : ¬Remains (relodged.upToNow 0 relodging) ⟨1⟩ f := fun remains => by
      cases (left ⟨1⟩).mp ⟨f, remains⟩
    obtain ⟨after, throws, called⟩ := answers.misses ⟨_, rfl, rfl⟩ ⟨1⟩ raws gone
    rw [called p]
    exact throws

/-- A function that is left under its number, and that would return at once, is not run if it is called
on a handle that stands for nothing or by another thread. -/
theorem idle_not_run : Chronicle 0 [.registered ⟨1⟩ Deed.idle] lodged ∧
    Remains (lodged.upToNow 0 [.registered ⟨1⟩ Deed.idle]) ⟨1⟩ Deed.idle ∧
    (∃ message, ∀ p, ThrowsTypeError message
      (exec (callFunction p 0 ⟨1⟩ [.ofHandle .string ⟨9⟩]) lodged)) ∧
    ∀ p, (exec (callFunction p 0 ⟨1⟩ []) { lodged with here := 1 }).1 =
      .error (.misuse (.foreignThreadAccess ⟨0⟩)) := by
  have remains : Remains (lodged.upToNow 0 [.registered ⟨1⟩ Deed.idle]) ⟨1⟩ Deed.idle := by
    rw [lodged, upToNow_lodging]
    exact ⟨[], [], rfl, fun _ => List.not_mem_nil⟩
  have stray : (Realm.blank.table.lifting [.ofHandle .string ⟨9⟩]).whole = false := rfl
  refine ⟨chronicle_lodged, remains, ?_, fun p => ?_⟩
  · obtain ⟨e, u, after, _, throws, called⟩ := chronicle_lodged.exec_callFunction_partly (by decide)
      rfl rfl [.ofHandle .string ⟨9⟩] remains stray
    refine ⟨u.heap.faultText e, fun p => ?_⟩
    rw [called p]
    exact throws
  · have foreign : ¬World.Owns { lodged with here := 1 } 0 := by
      rintro ⟨x, present, owner⟩
      cases present
      cases owner
    rw [exec_callFunction_foreign (w := { lodged with here := 1 }) rfl foreign]
    rfl

end Chronicle

end World

end Membrane
