import Mathlib.Data.Set.Card
import Membrane.Proofs.Table.Accounts
import Membrane.Proofs.Table.Placement
import Membrane.Proofs.Table.Twins
/-!
Runs of sparse slots, round after round of their counter. While two dynamic handles are left, the
loop that looks for the next counter ends, however often the counter has gone round. In the first
round the handles go up, so none of them comes back.
-/

set_option autoImplicit false

namespace Membrane

namespace SparseSlots

/-- The loop of an allocation as it runs, with no bound on its rounds: from a counter it goes on
until the counter stands at a handle that is not taken. -/
inductive Search (entries : Std.HashMap UInt32 Entry) : UInt32 → UInt32 → Prop
  | found {n : UInt32} (free : successor n ∉ entries) : Search entries n (successor n)
  | onward {n m : UInt32} (taken : successor n ∈ entries) (rest : Search entries (successor n) m) :
      Search entries n m

/-- The live handles but the reserved ones. -/
def dynamicHandles (s : SparseSlots) : Set Handle := { h | 2 ≤ h.raw.toNat ∧ (s.get? h).isSome }

/-- Nothing was handed out yet. A reserved handle may have an entry. -/
structure Fresh (s : SparseSlots) : Prop where
  next : s.next = Handle.firstDynamic
  vacant : ∀ h : Handle, 2 ≤ h.raw.toNat → s.get? h = none

/-- Slots that a run leads to, with the handles handed out on the way, the last first. Before each
allocation two dynamic handles are left. -/
inductive Run (start : SparseSlots) : List Handle → SparseSlots → Prop
  | start : Run start [] start
  | allocate {given : List Handle} {s : SparseSlots} (run : Run start given s)
      (room : s.dynamicHandles.ncard ≤ 2 ^ 32 - 4) (e : Entry) :
      Run start ((s.allocate e).1 :: given) (s.allocate e).2
  | edit {given : List Handle} {s : SparseSlots} (run : Run start given s) (h : Handle)
      (former e : Entry) (taken : s.get? h = some former) : Run start given (s.install h e)
  | remove {given : List Handle} {s : SparseSlots} (run : Run start given s) (h : Handle) :
      Run start given (s.remove h)

variable {start s s' : SparseSlots} {past given : List Handle}

/-- The loop ends at one place at most. -/
theorem Search.unique {entries : Std.HashMap UInt32 Entry} {n m m' : UInt32}
    (search : Search entries n m) (other : Search entries n m') : m = m' := by
  induction search with
  | found free =>
    cases other with
    | found => rfl
    | onward taken => exact absurd taken free
  | onward taken rest ih =>
    cases other with
    | found free => exact absurd taken free
    | onward _ rest' => exact ih rest'

/-- Where the bounded search ends at a handle that is not taken, the loop ends there too. -/
theorem search_nextFree (entries : Std.HashMap UInt32 Entry) (fuel : Nat) (n : UInt32)
    (vacant : nextFree entries (fuel + 1) n ∉ entries) :
    Search entries n (nextFree entries (fuel + 1) n) := by
  induction fuel generalizing n with
  | zero =>
    rw [nextFree] at vacant ⊢
    split at vacant
    case isTrue taken => exact absurd (Std.HashMap.mem_iff_contains.mpr taken) vacant
    case isFalse taken =>
      rw [if_neg taken]
      exact .found vacant
  | succ fuel ih =>
    rw [nextFree] at vacant ⊢
    split at vacant
    case isTrue taken =>
      rw [if_pos taken]
      exact .onward (Std.HashMap.mem_iff_contains.mpr taken) (ih (successor n) vacant)
    case isFalse taken =>
      rw [if_neg taken]
      exact .found vacant

/-- When only the counter is left, all the handles that it goes through until it is back are live. -/
theorem ncard_of_exhausted (s : SparseSlots) (dynamic : 2 ≤ s.next.toNat) (full : s.Exhausted) :
    2 ^ 32 - 3 ≤ s.dynamicHandles.ncard := by
  let behind : Nat → Handle := fun i => ⟨successor^[i + 1] s.next⟩
  have apart : Set.InjOn behind (Finset.range (2 ^ 32 - 3)) := by
    intro i hi j hj same
    rw [Finset.mem_coe, Finset.mem_range] at hi hj
    have equal := successor_iterate_injective s.next dynamic (i + 1) (j + 1)
      (by rw [roundLength]; omega) (by rw [roundLength]; omega) (congrArg Handle.raw same)
    omega
  have within : ((Finset.range (2 ^ 32 - 3)).image behind : Set Handle) ⊆ s.dynamicHandles := by
    intro h member
    obtain ⟨i, inside, rfl⟩ := Finset.mem_image.mp (Finset.mem_coe.mp member)
    rw [Finset.mem_range] at inside
    have target : 2 ≤ (successor^[i + 1] s.next).toNat := by
      rw [successor_iterate_toNat s.next dynamic]
      omega
    have other : successor^[i + 1] s.next ≠ s.next := fun back => by
      have round := successor_iterate_injective s.next dynamic (i + 1) 0
        (by rw [roundLength]; omega) (by rw [roundLength]; omega) back
      omega
    exact ⟨target, (s.mem_entries (behind i)).mp (full _ target other)⟩
  have count := Set.ncard_le_ncard within (Set.toFinite _)
  rwa [Set.ncard_coe_finset, Finset.card_image_of_injOn apart, Finset.card_range] at count

theorem not_exhausted (s : SparseSlots) (dynamic : 2 ≤ s.next.toNat)
    (room : s.dynamicHandles.ncard ≤ 2 ^ 32 - 4) : ¬ s.Exhausted := by
  intro full
  have count := ncard_of_exhausted s dynamic full
  omega

theorem Run.trans {later : List Handle} (before : Run start past s) (after : Run s later s') :
    Run start (later ++ past) s' := by
  induction after with
  | start => exact before
  | allocate _ room e ih => exact ih.allocate room e
  | edit _ h former e taken ih => exact ih.edit h former e taken
  | remove _ h ih => exact ih.remove h

/-- The counter stands at a dynamic handle that is not taken. -/
structure Poised (s : SparseSlots) : Prop where
  dynamic : 2 ≤ s.next.toNat
  vacant : s.next ∉ s.entries

theorem Poised.allocate (poised : s.Poised) (room : s.dynamicHandles.ncard ≤ 2 ^ 32 - 4)
    (e : Entry) : (s.allocate e).2.Poised := by
  obtain ⟨vacant, moved⟩ :=
    s.nextFree_vacant poised.dynamic (s.not_exhausted poised.dynamic room)
  refine ⟨dynamic_nextFree _ _ _ poised.dynamic, ?_⟩
  simp only [SparseSlots.allocate, Std.HashMap.mem_insert, beq_iff_eq, vacant, or_false]
  exact fun same => moved same.symm

theorem Fresh.poised (fresh : start.Fresh) : start.Poised := by
  have dynamic : 2 ≤ start.next.toNat := by rw [fresh.next]; exact le_refl 2
  refine ⟨dynamic, fun taken => ?_⟩
  have live := (start.mem_entries ⟨start.next⟩).mp taken
  rw [fresh.vacant ⟨start.next⟩ dynamic] at live
  cases live

theorem Run.poised (run : Run start given s) (fresh : start.Fresh) : s.Poised := by
  induction run with
  | start => exact fresh.poised
  | allocate _ room e ih => exact ih.allocate room e
  | edit _ h former e taken ih =>
    refine ⟨ih.dynamic, fun written => ?_⟩
    rw [SparseSlots.install, Std.HashMap.mem_insert, beq_iff_eq] at written
    rcases written with here | former
    · exact ih.vacant (here ▸ (mem_entries _ h).mpr (taken ▸ rfl))
    · exact ih.vacant former
  | remove _ h ih =>
    exact ⟨ih.dynamic, fun left => ih.vacant (Std.HashMap.mem_of_mem_erase left)⟩

/-- What holds of a run while the counter is in its first round. The last handle of the round is
handed out when the counter goes back to the first one. -/
structure Rising (given : List Handle) (s : SparseSlots) : Prop where
  ordered : given.Pairwise fun later earlier => earlier.raw < later.raw
  live : ∀ h : Handle, 2 ≤ h.raw.toNat → (s.get? h).isSome → h ∈ given
  counter : given.length < roundLength → s.next.toNat = 2 + given.length
  below : given.length < roundLength → ∀ h ∈ given, h.raw < s.next

theorem Fresh.rising (fresh : start.Fresh) : Rising [] start where
  ordered := .nil
  live h dynamic taken := by
    rw [fresh.vacant h dynamic] at taken
    cases taken
  counter _ := by
    rw [fresh.next]
    rfl
  below _ h none := by cases none

/-- As long as the round is not over the handle behind the counter is free, so the counter goes on
by one. -/
theorem Rising.next_allocate (rising : Rising given s) (room : given.length + 1 < roundLength)
    (e : Entry) : (s.allocate e).2.next.toNat = s.next.toNat + 1 := by
  have here := rising.counter (by omega)
  have value : (successor s.next).toNat = s.next.toNat + 1 := by
    rw [successor_toNat _ (by omega), here, Nat.mod_eq_of_lt (by omega)]
    omega
  have free : successor s.next ∉ s.entries := fun taken => by
    have dynamic : 2 ≤ (successor s.next).toNat := dynamic_successor s.next
    have listed := rising.live ⟨successor s.next⟩ dynamic ((s.mem_entries ⟨_⟩).mp taken)
    have lower : (successor s.next).toNat < s.next.toNat :=
      UInt32.lt_iff_toNat_lt.mp (rising.below (by omega) _ listed)
    omega
  have found := nextFree_eq s.entries (s.entries.size + 1) s.next 0 (by omega) free
    (fun i none => absurd none (Nat.not_lt_zero i))
  rw [SparseSlots.allocate, found]
  exact value

theorem Rising.allocate (rising : Rising given s) (room : given.length < roundLength) (e : Entry) :
    Rising ((s.allocate e).1 :: given) (s.allocate e).2 where
  ordered := List.pairwise_cons.mpr ⟨rising.below room, rising.ordered⟩
  live h dynamic taken := by
    rw [get?_allocate, Function.update_apply] at taken
    split at taken
    case isTrue same => exact same ▸ List.mem_cons_self
    case isFalse => exact List.mem_cons_of_mem _ (rising.live h dynamic taken)
  counter more := by
    rw [List.length_cons] at more ⊢
    rw [rising.next_allocate more, rising.counter room, Nat.add_assoc]
  below more h listed := by
    have next := rising.next_allocate (e := e) (by rwa [List.length_cons] at more)
    rw [UInt32.lt_iff_toNat_lt, next]
    rcases List.mem_cons.mp listed with rfl | former
    · exact Nat.lt_succ_self _
    · exact Nat.lt_succ_of_lt (UInt32.lt_iff_toNat_lt.mp (rising.below room h former))

/-- A run from slots in their first round stays in it for as long as there are handles. -/
theorem Run.rising (run : Run start given s) (before : Rising past start)
    (few : (given ++ past).length ≤ roundLength) : Rising (given ++ past) s := by
  induction run with
  | start => exact before
  | allocate _ _ e ih =>
    rw [List.cons_append, List.length_cons] at few
    exact (ih (by omega)).allocate (by omega) e
  | edit _ h former e taken ih =>
    have rising := ih few
    refine ⟨rising.ordered, fun k dynamic live => ?_, rising.counter, rising.below⟩
    rw [get?_install, Function.update_apply] at live
    split at live
    case isTrue same => exact rising.live k dynamic (same ▸ taken ▸ rfl)
    case isFalse => exact rising.live k dynamic live
  | remove _ h ih =>
    have rising := ih few
    refine ⟨rising.ordered, fun k dynamic live => ?_, rising.counter, rising.below⟩
    rw [get?_remove, Function.update_apply] at live
    split at live
    case isTrue => cases live
    case isFalse => exact rising.live k dynamic live

/-- A handle of the first round that is not live any more stays so: all handles that are handed out
in the round after it are greater. -/
theorem Run.stays_dead (run : Run start given s) (before : Rising past start)
    (few : (given ++ past).length ≤ roundLength) (h : Handle) (listed : h ∈ past)
    (dead : start.get? h = none) : s.get? h = none := by
  induction run with
  | start => exact dead
  | allocate run _ e ih =>
    rw [List.cons_append, List.length_cons] at few
    have rising := run.rising before (by omega)
    have lower := rising.below (by omega) h (List.mem_append_right _ listed)
    rw [get?_allocate, Function.update_of_ne]
    · exact ih (by omega)
    · rintro rfl
      exact UInt32.lt_irrefl _ lower
  | edit _ k former e taken ih =>
    rw [get?_install, Function.update_of_ne]
    · exact ih few
    · rintro rfl
      rw [ih few] at taken
      cases taken
  | remove _ k ih =>
    rw [get?_remove, Function.update_apply, ih few, ite_self]

theorem ncard_dynamicHandles_le (s : SparseSlots) : s.dynamicHandles.ncard ≤ s.entries.size := by
  have all : s.dynamicHandles ⊆ (Slots.sparse s).handles := fun _ member => member.2
  have count := Set.ncard_le_ncard all (Set.toFinite _)
  rwa [← Slots.size_sparse] at count

theorem empty_fresh : empty.Fresh := ⟨rfl, fun _ _ => Std.HashMap.getElem?_empty⟩

end SparseSlots

namespace RefTable

/-- The handle that a call takes from the slots: one where a value is retained of which nothing is
held. -/
def Call.drawn (t : RefTable) : Call → List Handle
  | .retain v => if (t.held? v.key).isNone then [(t.retain v).1] else []
  | .retainHandle _ | .release _ => []

/-- Tables that calls lead to, whatever the counts come to, with the handles handed out on the way.
Of the dynamic handles two are left before one is handed out. -/
inductive Run (start : RefTable) : List Handle → RefTable → Prop
  | start : Run start [] start
  | call {given : List Handle} {t : RefTable} (run : Run start given t) (c : Call)
      (room : c.drawn t ≠ [] → t.dynamicHandles.ncard ≤ 2 ^ 32 - 4) :
      Run start (c.drawn t ++ given) (c.perform t).2

variable {t : RefTable} {s : SparseSlots}

theorem dynamicHandles_sparse (sparse : t.slots = .sparse s) : t.dynamicHandles = s.dynamicHandles := by
  ext h
  show _ ∧ t.contains h ↔ _ ∧ _
  rw [contains_eq, find?, sparse]
  rfl

/-- Another count is an edit of the slots. -/
theorem run_recount (sparse : t.slots = .sparse s) (h : Handle) (e : Entry) (n : UInt32)
    (live : t.find? h = some e) :
    ∃ s', (t.recount h n).slots = .sparse s' ∧ SparseSlots.Run s [] s' := by
  rw [find?, sparse] at live
  refine ⟨s.install h { e with refcount := n }, ?_, SparseSlots.Run.start.edit h e _ live⟩
  rw [recount, sparse, Slots.setRefcount, live]

theorem Call.run_slots (sparse : t.slots = .sparse s) (c : Call)
    (room : c.drawn t ≠ [] → t.dynamicHandles.ncard ≤ 2 ^ 32 - 4) :
    ∃ s', (c.perform t).2.slots = .sparse s' ∧ SparseSlots.Run s (c.drawn t) s' := by
  cases c with
  | retain v =>
    cases held : t.held? v.key with
    | none =>
      have new : (t.index[v.key]?.bind fun h => (t.find? h).map (h, ·)) = none := by
        rw [held?, Option.bind_eq_none_iff] at held
        rw [Option.bind_eq_none_iff]
        exact fun h known => by rw [held h known, Option.map_none]
      have done : t.retain v = ((t.slots.allocate ⟨v, 1⟩).1, { t with
          slots := (t.slots.allocate ⟨v, 1⟩).2
          index := t.index.insert v.key (t.slots.allocate ⟨v, 1⟩).1 }) := by
        simp only [RefTable.retain, new]
      have drawn : (Call.retain v).drawn t = [(s.allocate ⟨v, 1⟩).1] := by
        simp only [Call.drawn, held, done, sparse, Option.isNone_none, ↓reduceIte]
        rfl
      have few := room (by rw [drawn]; exact List.cons_ne_nil _ _)
      rw [dynamicHandles_sparse sparse] at few
      refine ⟨(s.allocate ⟨v, 1⟩).2, ?_, drawn ▸ SparseSlots.Run.start.allocate few ⟨v, 1⟩⟩
      show (t.retain v).2.slots = _
      rw [done, sparse]
      rfl
    | some e =>
      obtain ⟨h, known, live⟩ := Option.bind_eq_some_iff.mp held
      have drawn : (Call.retain v).drawn t = [] := by
        simp only [Call.drawn, held, Option.isNone_some, Bool.false_eq_true, ↓reduceIte]
      have done : (t.retain v).2 = t.recount h (e.refcount + 1) := by
        simp only [RefTable.retain, known, Option.bind_some, live, Option.map_some]
        rfl
      rw [drawn]
      show ∃ s', (t.retain v).2.slots = _ ∧ _
      rw [done]
      exact run_recount sparse h e _ live
  | retainHandle h =>
    cases live : t.find? h with
    | none =>
      simp only [Call.perform, retainHandle_of_dead h live]
      exact ⟨s, sparse, .start⟩
    | some e =>
      simp only [Call.perform, retainHandle_of_live h e live]
      exact run_recount sparse h e _ live
  | release h =>
    cases live : t.find? h with
    | none =>
      simp only [Call.perform, release_of_dead h live]
      exact ⟨s, sparse, .start⟩
    | some e =>
      by_cases stays : 1 < e.refcount ∨ h = .globalObject
      · simp only [Call.perform, release_of_shared h e live stays]
        exact run_recount sparse h e _ live
      · refine ⟨s.remove h, ?_, SparseSlots.Run.start.remove h⟩
        simp only [Call.perform, RefTable.release, live, stays, ↓reduceIte, sparse]
        rfl

/-- Calls on a table with sparse slots are a run of its slots. -/
theorem Run.slots {start : RefTable} {given : List Handle} (run : Run start given t)
    (sparse : start.slots = .sparse s) :
    ∃ s', t.slots = .sparse s' ∧ SparseSlots.Run s given s' := by
  induction run with
  | start => exact ⟨s, sparse, .start⟩
  | call run c room ih =>
    obtain ⟨s', now, before⟩ := ih
    obtain ⟨s'', next, step⟩ := c.run_slots now room
    exact ⟨s'', next, before.trans step⟩

theorem create_fresh (g : Host.Value) :
    ∃ s, (create .sparse g).slots = .sparse s ∧ s.Fresh := by
  refine ⟨SparseSlots.empty.install .globalObject ⟨g, 1⟩, rfl, rfl, fun h dynamic => ?_⟩
  have other : h ≠ .globalObject := by
    rintro rfl
    exact absurd dynamic (by decide)
  rw [SparseSlots.get?_install, Function.update_of_ne other]
  exact SparseSlots.empty_fresh.vacant h dynamic

end RefTable

namespace SparseSlots

/-- Runs of any length. While two dynamic handles are left the loop of an allocation ends, and it
leaves the counter at a dynamic handle that is not live; the handle handed out is dynamic and was not
live. As long as no more handles were handed out than there are, they went up; a handle that was
given back then stays out of use, and so it does in a table, whatever is asked of it. -/
theorem search_ends_and_handles_rise (start : SparseSlots) (given : List Handle) (s : SparseSlots)
    (fresh : start.Fresh) (run : Run start given s) :
    (s.dynamicHandles.ncard ≤ 2 ^ 32 - 4 → ∀ e,
      Search s.entries s.next (s.allocate e).2.next ∧
      2 ≤ (s.allocate e).1.raw.toNat ∧ s.get? (s.allocate e).1 = none ∧
      2 ≤ (s.allocate e).2.next.toNat ∧
      (s.allocate e).2.get? ⟨(s.allocate e).2.next⟩ = none) ∧
    (given.length ≤ 2 ^ 32 - 2 → given.Pairwise fun later earlier => earlier.raw < later.raw) ∧
    (∀ h ∈ given, s.get? h = none → ∀ later s', Run s later s' →
      (later ++ given).length ≤ 2 ^ 32 - 2 → s'.get? h = none) ∧
    (∀ g past t, RefTable.Run (.create .sparse g) past t → ∀ h ∈ past, t.contains h = false →
      ∀ later t', RefTable.Run t later t' → (later ++ past).length ≤ 2 ^ 32 - 2 →
        t'.get h = .error (.invalidReference h .read) ∧
        t'.release h = .error (.invalidReference h .release) ∧
        t'.retainHandle h = .error (.invalidReference h .retain)) := by
  have poised := run.poised fresh
  refine ⟨fun room e => ?_, fun few => ?_, fun h listed dead later s' on few => ?_, ?_⟩
  · have after := poised.allocate room e
    obtain ⟨vacant, _⟩ :=
      s.nextFree_vacant poised.dynamic (s.not_exhausted poised.dynamic room)
    exact ⟨search_nextFree _ _ _ vacant, poised.dynamic,
      Std.HashMap.getElem?_eq_none poised.vacant, after.dynamic,
      Std.HashMap.getElem?_eq_none after.vacant⟩
  · have rising := run.rising fresh.rising (by rwa [List.append_nil])
    rw [List.append_nil] at rising
    exact rising.ordered
  · have rising := run.rising fresh.rising (by
      rw [List.append_nil]
      rw [List.length_append] at few
      exact le_trans (Nat.le_add_left _ _) few)
    rw [List.append_nil] at rising
    exact on.stays_dead rising few h listed dead
  · intro g past t first h listed dead later t' on few
    obtain ⟨s₀, sparse, fresh⟩ := RefTable.create_fresh g
    obtain ⟨s₁, middle, before⟩ := first.slots sparse
    obtain ⟨s₂, last, after⟩ := on.slots middle
    have rising := before.rising fresh.rising (by
      rw [List.append_nil]
      rw [List.length_append] at few
      exact le_trans (Nat.le_add_left _ _) few)
    rw [List.append_nil] at rising
    have gone : s₁.get? h = none := by
      rw [RefTable.contains_eq, RefTable.find?, middle] at dead
      exact Option.isNone_iff_eq_none.mp (Option.isSome_eq_false_iff.mp dead)
    have absent : t'.find? h = none := by
      rw [RefTable.find?, last]
      exact after.stays_dead rising few h listed gone
    refine ⟨?_, RefTable.release_of_dead h absent, RefTable.retainHandle_of_dead h absent⟩
    rw [RefTable.get, absent]

/-- A handle is given back and the next one is handed out. -/
theorem search_ends_and_handles_rise_once :
    let s := ((empty.allocate ⟨.string "a", 1⟩).2.remove ⟨2⟩)
    Search s.entries s.next (s.allocate ⟨.string "b", 1⟩).2.next ∧
      (s.allocate ⟨.string "b", 1⟩).2.get? ⟨2⟩ = none := by
  intro s
  have small : empty.dynamicHandles.ncard ≤ 2 ^ 32 - 4 :=
    le_trans empty.ncard_dynamicHandles_le (by rw [empty, Std.HashMap.size_empty]; omega)
  have run : Run empty [⟨2⟩] s := (Run.start.allocate small ⟨.string "a", 1⟩).remove ⟨2⟩
  have dead : s.get? ⟨2⟩ = none := by rw [get?_remove, Function.update_self]
  have room : s.dynamicHandles.ncard ≤ 2 ^ 32 - 4 := by
    have less : s.entries.size ≤ (empty.allocate ⟨.string "a", 1⟩).2.entries.size :=
      Std.HashMap.size_erase_le
    have one : (empty.allocate ⟨.string "a", 1⟩).2.entries.size ≤ empty.entries.size + 1 :=
      Std.HashMap.size_insert_le
    have none : empty.entries.size = 0 := Std.HashMap.size_empty
    have bound := s.ncard_dynamicHandles_le
    omega
  obtain ⟨next, _, stays, _⟩ := search_ends_and_handles_rise empty [⟨2⟩] s empty_fresh run
  refine ⟨(next room _).1, ?_⟩
  exact stays ⟨2⟩ List.mem_cons_self dead _ _ (Run.start.allocate room ⟨.string "b", 1⟩) (by simp)

end SparseSlots

end Membrane
