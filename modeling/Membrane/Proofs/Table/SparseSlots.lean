import Mathlib.Data.List.Nodup
import Mathlib.Data.List.Perm.Subperm
import Mathlib.Data.Nat.Find
import Mathlib.Data.UInt
import Mathlib.Logic.Function.Iterate
import Membrane.Proofs.Table.DenseSlots
/-!
The counter of sparse slots goes round all dynamic handles. A round is longer than there are
entries, so the search for a handle that is not taken ends at one.
-/

set_option autoImplicit false

namespace Membrane.SparseSlots

/-- How many dynamic handles there are. -/
def roundLength : Nat := 2 ^ 32 - 2

/-- The counter stands at a dynamic handle that is not taken. The first handle is never taken, and
the second one always. -/
structure Sound (s : SparseSlots) : Prop where
  blank : 0 ∉ s.entries
  rooted : 1 ∈ s.entries
  dynamic : 2 ≤ s.next.toNat
  vacant : s.next ∉ s.entries

theorem successor_toNat (n : UInt32) (dynamic : 2 ≤ n.toNat) :
    (successor n).toNat = 2 + (n.toNat - 2 + 1) % roundLength := by
  have bound := n.toNat_lt
  have two : Handle.firstDynamic.toNat = 2 := rfl
  rw [successor, UInt32.toNat_max, UInt32.toNat_add, two, UInt32.toNat_one, roundLength]
  by_cases last : n.toNat = 2 ^ 32 - 1
  · rw [last]
    rfl
  · omega

/-- After some steps the counter has gone as many places on, round and round. -/
theorem successor_iterate_toNat (n : UInt32) (dynamic : 2 ≤ n.toNat) (steps : Nat) :
    (successor^[steps] n).toNat = 2 + (n.toNat - 2 + steps) % roundLength := by
  have bound := n.toNat_lt
  induction steps with
  | zero =>
    rw [Function.iterate_zero_apply, Nat.add_zero, roundLength, Nat.mod_eq_of_lt (by omega)]
    omega
  | succ steps ih =>
    have before : 2 ≤ (successor^[steps] n).toNat := by rw [ih]; omega
    rw [Function.iterate_succ_apply', successor_toNat _ before, ih, Nat.add_sub_cancel_left,
      Nat.mod_add_mod, Nat.add_assoc]

/-- Within a round no handle is met twice. -/
theorem successor_iterate_injective (n : UInt32) (dynamic : 2 ≤ n.toNat) (i j : Nat)
    (hi : i < roundLength) (hj : j < roundLength)
    (same : successor^[i] n = successor^[j] n) : i = j := by
  have values := congrArg UInt32.toNat same
  rw [successor_iterate_toNat n dynamic, successor_iterate_toNat n dynamic] at values
  simp only [roundLength] at *
  omega

/-- The search stops at the first handle that is not taken. -/
theorem nextFree_eq (entries : Std.HashMap UInt32 Entry) (fuel : Nat) (n : UInt32) (steps : Nat)
    (enough : steps < fuel) (free : successor^[steps + 1] n ∉ entries)
    (taken : ∀ i < steps, successor^[i + 1] n ∈ entries) :
    nextFree entries fuel n = successor^[steps + 1] n := by
  induction fuel generalizing n steps with
  | zero => omega
  | succ fuel ih =>
    rw [nextFree]
    cases steps with
    | zero =>
      have first : entries.contains (successor n) = false :=
        Std.HashMap.contains_eq_false_iff_not_mem.mpr free
      simp only [first, Bool.false_eq_true, ↓reduceIte]
      rfl
    | succ steps =>
      have first : entries.contains (successor n) = true := taken 0 (by omega)
      simp only [first, ↓reduceIte]
      exact ih (successor n) steps (by omega) free (fun i inside => taken (i + 1) (by omega))

/-- Among as many successors as there are entries one is not taken: they differ, and the handle of
the global object is not one of them. -/
theorem Sound.exists_free {s : SparseSlots} (sound : s.Sound)
    (room : s.entries.size < roundLength) :
    ∃ steps < s.entries.size, successor^[steps + 1] s.next ∉ s.entries := by
  by_contra none_free
  push Not at none_free
  have nodup : (1 :: (List.range s.entries.size).map fun i => successor^[i + 1] s.next).Nodup := by
    refine List.nodup_cons.mpr ⟨?_, ?_⟩
    · intro member
      obtain ⟨i, _, same⟩ := List.mem_map.mp member
      have value := congrArg UInt32.toNat same
      rw [successor_iterate_toNat s.next sound.dynamic, UInt32.toNat_one] at value
      omega
    · refine List.Nodup.map_on ?_ List.nodup_range
      intro i hi j hj same
      rw [List.mem_range] at hi hj
      have equal := successor_iterate_injective s.next sound.dynamic (i + 1) (j + 1)
        (by omega) (by omega) same
      omega
  have within : (1 :: (List.range s.entries.size).map fun i => successor^[i + 1] s.next) ⊆
      s.entries.keys := by
    intro handle member
    rw [Std.HashMap.mem_keys]
    rcases List.mem_cons.mp member with rfl | member
    · exact sound.rooted
    · obtain ⟨i, inside, rfl⟩ := List.mem_map.mp member
      exact none_free i (List.mem_range.mp inside)
  have count := (nodup.subperm within).length_le
  rw [List.length_cons, List.length_map, List.length_range, Std.HashMap.length_keys] at count
  omega

/-- The next counter is a dynamic handle that is not taken and not the one handed out. -/
theorem Sound.nextFree_spec {s : SparseSlots} (sound : s.Sound)
    (room : s.entries.size < roundLength) :
    2 ≤ (nextFree s.entries (s.entries.size + 1) s.next).toNat ∧
      nextFree s.entries (s.entries.size + 1) s.next ∉ s.entries ∧
      nextFree s.entries (s.entries.size + 1) s.next ≠ s.next := by
  have free := sound.exists_free room
  have least := Nat.find_spec free
  have found := nextFree_eq s.entries (s.entries.size + 1) s.next (Nat.find free)
    (by omega) least.2 (by
      intro i before
      have earlier := Nat.find_min free before
      push Not at earlier
      exact earlier (by omega))
  rw [found]
  refine ⟨?_, least.2, ?_⟩
  · rw [successor_iterate_toNat s.next sound.dynamic]
    omega
  · intro back
    have round := successor_iterate_injective s.next sound.dynamic (Nat.find free + 1) 0
      (by omega) (by simp only [roundLength]; omega) back
    omega

theorem get?_insert (s t : SparseSlots) (h : Handle) (e : Entry)
    (written : t.entries = s.entries.insert h.raw e) :
    t.get? = Function.update s.get? h (some e) := by
  funext k
  rw [Function.update_apply, get?, written, Std.HashMap.getElem?_insert]
  by_cases same : k = h
  · subst same
    simp
  · have apart : h.raw ≠ k.raw := fun equal => same (congrArg Handle.mk equal.symm)
    simp [same, apart, get?]

theorem Sound.allocate_fresh {s : SparseSlots} (sound : s.Sound) (e : Entry) :
    2 ≤ (s.allocate e).1.raw.toNat ∧ s.get? (s.allocate e).1 = none :=
  ⟨sound.dynamic, Std.HashMap.getElem?_eq_none sound.vacant⟩

theorem get?_allocate (s : SparseSlots) (e : Entry) :
    (s.allocate e).2.get? = Function.update s.get? (s.allocate e).1 (some e) :=
  get?_insert s _ ⟨s.next⟩ e rfl

theorem Sound.size_allocate {s : SparseSlots} (sound : s.Sound) (e : Entry) :
    (s.allocate e).2.entries.size = s.entries.size + 1 := by
  simp only [SparseSlots.allocate, Std.HashMap.size_insert, sound.vacant, ↓reduceIte]

theorem Sound.allocate {s : SparseSlots} (sound : s.Sound)
    (room : s.entries.size < roundLength) (e : Entry) : (s.allocate e).2.Sound := by
  obtain ⟨dynamic, vacant, moved⟩ := sound.nextFree_spec room
  have here := sound.dynamic
  refine ⟨?_, ?_, dynamic, ?_⟩
  · simp only [SparseSlots.allocate, Std.HashMap.mem_insert, beq_iff_eq, sound.blank, or_false]
    intro zero
    rw [zero] at here
    simp at here
  · simp only [SparseSlots.allocate, Std.HashMap.mem_insert, sound.rooted, or_true]
  · simp only [SparseSlots.allocate, Std.HashMap.mem_insert, beq_iff_eq, vacant, or_false]
    exact fun same => moved same.symm

/-- Writing an entry to a handle that is taken keeps what is known of the slots. -/
theorem Sound.install {s : SparseSlots} (sound : s.Sound) (h : Handle) (e former : Entry)
    (taken : s.get? h = some former) : (s.install h e).Sound := by
  have member : h.raw ∈ s.entries := Std.HashMap.mem_iff_isSome_getElem?.mpr (by
    simp only [get?] at taken
    simp only [taken, Option.isSome_some])
  refine ⟨?_, ?_, sound.dynamic, ?_⟩
  · simp only [SparseSlots.install, Std.HashMap.mem_insert, beq_iff_eq, sound.blank, or_false]
    exact fun zero => sound.blank (zero ▸ member)
  · simp only [SparseSlots.install, Std.HashMap.mem_insert, sound.rooted, or_true]
  · simp only [SparseSlots.install, Std.HashMap.mem_insert, beq_iff_eq, sound.vacant, or_false]
    exact fun next => sound.vacant (next ▸ member)

theorem size_install (s : SparseSlots) (h : Handle) (e former : Entry)
    (taken : s.get? h = some former) : (s.install h e).entries.size = s.entries.size := by
  have member : h.raw ∈ s.entries := Std.HashMap.mem_iff_isSome_getElem?.mpr (by
    simp only [get?] at taken
    simp only [taken, Option.isSome_some])
  simp only [install, Std.HashMap.size_insert, member, ↓reduceIte]

theorem get?_remove (s : SparseSlots) (h : Handle) :
    (s.remove h).get? = Function.update s.get? h none := by
  funext k
  rw [Function.update_apply, get?, remove, Std.HashMap.getElem?_erase]
  by_cases same : k = h
  · subst same
    simp
  · have apart : h.raw ≠ k.raw := fun equal => same (congrArg Handle.mk equal.symm)
    simp [same, apart, get?]

theorem Sound.remove {s : SparseSlots} (sound : s.Sound) (h : Handle)
    (dynamic : 2 ≤ h.raw.toNat) : (s.remove h).Sound := by
  refine ⟨?_, ?_, sound.dynamic, ?_⟩
  · simp only [SparseSlots.remove, Std.HashMap.mem_erase, sound.blank, and_false,
      not_false_eq_true]
  · simp only [SparseSlots.remove, Std.HashMap.mem_erase, sound.rooted, and_true, beq_eq_false_iff_ne]
    intro one
    rw [one] at dynamic
    simp at dynamic
  · simp only [SparseSlots.remove, Std.HashMap.mem_erase, sound.vacant, and_false,
      not_false_eq_true]

/-- The slots of a table that holds the global object alone. -/
theorem install_globalObject_sound (e : Entry) : (empty.install .globalObject e).Sound := by
  refine ⟨?_, ?_, le_refl 2, ?_⟩
  · simp only [SparseSlots.install, empty, Handle.globalObject, Std.HashMap.mem_insert,
      Std.HashMap.not_mem_empty, or_false]
    decide
  · simp only [SparseSlots.install, empty, Handle.globalObject, Std.HashMap.mem_insert,
      beq_self_eq_true, true_or]
  · simp only [SparseSlots.install, empty, Handle.globalObject, Handle.firstDynamic,
      Std.HashMap.mem_insert, Std.HashMap.not_mem_empty, or_false]
    decide

end Membrane.SparseSlots
