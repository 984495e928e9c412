import Membrane.Proofs.Table.Slots
/-!
Slots under any calls, among them calls that put an entry at a handle of the caller's choice. A
handle is in line when it stands to be handed out: a freed place of dense slots, the counter of
sparse ones. Putting an entry in a handle does not take it out of the line, so it is handed out
while it is taken; and without such a call a handle that is handed out was not taken, unless the
handles have run out.
-/

set_option autoImplicit false

namespace Membrane

namespace DenseSlots

/-- There is no freed place and no handle for a place behind the last one. -/
def Exhausted (s : DenseSlots) : Prop := s.free = [] ∧ 2 ^ 32 ≤ s.slots.size

instance (s : DenseSlots) : Decidable s.Exhausted := inferInstanceAs (Decidable (_ ∧ _))

/-- The free list names dynamic places of the array. -/
structure Tidy (s : DenseSlots) : Prop where
  inside : ∀ place ∈ s.free, place.toNat < s.slots.size
  reserved : 2 ≤ s.slots.size

theorem Tidy.get?_allocate {s : DenseSlots} (tidy : s.Tidy) (room : ¬ s.Exhausted) (e : Entry) :
    (s.allocate e).2.get? = Function.update s.get? (s.allocate e).1 (some e) := by
  cases free : s.free with
  | nil =>
    have size : s.slots.size < 2 ^ 32 := not_le.mp fun large => room ⟨free, large⟩
    exact get?_allocate_of_full s e free size
  | cons place rest =>
    have inside := tidy.inside place (free ▸ List.mem_cons_self)
    rw [allocate_of_free s e place rest free]
    exact get?_setIfInBounds s _ ⟨place⟩ (some e) inside rfl

/-- An entry that is put behind all handles is not found under any of them. -/
theorem get?_allocate_exhausted (s : DenseSlots) (e : Entry) (full : s.Exhausted) :
    (s.allocate e).2.get? = s.get? := by
  obtain ⟨free, large⟩ := full
  rw [allocate_of_full s e free]
  funext k
  have within := k.raw.toNat_lt
  have apart : k.raw.toNat ≠ s.slots.size := by omega
  simp only [get?, Array.getElem?_push, apart, ↓reduceIte]

theorem get?_install (s : DenseSlots) (h : Handle) (e : Entry) :
    (s.install h e).get? = Function.update s.get? h (some e) := by
  funext k
  rw [Function.update_apply, get?, install]
  simp only [Array.getElem?_setIfInBounds, Array.size_append, Array.size_replicate,
    Array.getElem?_append, Array.getElem?_replicate]
  by_cases same : k = h
  · subst same
    have inside : k.raw.toNat < s.slots.size + (k.raw.toNat + 1 - s.slots.size) := by omega
    simp only [inside, ↓reduceIte, Option.join_some]
  · have apart : h.raw.toNat ≠ k.raw.toNat := fun equal => same (Handle.ext_toNat k h equal.symm)
    simp only [same, apart, ↓reduceIte, get?]
    by_cases inside : k.raw.toNat < s.slots.size
    · simp only [inside, ↓reduceIte]
    · -- the places that were added for the new entry are empty
      rw [if_neg inside, Array.getElem?_eq_none (not_lt.mp inside)]
      split <;> rfl

theorem get?_removed (s : DenseSlots) (h : Handle) :
    (s.remove h).get? = Function.update s.get? h none := by
  unfold remove
  split
  · rename_i vacant
    rw [← vacant, Function.update_eq_self]
  · rename_i e taken
    have inside := (Array.getElem?_eq_some_iff.mp ((get?_eq_some_iff s h e).mp taken)).1
    exact get?_setIfInBounds s _ h none inside rfl

theorem live_install (s : DenseSlots) (h : Handle) (e : Entry) :
    (s.install h e).live = if (s.get? h).isNone then s.live + 1 else s.live := rfl

theorem free_removed (s : DenseSlots) (h : Handle) (e : Entry) (taken : s.get? h = some e) :
    (s.remove h).free = if Handle.firstDynamic ≤ h.raw then h.raw :: s.free else s.free := by
  simp only [remove, taken]

theorem live_removed (s : DenseSlots) (h : Handle) (e : Entry) (taken : s.get? h = some e) :
    (s.remove h).live = s.live - 1 := by
  simp only [remove, taken]

theorem remove_of_vacant (s : DenseSlots) (h : Handle) (vacant : s.get? h = none) :
    s.remove h = s := by
  simp only [remove, vacant]

theorem Tidy.empty : DenseSlots.empty.Tidy := ⟨by simp [DenseSlots.empty], le_refl 2⟩

theorem Tidy.allocate {s : DenseSlots} (tidy : s.Tidy) (e : Entry) : (s.allocate e).2.Tidy := by
  cases free : s.free with
  | nil =>
    rw [allocate_of_full s e free]
    refine ⟨fun place listed => ?_, ?_⟩
    · simp [free] at listed
    · have reserved := tidy.reserved
      simp only [Array.size_push]
      omega
  | cons place rest =>
    rw [allocate_of_free s e place rest free]
    refine ⟨fun other listed => ?_, ?_⟩
    · rw [Array.size_setIfInBounds]
      exact tidy.inside other (free ▸ List.mem_cons_of_mem place listed)
    · rw [Array.size_setIfInBounds]
      exact tidy.reserved

theorem Tidy.install {s : DenseSlots} (tidy : s.Tidy) (h : Handle) (e : Entry) :
    (s.install h e).Tidy := by
  have grown : s.slots.size ≤ (s.install h e).slots.size := by
    simp only [DenseSlots.install, Array.size_setIfInBounds, Array.size_append,
      Array.size_replicate]
    omega
  exact ⟨fun place listed => lt_of_lt_of_le (tidy.inside place listed) grown,
    le_trans tidy.reserved grown⟩

theorem Tidy.set {s : DenseSlots} (tidy : s.Tidy) (h : Handle) (e : Entry) :
    (s.set h e).Tidy := by
  refine ⟨fun place listed => ?_, ?_⟩
  · rw [DenseSlots.set, Array.size_setIfInBounds]
    exact tidy.inside place listed
  · rw [DenseSlots.set, Array.size_setIfInBounds]
    exact tidy.reserved

theorem Tidy.remove {s : DenseSlots} (tidy : s.Tidy) (h : Handle) : (s.remove h).Tidy := by
  cases taken : s.get? h with
  | none => rwa [remove_of_vacant s h taken]
  | some e =>
    have inside := (Array.getElem?_eq_some_iff.mp ((get?_eq_some_iff s h e).mp taken)).1
    have size : (s.remove h).slots.size = s.slots.size := by
      simp only [DenseSlots.remove, taken, Array.size_setIfInBounds]
    refine ⟨fun place listed => ?_, size ▸ tidy.reserved⟩
    rw [size]
    rw [free_removed s h e taken] at listed
    split at listed
    · rcases List.mem_cons.mp listed with rfl | former
      · exact inside
      · exact tidy.inside place former
    · exact tidy.inside place listed

theorem get?_allocate_of_ne (s : DenseSlots) (e : Entry) (h : Handle)
    (other : (s.allocate e).1 ≠ h) : (s.allocate e).2.get? h = s.get? h := by
  cases free : s.free with
  | nil =>
    rw [allocate_of_full s e free] at other ⊢
    simp only [get?, Array.getElem?_push]
    split
    · rename_i last
      have place : UInt32.ofNat s.slots.size = h.raw := by rw [← last, UInt32.ofNat_toNat]
      exact absurd (congrArg Handle.mk place) other
    · rfl
  | cons place rest =>
    rw [allocate_of_free s e place rest free] at other ⊢
    have apart : place.toNat ≠ h.raw.toNat := fun equal => other (Handle.ext_toNat _ h equal)
    simp only [get?, Array.getElem?_setIfInBounds, apart, ↓reduceIte]

end DenseSlots

namespace SparseSlots

/-- Every dynamic handle but the counter is taken. -/
def Exhausted (s : SparseSlots) : Prop :=
  ∀ n : UInt32, 2 ≤ n.toNat → n ≠ s.next → n ∈ s.entries

/-- Handles that follow each other within a round are different, so no more of them are taken than
there are entries. -/
theorem steps_le_size (entries : Std.HashMap UInt32 Entry) (n : UInt32) (dynamic : 2 ≤ n.toNat)
    (steps : Nat) (within : steps < roundLength)
    (taken : ∀ i < steps, successor^[i + 1] n ∈ entries) : steps ≤ entries.size := by
  have distinct : ((List.range steps).map fun i => successor^[i + 1] n).Nodup := by
    refine List.Nodup.map_on (fun i hi j hj same => ?_) List.nodup_range
    rw [List.mem_range] at hi hj
    have equal := successor_iterate_injective n dynamic (i + 1) (j + 1) (by omega) (by omega) same
    omega
  have listed : ((List.range steps).map fun i => successor^[i + 1] n) ⊆ entries.keys := by
    intro m member
    obtain ⟨i, inside, rfl⟩ := List.mem_map.mp member
    exact Std.HashMap.mem_keys.mpr (taken i (List.mem_range.mp inside))
  have count := (distinct.subperm listed).length_le
  rwa [List.length_map, List.length_range, Std.HashMap.length_keys] at count

/-- The counter comes to every other dynamic handle before the round is over. -/
theorem exists_steps (n m : UInt32) (dynamic : 2 ≤ n.toNat) (target : 2 ≤ m.toNat) (other : m ≠ n) :
    ∃ steps, steps + 1 < roundLength ∧ successor^[steps + 1] n = m := by
  have apart : m.toNat ≠ n.toNat := fun same => other (UInt32.toNat_inj.mp same)
  have nBound := n.toNat_lt
  have mBound := m.toNat_lt
  refine ⟨(m.toNat + roundLength - n.toNat - 1) % roundLength, ?_, UInt32.toNat_inj.mp ?_⟩
  · simp only [roundLength]
    omega
  · rw [successor_iterate_toNat n dynamic]
    simp only [roundLength]
    omega

/-- As long as a dynamic handle other than the counter is left, the next counter is one that is
neither the former one nor taken. -/
theorem nextFree_vacant (s : SparseSlots) (dynamic : 2 ≤ s.next.toNat) (room : ¬ s.Exhausted) :
    nextFree s.entries (s.entries.size + 1) s.next ∉ s.entries ∧
      nextFree s.entries (s.entries.size + 1) s.next ≠ s.next := by
  unfold Exhausted at room
  push Not at room
  obtain ⟨m, target, other, vacant⟩ := room
  obtain ⟨steps, within, reached⟩ := exists_steps s.next m dynamic target other
  have free : ∃ steps, successor^[steps + 1] s.next ∉ s.entries := ⟨steps, reached ▸ vacant⟩
  have least := Nat.find_min' free (reached ▸ vacant)
  have taken : ∀ i < Nat.find free, successor^[i + 1] s.next ∈ s.entries :=
    fun i before => not_not.mp (Nat.find_min free before)
  have few := steps_le_size s.entries s.next dynamic (Nat.find free) (by omega) taken
  rw [nextFree_eq s.entries (s.entries.size + 1) s.next (Nat.find free) (by omega)
    (Nat.find_spec free) taken]
  refine ⟨Nat.find_spec free, fun back => ?_⟩
  have round := successor_iterate_injective s.next dynamic (Nat.find free + 1) 0 (by omega)
    (by simp only [roundLength]; omega) back
  omega

theorem dynamic_successor (n : UInt32) : 2 ≤ (successor n).toNat := by
  have two : Handle.firstDynamic.toNat = 2 := rfl
  rw [successor, UInt32.toNat_max, two]
  exact le_max_right _ 2

theorem dynamic_nextFree (entries : Std.HashMap UInt32 Entry) (fuel : Nat) (n : UInt32)
    (dynamic : 2 ≤ n.toNat) : 2 ≤ (nextFree entries fuel n).toNat := by
  induction fuel generalizing n with
  | zero => exact dynamic
  | succ fuel ih =>
    rw [nextFree]
    split
    · exact ih (successor n) (dynamic_successor n)
    · exact dynamic_successor n

theorem mem_entries (s : SparseSlots) (h : Handle) : h.raw ∈ s.entries ↔ (s.get? h).isSome :=
  Std.HashMap.mem_iff_isSome_getElem?

theorem get?_install (s : SparseSlots) (h : Handle) (e : Entry) :
    (s.install h e).get? = Function.update s.get? h (some e) :=
  get?_insert s _ h e rfl

end SparseSlots

namespace Slots

/-- The entry of a handle changes where it stands, if there is one. -/
def edit (s : Slots) (h : Handle) (f : Entry → Entry) : Slots :=
  match s.get? h with
  | none => s
  | some e =>
    match s with
    | .dense s => .dense (s.set h (f e))
    | .sparse s => .sparse (s.install h (f e))

theorem setRefcount_eq_edit (s : Slots) (h : Handle) (n : UInt32) :
    s.setRefcount h n = s.edit h fun e => { e with refcount := n } := rfl

/-- What is asked of slots. -/
inductive Call where
  | allocate (e : Entry)
  | install (h : Handle) (e : Entry)
  | edit (h : Handle) (f : Entry → Entry)
  | remove (h : Handle)

def perform (s : Slots) : Call → Slots
  | .allocate e => (s.allocate e).2
  | .install h e => s.install h e
  | .edit h f => s.edit h f
  | .remove h => s.remove h

/-- The handle that a call is about: the one it names, or the one it hands out. -/
def subject (s : Slots) : Call → Handle
  | .allocate e => (s.allocate e).1
  | .install h _ | .edit h _ | .remove h => h

/-- Slots without entries. -/
def blank : Layout → Slots
  | .dense => .dense .empty
  | .sparse => .sparse .empty

/-- The slots after some calls, the last call first. -/
def after (layout : Layout) : List Call → Slots
  | [] => blank layout
  | c :: past => (after layout past).perform c

/-- The handle stands to be handed out. -/
def InLine (s : Slots) (h : Handle) : Prop :=
  match s with
  | .dense s => h.raw ∈ s.free
  | .sparse s => h.raw = s.next

/-- No handle is left for one more entry. -/
def Exhausted : Slots → Prop
  | .dense s => s.Exhausted
  | .sparse s => s.Exhausted

/-- An entry was once put at the handle while the handle was in line. -/
def InstalledInLine (layout : Layout) (past : List Call) (h : Handle) : Prop :=
  ∃ since e before, past = since ++ .install h e :: before ∧ (after layout before).InLine h

/-- Once there was an allocation when no handle was left. -/
def RanOut (layout : Layout) (past : List Call) : Prop :=
  ∃ since e before, past = since ++ .allocate e :: before ∧ (after layout before).Exhausted

/-- Dense slots count an allocation even where it adds no handle to those that are taken. -/
def overcount (s : Slots) (c : Call) : Nat :=
  match s, c with
  | .dense s, .allocate e => if s.Exhausted ∨ (s.get? (s.allocate e).1).isSome then 1 else 0
  | _, _ => 0

/-- How many of the calls were counted too much. -/
def surplus (layout : Layout) : List Call → Nat
  | [] => 0
  | c :: past => surplus layout past + (after layout past).overcount c

section Frame

variable (s : Slots)

theorem get?_install (h : Handle) (e : Entry) :
    (s.install h e).get? = Function.update s.get? h (some e) := by
  cases s with
  | dense s => exact s.get?_install h e
  | sparse s => exact s.get?_install h e

theorem get?_removed (h : Handle) : (s.remove h).get? = Function.update s.get? h none := by
  cases s with
  | dense s => exact s.get?_removed h
  | sparse s => exact s.get?_remove h

theorem get?_edit (h : Handle) (f : Entry → Entry) :
    (s.edit h f).get? = Function.update s.get? h ((s.get? h).map f) := by
  cases taken : s.get? h with
  | none =>
    simp only [edit, taken, Option.map_none]
    rw [← taken, Function.update_eq_self]
  | some e =>
    simp only [edit, taken, Option.map_some]
    cases s with
    | dense s => exact s.get?_set h (f e) e taken
    | sparse s => exact s.get?_install h (f e)

/-- A call leaves the entries of all handles but its own as they are. -/
theorem get?_perform_of_ne (c : Call) (h : Handle) (other : s.subject c ≠ h) :
    (s.perform c).get? h = s.get? h := by
  cases c with
  | allocate e =>
    cases s with
    | dense s => exact s.get?_allocate_of_ne e h other
    | sparse s =>
      show (s.allocate e).2.get? h = s.get? h
      rw [s.get?_allocate e]
      exact Function.update_of_ne (Ne.symm other) _ _
  | install k e =>
    rw [perform, get?_install]
    exact Function.update_of_ne (Ne.symm other) _ _
  | edit k f =>
    rw [perform, get?_edit]
    exact Function.update_of_ne (Ne.symm other) _ _
  | remove k =>
    rw [perform, get?_removed]
    exact Function.update_of_ne (Ne.symm other) _ _

end Frame

section History

variable {layout : Layout} {past : List Call}

theorem InstalledInLine.later {h : Handle} (c : Call) (installed : InstalledInLine layout past h) :
    InstalledInLine layout (c :: past) h := by
  obtain ⟨since, e, before, rfl, inLine⟩ := installed
  exact ⟨c :: since, e, before, rfl, inLine⟩

theorem InstalledInLine.now {h : Handle} (e : Entry) (inLine : (after layout past).InLine h) :
    InstalledInLine layout (.install h e :: past) h :=
  ⟨[], e, past, rfl, inLine⟩

theorem RanOut.later (c : Call) (out : RanOut layout past) : RanOut layout (c :: past) := by
  obtain ⟨since, e, before, rfl, exhausted⟩ := out
  exact ⟨c :: since, e, before, rfl, exhausted⟩

theorem RanOut.now (e : Entry) (exhausted : (after layout past).Exhausted) :
    RanOut layout (.allocate e :: past) :=
  ⟨[], e, past, rfl, exhausted⟩

/-- What holds of dense slots after any calls: a place in the free list is vacant and stands there
once, unless an entry was put there while the place was free. -/
structure DenseKept (layout : Layout) (past : List Call) (s : DenseSlots) : Prop where
  tidy : s.Tidy
  vacant : ∀ h : Handle, h.raw ∈ s.free → (s.get? h).isSome → InstalledInLine layout past h
  once : ∀ h : Handle, 1 < s.free.count h.raw → InstalledInLine layout past h

namespace DenseKept

variable {s : DenseSlots} (kept : DenseKept layout past s)
include kept

/-- A call that changes nothing keeps what is known. -/
theorem later (c : Call) : DenseKept layout (c :: past) s :=
  ⟨kept.tidy, fun h listed taken => (kept.vacant h listed taken).later c,
    fun h twice => (kept.once h twice).later c⟩

theorem allocate (e : Entry) : DenseKept layout (.allocate e :: past) (s.allocate e).2 := by
  refine ⟨kept.tidy.allocate e, fun h listed taken => ?_, fun h twice => ?_⟩
  · cases free : s.free with
    | nil => simp [DenseSlots.allocate_of_full s e free, free] at listed
    | cons place rest =>
      rw [DenseSlots.allocate_of_free s e place rest free] at listed
      by_cases same : (⟨place⟩ : Handle) = h
      · -- the place still stands in the rest of the list, so it stood there twice
        subst same
        refine (kept.once ⟨place⟩ ?_).later _
        have rested := List.count_pos_iff.mpr listed
        rw [free, List.count_cons_self]
        exact Nat.lt_add_of_pos_left rested
      · rw [s.get?_allocate_of_ne e h (by rwa [DenseSlots.allocate_of_free s e place rest free])]
          at taken
        exact (kept.vacant h (free ▸ List.mem_cons_of_mem place listed) taken).later _
  · refine (kept.once h (lt_of_lt_of_le twice ?_)).later _
    cases free : s.free with
    | nil => simp [DenseSlots.allocate_of_full s e free, free]
    | cons place rest =>
      rw [DenseSlots.allocate_of_free s e place rest free]
      exact List.count_le_count_cons

theorem install (now : after layout past = .dense s) (h : Handle) (e : Entry) :
    DenseKept layout (.install h e :: past) (s.install h e) := by
  refine ⟨kept.tidy.install h e, fun k listed taken => ?_, fun k twice => ?_⟩
  · by_cases same : k = h
    · subst same
      exact .now e (now ▸ listed)
    · rw [s.get?_install, Function.update_of_ne same] at taken
      exact (kept.vacant k listed taken).later _
  · exact (kept.once k twice).later _

theorem set (h : Handle) (e former : Entry) (taken : s.get? h = some former) (c : Call) :
    DenseKept layout (c :: past) (s.set h e) := by
  refine ⟨kept.tidy.set h e, fun k listed found => (kept.vacant k listed ?_).later _,
    fun k twice => (kept.once k twice).later _⟩
  rw [s.get?_set h e former taken, Function.update_apply] at found
  by_cases same : k = h
  · subst same
    rw [taken, Option.isSome_some]
  · rwa [if_neg same] at found

theorem remove (h : Handle) : DenseKept layout (.remove h :: past) (s.remove h) := by
  cases taken : s.get? h with
  | none =>
    rw [DenseSlots.remove_of_vacant s h taken]
    exact kept.later _
  | some e =>
    refine ⟨kept.tidy.remove h, fun k listed found => ?_, fun k twice => ?_⟩
    · by_cases same : k = h
      · subst same
        simp [s.get?_removed] at found
      · have apart : k.raw ≠ h.raw := fun equal => same (congrArg Handle.mk equal)
        rw [s.get?_removed, Function.update_of_ne same] at found
        rw [s.free_removed h e taken] at listed
        refine (kept.vacant k ?_ found).later _
        split at listed
        · exact (List.mem_cons.mp listed).resolve_left apart
        · exact listed
    · rw [s.free_removed h e taken] at twice
      split at twice
      · by_cases same : k = h
        · -- the place that becomes free was in the list while it was taken
          subst same
          rw [List.count_cons_self] at twice
          refine (kept.vacant k (List.count_pos_iff.mp (by omega)) ?_).later _
          rw [taken, Option.isSome_some]
        · have apart : k.raw ≠ h.raw := fun equal => same (congrArg Handle.mk equal)
          rw [List.count_cons_of_ne apart.symm] at twice
          exact (kept.once k twice).later _
      · exact (kept.once k twice).later _

end DenseKept

/-- What holds of sparse slots after any calls: the counter stands at a vacant handle, unless an
entry was put there while it stood there, or the handles ran out. -/
structure SparseKept (layout : Layout) (past : List Call) (s : SparseSlots) : Prop where
  dynamic : 2 ≤ s.next.toNat
  vacant : s.next ∈ s.entries → InstalledInLine layout past ⟨s.next⟩ ∨ RanOut layout past

namespace SparseKept

variable {s : SparseSlots} (kept : SparseKept layout past s)
include kept

theorem allocate (now : after layout past = .sparse s) (e : Entry) :
    SparseKept layout (.allocate e :: past) (s.allocate e).2 := by
  refine ⟨SparseSlots.dynamic_nextFree _ _ _ kept.dynamic, fun taken => Or.inr (.now e ?_)⟩
  rw [now]
  by_contra room
  obtain ⟨vacant, moved⟩ := s.nextFree_vacant kept.dynamic room
  rcases Std.HashMap.mem_insert.mp taken with same | former
  · exact moved (beq_iff_eq.mp same).symm
  · exact vacant former

theorem install (now : after layout past = .sparse s) (h : Handle) (e : Entry) :
    SparseKept layout (.install h e :: past) (s.install h e) := by
  refine ⟨kept.dynamic, fun taken => ?_⟩
  rcases Std.HashMap.mem_insert.mp taken with same | former
  · have inLine : h.raw = s.next := beq_iff_eq.mp same
    refine Or.inl ?_
    rw [show (⟨(s.install h e).next⟩ : Handle) = h from congrArg Handle.mk inLine.symm]
    exact .now e (now ▸ inLine)
  · exact (kept.vacant former).imp (.later _) (.later _)

/-- A call that takes no vacant handle and leaves the counter alone keeps what is known. -/
theorem within (t : SparseSlots) (next : t.next = s.next)
    (fewer : ∀ n, n ∈ t.entries → n ∈ s.entries) (c : Call) : SparseKept layout (c :: past) t := by
  refine ⟨next ▸ kept.dynamic, fun taken => ?_⟩
  rw [next] at taken ⊢
  exact (kept.vacant (fewer _ taken)).imp (.later _) (.later _)

theorem set (h : Handle) (e former : Entry) (taken : s.get? h = some former) (c : Call) :
    SparseKept layout (c :: past) (s.install h e) := by
  refine kept.within (s.install h e) rfl (fun n found => ?_) c
  rcases Std.HashMap.mem_insert.mp found with same | former
  · rw [← beq_iff_eq.mp same, s.mem_entries h, taken, Option.isSome_some]
  · exact former

theorem remove (h : Handle) : SparseKept layout (.remove h :: past) (s.remove h) :=
  kept.within (s.remove h) rfl (fun _ found => (Std.HashMap.mem_erase.mp found).2) _

end SparseKept

/-- What holds of slots after any calls. -/
def Kept (layout : Layout) (past : List Call) : Slots → Prop
  | .dense s => DenseKept layout past s
  | .sparse s => SparseKept layout past s

theorem Kept.blank (layout : Layout) : Kept layout [] (blank layout) := by
  cases layout with
  | dense =>
    exact ⟨.empty, fun h listed => absurd listed List.not_mem_nil,
      fun h twice => absurd twice (by simp [DenseSlots.empty])⟩
  | sparse => exact ⟨le_refl 2, fun taken => absurd taken Std.HashMap.not_mem_empty⟩

theorem Kept.perform {s : Slots} (now : after layout past = s) (kept : Kept layout past s)
    (c : Call) : Kept layout (c :: past) (s.perform c) := by
  cases s with
  | dense s =>
    cases c with
    | allocate e => exact DenseKept.allocate kept e
    | install h e => exact DenseKept.install kept now h e
    | edit h f =>
      cases taken : (Slots.dense s).get? h with
      | none =>
        rw [Slots.perform, edit, taken]
        exact DenseKept.later kept _
      | some e =>
        rw [Slots.perform, edit, taken]
        exact DenseKept.set kept h (f e) e taken _
    | remove h => exact DenseKept.remove kept h
  | sparse s =>
    cases c with
    | allocate e => exact SparseKept.allocate kept now e
    | install h e => exact SparseKept.install kept now h e
    | edit h f =>
      cases taken : (Slots.sparse s).get? h with
      | none =>
        rw [Slots.perform, edit, taken]
        exact SparseKept.within kept s rfl (fun _ found => found) _
      | some e =>
        rw [Slots.perform, edit, taken]
        exact SparseKept.set kept h (f e) e taken _
    | remove h => exact SparseKept.remove kept h

theorem kept (layout : Layout) (past : List Call) : Kept layout past (after layout past) := by
  induction past with
  | nil => exact .blank layout
  | cons c past ih => exact Kept.perform rfl ih c

/-- A handle that is handed out was vacant, unless an entry was put there while it was in line or
the handles ran out. -/
theorem Kept.collision {s : Slots} (kept : Kept layout past s) (e : Entry) :
    (s.get? (s.allocate e).1).isSome → s.Exhausted ∨ InstalledInLine layout past (s.allocate e).1 ∨
      RanOut layout past := by
  intro taken
  cases s with
  | dense s =>
    cases free : s.free with
    | nil =>
      by_cases large : 2 ^ 32 ≤ s.slots.size
      · exact Or.inl ⟨free, large⟩
      · have place : (UInt32.ofNat s.slots.size).toNat = s.slots.size :=
          UInt32.toNat_ofNat_of_lt' (not_le.mp large)
        simp [Slots.get?, Slots.allocate, s.allocate_of_full e free, DenseSlots.get?, place] at taken
    | cons place rest =>
      have answer : (s.allocate e).1 = ⟨place⟩ := by rw [s.allocate_of_free e place rest free]
      refine Or.inr (Or.inl (DenseKept.vacant kept _ ?_ taken))
      show (s.allocate e).1.raw ∈ s.free
      rw [answer, free]
      exact List.mem_cons_self
  | sparse s => exact Or.inr (SparseKept.vacant kept ((s.mem_entries ⟨s.next⟩).mpr taken))

theorem size_sparse (s : SparseSlots) : (Slots.sparse s).size = (Slots.sparse s).handles.ncard := by
  have listed : (Slots.sparse s).handles = Handle.mk '' {n | n ∈ s.entries.keys} := by
    ext h
    rw [mem_handles, show (Slots.sparse s).get? h = s.get? h from rfl, ← s.mem_entries h,
      ← Std.HashMap.mem_keys]
    exact ⟨fun found => ⟨h.raw, found, rfl⟩, fun ⟨_, found, same⟩ => same ▸ found⟩
  have distinct : s.entries.keys.Nodup := Std.HashMap.nodup_keys
  have apart : Function.Injective Handle.mk := fun _ _ same => congrArg Handle.raw same
  rw [listed, Set.ncard_image_of_injective _ apart, ← List.coe_toFinset, Set.ncard_coe_finset,
    List.toFinset_card_of_nodup distinct, Std.HashMap.length_keys]
  rfl

/-- A call changes the count of dense slots by as many handles as it adds or takes away, and by what
it counts too much. -/
theorem DenseKept.live_perform {s : DenseSlots} (kept : DenseKept layout past s) (n : Nat)
    (counted : s.live = (Slots.dense s).handles.ncard + n) (c : Call) :
    ((Slots.dense s).perform c).size =
      ((Slots.dense s).perform c).handles.ncard + n + (Slots.dense s).overcount c := by
  cases c with
  | allocate e =>
    show (s.allocate e).2.live = (Slots.dense (s.allocate e).2).handles.ncard + n + _
    rw [s.live_allocate, counted, overcount]
    by_cases full : s.Exhausted
    · have same : (Slots.dense (s.allocate e).2).handles = (Slots.dense s).handles := by
        ext h
        show ((s.allocate e).2.get? h).isSome ↔ (s.get? h).isSome
        rw [s.get?_allocate_exhausted e full]
      rw [if_pos (Or.inl full), same]
    · have more := ncard_handles_update (.dense s) (.dense (s.allocate e).2) _ e
        (kept.tidy.get?_allocate full e)
      rw [more]
      show _ = _ + (if (s.get? (s.allocate e).1).isSome then 0 else 1) + n + _
      simp only [full, false_or]
      split <;> omega
  | install h e =>
    show (s.install h e).live = (Slots.dense (s.install h e)).handles.ncard + n + 0
    have more : _ = _ + if (s.get? h).isSome then 0 else 1 :=
      ncard_handles_update (.dense s) (.dense (s.install h e)) h e (s.get?_install h e)
    rw [more, s.live_install, counted]
    cases s.get? h with
    | none =>
      simp only [Option.isNone_none, Option.isSome_none, Bool.false_eq_true, ↓reduceIte]
      omega
    | some former => rfl
  | edit h f =>
    have same : ((Slots.dense s).edit h f).handles = (Slots.dense s).handles := by
      ext k
      rw [mem_handles, mem_handles, get?_edit, Function.update_apply]
      by_cases equal : k = h <;> simp [equal]
    have size : ((Slots.dense s).edit h f).size = s.live := by
      unfold edit
      split <;> rfl
    show ((Slots.dense s).edit h f).size = ((Slots.dense s).edit h f).handles.ncard + n + 0
    rw [size, same, counted]
    rfl
  | remove h =>
    show (s.remove h).live = (Slots.dense (s.remove h)).handles.ncard + n + 0
    have fewer : _ + (if (s.get? h).isSome then 1 else 0) = _ :=
      ncard_handles_erase (.dense s) (.dense (s.remove h)) h (s.get?_removed h)
    cases taken : s.get? h with
    | none =>
      rw [s.remove_of_vacant h taken, counted]
      rfl
    | some e =>
      rw [taken, Option.isSome_some, if_pos rfl] at fewer
      rw [s.live_removed h e taken, counted]
      omega

theorem Kept.size_perform {s : Slots} (kept : Kept layout past s) (n : Nat)
    (counted : s.size = s.handles.ncard + n) (c : Call) :
    (s.perform c).size = (s.perform c).handles.ncard + n + s.overcount c := by
  cases s with
  | dense s => exact DenseKept.live_perform kept n counted c
  | sparse s =>
    have full := size_sparse s
    have nothing : n = 0 := by omega
    have counted_after : ((Slots.sparse s).perform c).size =
        ((Slots.sparse s).perform c).handles.ncard := by
      cases c with
      | edit h f =>
        rw [Slots.perform, edit]
        split
        · exact size_sparse s
        · exact size_sparse _
      | _ => exact size_sparse _
    rw [counted_after, nothing]
    rfl

/-- The size counts the handles that are taken and the surplus. -/
theorem size_after (layout : Layout) (past : List Call) :
    (after layout past).size = (after layout past).handles.ncard + surplus layout past := by
  induction past with
  | nil =>
    have nobody : (blank layout).handles = ∅ := by
      ext h
      rw [mem_handles]
      cases layout with
      | dense =>
        have reserved : (DenseSlots.empty.get? h) = none := by
          simp only [DenseSlots.get?, DenseSlots.empty, Array.getElem?_replicate]
          split <;> rfl
        simp [blank, Slots.get?, reserved]
      | sparse => simp [blank, Slots.get?, SparseSlots.get?, SparseSlots.empty]
    rw [after, surplus, nobody, Set.ncard_empty]
    cases layout <;> rfl
  | cons c past ih =>
    rw [after, surplus, ← Nat.add_assoc]
    exact (kept layout past).size_perform _ ih c

/-- Nothing is counted too much before an entry was put at a handle in line or the handles ran
out. -/
theorem surplus_eq_zero (layout : Layout) (past : List Call)
    (apart : ∀ h, ¬ InstalledInLine layout past h) (room : ¬ RanOut layout past) :
    surplus layout past = 0 := by
  induction past with
  | nil => rfl
  | cons c past ih =>
    rw [surplus, ih (fun h installed => apart h (installed.later c)) fun out => room (out.later c),
      Nat.zero_add]
    cases c with
    | allocate e =>
      have roomy : ¬ (after layout past).Exhausted := fun full => room (.now e full)
      have vacant : ¬ ((after layout past).get? ((after layout past).allocate e).1).isSome := by
        intro taken
        rcases (kept layout past).collision e taken with full | installed | out
        · exact roomy full
        · exact apart _ (installed.later _)
        · exact room (out.later _)
      cases now : after layout past with
      | dense s =>
        rw [now] at roomy vacant
        exact if_neg (not_or.mpr ⟨roomy, vacant⟩)
      | sparse s => rfl
    | install h e => cases after layout past <;> rfl
    | edit h f => cases after layout past <;> rfl
    | remove h => cases after layout past <;> rfl

/-- After as many allocations as there are places before it in the free list, a place stands at its
head, and its entry is still there. -/
theorem free_after_allocations (s : DenseSlots) (h : Handle) (x : Option Entry)
    (found : s.get? h = x) (now : after layout past = .dense s) (es : List Entry)
    (before : es.length ≤ s.free.idxOf h.raw) :
    ∃ t, after layout (es.map .allocate ++ past) = .dense t ∧
      t.free = s.free.drop es.length ∧ t.get? h = x := by
  induction es with
  | nil => exact ⟨s, now, rfl, found⟩
  | cons e es ih =>
    rw [List.length_cons] at before
    obtain ⟨t, reached, free, kept⟩ := ih (by omega)
    have inside := lt_of_lt_of_le before (List.idxOf_le_length)
    have head : t.free = s.free[es.length] :: s.free.drop (es.length + 1) := by
      rw [free]
      exact List.drop_eq_getElem_cons inside
    have other : s.free[es.length] ≠ h.raw :=
      beq_eq_false_iff_ne.mp (List.not_of_lt_findIdx before)
    refine ⟨(t.allocate e).2, ?_, ?_, ?_⟩
    · rw [List.map_cons, List.cons_append, after, reached]
      rfl
    · rw [t.allocate_of_free e _ _ head]
      rfl
    · rw [t.get?_allocate_of_ne e h, kept]
      rw [t.allocate_of_free e _ _ head]
      exact fun same => other (congrArg Handle.raw same)

/-- An entry that is put at a handle in line is still there when the handle is handed out. -/
theorem handed_out_while_taken (h : Handle) (e : Entry) (inLine : (after layout past).InLine h) :
    ∃ n, ∀ es : List Entry, es.length = n →
      (after layout (es.map .allocate ++ .install h e :: past)).get? h = some e ∧
        ∀ x, ((after layout (es.map .allocate ++ .install h e :: past)).allocate x).1 = h := by
  cases now : after layout past with
  | dense s =>
    rw [now] at inLine
    refine ⟨s.free.idxOf h.raw, fun es count => ?_⟩
    have found : (s.install h e).get? h = some e := by
      rw [s.get?_install, Function.update_self]
    have installed : after layout (.install h e :: past) = .dense (s.install h e) := by
      rw [after, now]
      rfl
    obtain ⟨t, reached, free, kept⟩ :=
      free_after_allocations (s.install h e) h (some e) found installed es (le_of_eq count)
    have inside : s.free.idxOf h.raw < s.free.length := List.idxOf_lt_length_of_mem inLine
    have head : t.free = h.raw :: s.free.drop (s.free.idxOf h.raw + 1) := by
      rw [free, count]
      show s.free.drop (s.free.idxOf h.raw) = _
      rw [List.drop_eq_getElem_cons inside, List.getElem_idxOf inside]
    rw [reached]
    refine ⟨kept, fun x => ?_⟩
    show (t.allocate x).1 = h
    rw [t.allocate_of_free x _ _ head]
  | sparse s =>
    rw [now] at inLine
    refine ⟨0, fun es count => ?_⟩
    rw [List.eq_nil_of_length_eq_zero count, List.map_nil, List.nil_append, after, now]
    refine ⟨?_, fun x => congrArg Handle.mk inLine.symm⟩
    show (s.install h e).get? h = some e
    rw [s.get?_install, Function.update_self]

/-- Slots of both layouts after any calls. A call changes no entry but the one at its own handle, and
an edit does not lose it. Besides the handles that are taken the size counts the surplus, which is
nothing as long as no entry was put at a handle in line and the handles did not run out. A handle
that is handed out while it is taken was in line when an entry was put there, unless the handles ran
out; and an entry put at a handle in line is there when the handle is handed out in its turn. -/
theorem laws_until_installed_in_line (layout : Layout) (past : List Call) :
    (∀ c h, (after layout past).subject c ≠ h →
      (after layout (c :: past)).get? h = (after layout past).get? h) ∧
    (∀ h f, (after layout (.edit h f :: past)).get? h = ((after layout past).get? h).map f) ∧
    (after layout past).size = (after layout past).handles.ncard + surplus layout past ∧
    ((∀ h, ¬ InstalledInLine layout past h) → ¬ RanOut layout past → surplus layout past = 0) ∧
    (∀ e, ((after layout past).allocate e).1 ∈ (after layout past).handles →
      InstalledInLine layout past ((after layout past).allocate e).1 ∨
        RanOut layout (.allocate e :: past)) ∧
    (∀ h e, (after layout past).InLine h → ∃ n, ∀ es : List Entry, es.length = n →
      (after layout (es.map .allocate ++ .install h e :: past)).get? h = some e ∧
        ∀ x, ((after layout (es.map .allocate ++ .install h e :: past)).allocate x).1 = h) := by
  refine ⟨fun c h other => get?_perform_of_ne _ c h other, fun h f => ?_, size_after layout past,
    surplus_eq_zero layout past, fun e taken => ?_, handed_out_while_taken⟩
  · rw [after, perform, get?_edit, Function.update_self]
  · rcases (kept layout past).collision e taken with full | installed | out
    · exact Or.inr (.now e full)
    · exact Or.inl installed
    · exact Or.inr (out.later _)

/-- An entry is given back and its place is filled again. -/
def refilled : List Call :=
  [.install ⟨2⟩ ⟨.string "b", 1⟩, .remove ⟨2⟩, .allocate ⟨.string "a", 1⟩]

/-- The place that was filled again is handed out once more, over the entry that stands there, and
from then on the size is one too high. -/
theorem laws_until_installed_in_line_refilled :
    (after .dense refilled).get? ⟨2⟩ = some ⟨.string "b", 1⟩ ∧
      ((after .dense refilled).allocate ⟨.string "c", 1⟩).1 = ⟨2⟩ ∧
      (InstalledInLine .dense refilled ⟨2⟩ ∨
        RanOut .dense (.allocate ⟨.string "c", 1⟩ :: refilled)) ∧
      (after .dense (.allocate ⟨.string "c", 1⟩ :: refilled)).size =
        (after .dense (.allocate ⟨.string "c", 1⟩ :: refilled)).handles.ncard + 1 := by
  have there : (after .dense refilled).get? ⟨2⟩ = some ⟨.string "b", 1⟩ := rfl
  have taken : (⟨2⟩ : Handle) ∈ (after .dense refilled).handles := by
    rw [mem_handles, there, Option.isSome_some]
  refine ⟨there, rfl, ?_, ?_⟩
  · obtain ⟨_, _, _, _, collision, _⟩ := laws_until_installed_in_line .dense refilled
    exact collision ⟨.string "c", 1⟩ taken
  · obtain ⟨_, _, counted, _⟩ :=
      laws_until_installed_in_line .dense (.allocate ⟨.string "c", 1⟩ :: refilled)
    exact counted

end History

end Slots

end Membrane
