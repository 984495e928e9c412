import Mathlib.Data.Set.Card
import Mathlib.Data.UInt
import Mathlib.Logic.Function.Basic
import Membrane.Table.Slots
/-!
Dense slots hand out a place that is free, and the places that are free are exactly the dynamic ones
without an entry.
-/

set_option autoImplicit false

namespace Membrane

theorem Handle.ext_toNat (h k : Handle) (same : h.raw.toNat = k.raw.toNat) : h = k := by
  obtain ⟨h⟩ := h
  obtain ⟨k⟩ := k
  exact congrArg Handle.mk (UInt32.toNat_inj.mp same)

namespace DenseSlots

/-- The free list and the count agree with the places. The first place is never taken, and the
second one is never given up. -/
structure Sound (s : DenseSlots) : Prop where
  blank : s.slots[0]? = some none
  rooted : ∃ e, s.slots[1]? = some (some e)
  bounded : s.slots.size ≤ 2 ^ 32
  distinct : s.free.Nodup
  vacant : ∀ place : UInt32,
    place ∈ s.free ↔ 2 ≤ place.toNat ∧ s.slots[place.toNat]? = some none
  counted : s.live + s.free.length + 1 = s.slots.size

theorem Sound.two_le_size {s : DenseSlots} (sound : s.Sound) : 2 ≤ s.slots.size := by
  obtain ⟨e, root⟩ := sound.rooted
  have inside : 1 < s.slots.size := (Array.getElem?_eq_some_iff.mp root).1
  omega

/-- Without free places the array is as long as there are entries, the first place included. -/
theorem Sound.size_lt {s : DenseSlots} (sound : s.Sound) (room : s.live ≤ 2 ^ 32 - 3)
    (full : s.free = []) : s.slots.size < 2 ^ 32 - 1 := by
  have counted := sound.counted
  rw [full, List.length_nil] at counted
  omega

theorem get?_eq_some_iff (s : DenseSlots) (h : Handle) (e : Entry) :
    s.get? h = some e ↔ s.slots[h.raw.toNat]? = some (some e) := by
  simp only [get?, Option.join_eq_some_iff]

theorem get?_eq_none_of_vacant (s : DenseSlots) (h : Handle)
    (vacant : s.slots[h.raw.toNat]? = some none) : s.get? h = none := by
  simp only [get?, vacant, Option.join_some]

theorem Sound.get?_invalid {s : DenseSlots} (sound : s.Sound) : s.get? .invalid = none :=
  get?_eq_none_of_vacant s .invalid sound.blank

/-- A place within the array can be read back after it is written, and no other one changes. -/
theorem get?_setIfInBounds (s t : DenseSlots) (h : Handle) (x : Option Entry)
    (inside : h.raw.toNat < s.slots.size)
    (written : t.slots = s.slots.setIfInBounds h.raw.toNat x) :
    t.get? = Function.update s.get? h x := by
  funext k
  rw [Function.update_apply, get?, written, Array.getElem?_setIfInBounds]
  by_cases same : k = h
  · subst same
    simp only [inside, ↓reduceIte, Option.join_some]
  · have apart : h.raw.toNat ≠ k.raw.toNat := fun equal => same (Handle.ext_toNat k h equal.symm)
    simp only [same, apart, ↓reduceIte, get?]

theorem allocate_of_free (s : DenseSlots) (e : Entry) (place : UInt32) (rest : List UInt32)
    (free : s.free = place :: rest) :
    s.allocate e =
      (⟨place⟩,
        { slots := s.slots.setIfInBounds place.toNat (some e), free := rest, live := s.live + 1 }) := by
  simp only [allocate, free]

theorem allocate_of_full (s : DenseSlots) (e : Entry) (full : s.free = []) :
    s.allocate e =
      (⟨.ofNat s.slots.size⟩, { s with slots := s.slots.push (some e), live := s.live + 1 }) := by
  simp only [allocate, full]

/-- An entry that is put behind all others is found under the handle of that place, if there is one. -/
theorem get?_allocate_of_full (s : DenseSlots) (e : Entry) (full : s.free = [])
    (room : s.slots.size < 2 ^ 32) :
    (s.allocate e).2.get? = Function.update s.get? (s.allocate e).1 (some e) := by
  have place : (UInt32.ofNat s.slots.size).toNat = s.slots.size := UInt32.toNat_ofNat_of_lt' room
  rw [allocate_of_full s e full]
  funext k
  rw [Function.update_apply, get?, Array.getElem?_push]
  by_cases same : k = ⟨.ofNat s.slots.size⟩
  · subst same
    simp only [place, ↓reduceIte, Option.join_some]
  · have apart : k.raw.toNat ≠ s.slots.size :=
      fun equal => same (Handle.ext_toNat k _ (equal.trans place.symm))
    simp only [same, apart, ↓reduceIte, get?]

/-- The place that is handed out was dynamic and had no entry. -/
theorem Sound.allocate_fresh {s : DenseSlots} (sound : s.Sound) (room : s.live ≤ 2 ^ 32 - 3)
    (e : Entry) : 2 ≤ (s.allocate e).1.raw.toNat ∧ s.get? (s.allocate e).1 = none := by
  cases free : s.free with
  | nil =>
    have size := sound.size_lt room free
    have place : (UInt32.ofNat s.slots.size).toNat = s.slots.size :=
      UInt32.toNat_ofNat_of_lt' (by simp only [UInt32.size]; omega)
    rw [allocate_of_full s e free]
    constructor
    · show 2 ≤ (UInt32.ofNat s.slots.size).toNat
      rw [place]
      exact sound.two_le_size
    · simp only [get?, place, Array.getElem?_size, Option.join_none]
  | cons place rest =>
    obtain ⟨dynamic, vacant⟩ := (sound.vacant place).mp (by simp [free])
    rw [allocate_of_free s e place rest free]
    exact ⟨dynamic, get?_eq_none_of_vacant s ⟨place⟩ vacant⟩

theorem Sound.get?_allocate {s : DenseSlots} (sound : s.Sound) (room : s.live ≤ 2 ^ 32 - 3)
    (e : Entry) :
    (s.allocate e).2.get? = Function.update s.get? (s.allocate e).1 (some e) := by
  cases free : s.free with
  | nil =>
    have size := sound.size_lt room free
    exact get?_allocate_of_full s e free (by omega)
  | cons place rest =>
    obtain ⟨_, vacant⟩ := (sound.vacant place).mp (by simp [free])
    rw [allocate_of_free s e place rest free]
    exact get?_setIfInBounds s _ ⟨place⟩ (some e) (Array.getElem?_eq_some_iff.mp vacant).1 rfl

theorem Sound.allocate {s : DenseSlots} (sound : s.Sound) (room : s.live ≤ 2 ^ 32 - 3)
    (e : Entry) : (s.allocate e).2.Sound := by
  obtain ⟨root, rooted⟩ := sound.rooted
  have counted := sound.counted
  have two := sound.two_le_size
  cases free : s.free with
  | nil =>
    have size := sound.size_lt room free
    rw [allocate_of_full s e free]
    refine
      { blank := ?_
        rooted := ⟨root, ?_⟩
        bounded := ?_
        distinct := sound.distinct
        vacant := fun place => ?_
        counted := ?_ }
    · simp only [Array.getElem?_push, sound.blank]
      exact if_neg (by omega)
    · simp only [Array.getElem?_push, rooted]
      exact if_neg (by omega)
    · simp only [Array.size_push]
      omega
    · rw [sound.vacant place, Array.getElem?_push]
      by_cases last : place.toNat = s.slots.size
      · simp [last]
      · simp only [last, ↓reduceIte]
    · simp only [Array.size_push]
      omega
  | cons place rest =>
    obtain ⟨dynamic, vacant⟩ := (sound.vacant place).mp (by simp [free])
    have distinct := sound.distinct
    rw [free] at distinct counted
    obtain ⟨absent, distinct⟩ := List.nodup_cons.mp distinct
    rw [allocate_of_free s e place rest free]
    refine
      { blank := ?_
        rooted := ⟨root, ?_⟩
        bounded := ?_
        distinct
        vacant := fun other => ?_
        counted := ?_ }
    · simp only [Array.getElem?_setIfInBounds, sound.blank]
      exact if_neg (by omega)
    · simp only [Array.getElem?_setIfInBounds, rooted]
      exact if_neg (by omega)
    · simpa only [Array.size_setIfInBounds] using sound.bounded
    · have former := sound.vacant other
      rw [free, List.mem_cons] at former
      simp only [Array.getElem?_setIfInBounds]
      by_cases same : other = place
      · subst same
        simp [absent]
      · have apart : place.toNat ≠ other.toNat :=
          fun equal => same (UInt32.toNat_inj.mp equal.symm)
        simp only [apart, ↓reduceIte, ← former, same, false_or]
    · simp only [Array.size_setIfInBounds, List.length_cons] at counted ⊢
      omega

@[simp] theorem live_allocate (s : DenseSlots) (e : Entry) :
    (s.allocate e).2.live = s.live + 1 := by
  unfold DenseSlots.allocate
  split <;> rfl

theorem get?_set (s : DenseSlots) (h : Handle) (e : Entry) (former : Entry)
    (taken : s.get? h = some former) : (s.set h e).get? = Function.update s.get? h (some e) := by
  have inside := (Array.getElem?_eq_some_iff.mp ((get?_eq_some_iff s h former).mp taken)).1
  exact get?_setIfInBounds s _ h (some e) inside rfl

theorem Sound.set {s : DenseSlots} (sound : s.Sound) (h : Handle) (e former : Entry)
    (taken : s.get? h = some former) : (s.set h e).Sound := by
  have held := (get?_eq_some_iff s h former).mp taken
  have inside := (Array.getElem?_eq_some_iff.mp held).1
  obtain ⟨root, rooted⟩ := sound.rooted
  have positive : h.raw.toNat ≠ 0 := by
    intro zero
    rw [zero, sound.blank] at held
    simp at held
  refine
    { blank := ?_
      rooted := ?_
      bounded := ?_
      distinct := sound.distinct
      vacant := fun place => ?_
      counted := ?_ }
  · simp only [DenseSlots.set, Array.getElem?_setIfInBounds, positive, ↓reduceIte, sound.blank]
  · simp only [DenseSlots.set, Array.getElem?_setIfInBounds]
    by_cases first : h.raw.toNat = 1
    · exact ⟨e, by simp [first, first ▸ inside]⟩
    · exact ⟨root, by simp only [first, ↓reduceIte, rooted]⟩
  · simpa only [DenseSlots.set, Array.size_setIfInBounds] using sound.bounded
  · simp only [DenseSlots.set, sound.vacant place, Array.getElem?_setIfInBounds]
    by_cases same : h.raw.toNat = place.toNat
    · rw [← same, held]
      simp [inside]
    · simp only [same, ↓reduceIte]
  · simpa only [DenseSlots.set, Array.size_setIfInBounds] using sound.counted

theorem remove_of_taken (s : DenseSlots) (h : Handle) (e : Entry) (taken : s.get? h = some e)
    (dynamic : 2 ≤ h.raw.toNat) :
    s.remove h =
      { slots := s.slots.setIfInBounds h.raw.toNat none, free := h.raw :: s.free,
        live := s.live - 1 } := by
  have least : Handle.firstDynamic ≤ h.raw := UInt32.le_iff_toNat_le.mpr dynamic
  simp only [remove, taken, least, ↓reduceIte]

theorem get?_remove (s : DenseSlots) (h : Handle) (e : Entry) (taken : s.get? h = some e)
    (dynamic : 2 ≤ h.raw.toNat) : (s.remove h).get? = Function.update s.get? h none := by
  have inside := (Array.getElem?_eq_some_iff.mp ((get?_eq_some_iff s h e).mp taken)).1
  rw [remove_of_taken s h e taken dynamic]
  exact get?_setIfInBounds s _ h none inside rfl

theorem Sound.remove {s : DenseSlots} (sound : s.Sound) (h : Handle) (e : Entry)
    (taken : s.get? h = some e) (dynamic : 2 ≤ h.raw.toNat) (some_live : 0 < s.live) :
    (s.remove h).Sound := by
  have held := (get?_eq_some_iff s h e).mp taken
  have inside := (Array.getElem?_eq_some_iff.mp held).1
  obtain ⟨root, rooted⟩ := sound.rooted
  have occupied : h.raw ∉ s.free := by
    intro member
    have vacant := ((sound.vacant h.raw).mp member).2
    rw [held] at vacant
    simp at vacant
  rw [remove_of_taken s h e taken dynamic]
  refine
    { blank := ?_
      rooted := ⟨root, ?_⟩
      bounded := ?_
      distinct := List.nodup_cons.mpr ⟨occupied, sound.distinct⟩
      vacant := fun place => ?_
      counted := ?_ }
  · simp only [Array.getElem?_setIfInBounds, sound.blank]
    exact if_neg (by omega)
  · simp only [Array.getElem?_setIfInBounds, rooted]
    exact if_neg (by omega)
  · simpa only [Array.size_setIfInBounds] using sound.bounded
  · simp only [List.mem_cons, sound.vacant place, Array.getElem?_setIfInBounds]
    by_cases same : place = h.raw
    · subst same
      simp [inside, dynamic]
    · have apart : h.raw.toNat ≠ place.toNat :=
        fun equal => same (UInt32.toNat_inj.mp equal.symm)
      simp only [same, apart, ↓reduceIte, false_or]
  · have counted := sound.counted
    simp only [Array.size_setIfInBounds, List.length_cons]
    omega

/-- The slots of a table that holds the global object alone. -/
theorem install_globalObject (e : Entry) :
    empty.install .globalObject e = { slots := #[none, some e], free := [], live := 1 } := by
  rfl

theorem install_globalObject_sound (e : Entry) : (empty.install .globalObject e).Sound := by
  rw [install_globalObject e]
  refine ⟨rfl, ⟨e, rfl⟩, by simp, List.nodup_nil, ?_, rfl⟩
  intro place
  simp only [List.not_mem_nil, false_iff, not_and]
  intro dynamic
  simp [show ¬ place.toNat < 2 by omega]

end DenseSlots

end Membrane
