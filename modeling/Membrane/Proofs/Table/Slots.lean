import Membrane.Config
import Membrane.Proofs.Table.SparseSlots
/-!
What both layouts of slots have in common: each operation changes the entry of one handle, a fresh
handle had no entry, and the size counts the handles that have one.
-/

set_option autoImplicit false

namespace Membrane.Slots

/-- The handles that have an entry. -/
def handles (s : Slots) : Set Handle := { h | (s.get? h).isSome }

/-- The layout of the slots is in order. -/
def InOrder : Slots → Prop
  | .dense s => s.Sound
  | .sparse s => s.Sound

structure Sound (s : Slots) : Prop where
  inOrder : s.InOrder
  counted : s.size = s.handles.ncard

theorem mem_handles (s : Slots) (h : Handle) : h ∈ s.handles ↔ (s.get? h).isSome := Iff.rfl

instance : Finite Handle :=
  Finite.of_injective (fun h : Handle => (⟨h.raw.toNat, h.raw.toNat_lt⟩ : Fin (2 ^ 32)))
    fun h k same => Handle.ext_toNat h k (congrArg Fin.val same)

/-- Of all dynamic handles two are left when an entry is added. -/
def HasRoom (s : Slots) : Prop := s.size ≤ 2 ^ 32 - 3

theorem HasRoom.sparse {s : SparseSlots} (room : (Slots.sparse s).HasRoom) :
    s.entries.size < SparseSlots.roundLength := by
  simp only [HasRoom, size] at room
  simp only [SparseSlots.roundLength]
  omega

theorem Sound.get?_invalid {s : Slots} (sound : s.Sound) : s.get? .invalid = none := by
  obtain ⟨inOrder, _⟩ := sound
  cases s with
  | dense s => exact DenseSlots.Sound.get?_invalid inOrder
  | sparse s => exact Std.HashMap.getElem?_eq_none (SparseSlots.Sound.blank inOrder)

theorem Sound.dynamic {s : Slots} (sound : s.Sound) (h : Handle) (taken : (s.get? h).isSome)
    (other : h ≠ .globalObject) : 2 ≤ h.raw.toNat := by
  by_contra small
  have valid : h ≠ .invalid := by
    rintro rfl
    rw [sound.get?_invalid] at taken
    simp at taken
  have nonzero : h.raw.toNat ≠ 0 := fun zero => valid (Handle.ext_toNat h .invalid zero)
  have one : h.raw.toNat ≠ 1 := fun one => other (Handle.ext_toNat h .globalObject one)
  omega

theorem handles_of_get?_update (s t : Slots) (h : Handle) (e : Entry)
    (changed : t.get? = Function.update s.get? h (some e)) : t.handles = insert h s.handles := by
  ext k
  rw [mem_handles, changed, Function.update_apply, Set.mem_insert_iff, mem_handles]
  by_cases same : k = h <;> simp [same]

theorem handles_of_get?_erase (s t : Slots) (h : Handle)
    (changed : t.get? = Function.update s.get? h none) : t.handles = s.handles \ {h} := by
  ext k
  rw [mem_handles, changed, Function.update_apply, Set.mem_sdiff, Set.mem_singleton_iff, mem_handles]
  by_cases same : k = h <;> simp [same]

/-- An entry that is put in is one handle more, unless the handle had one. -/
theorem ncard_handles_update (s t : Slots) (h : Handle) (e : Entry)
    (changed : t.get? = Function.update s.get? h (some e)) :
    t.handles.ncard = s.handles.ncard + if (s.get? h).isSome then 0 else 1 := by
  rw [handles_of_get?_update s t h e changed]
  cases taken : (s.get? h).isSome with
  | true =>
    have member : h ∈ s.handles := (mem_handles s h).mpr taken
    rw [Set.insert_eq_of_mem member]
    rfl
  | false =>
    have absent : h ∉ s.handles := by
      rw [mem_handles]
      exact Bool.eq_false_iff.mp taken
    exact Set.ncard_insert_of_notMem absent

/-- An entry that is taken out is one handle less, if it was there. -/
theorem ncard_handles_erase (s t : Slots) (h : Handle)
    (changed : t.get? = Function.update s.get? h none) :
    t.handles.ncard + (if (s.get? h).isSome then 1 else 0) = s.handles.ncard := by
  rw [handles_of_get?_erase s t h changed]
  cases taken : (s.get? h).isSome with
  | true => exact Set.ncard_sdiff_singleton_add_one ((mem_handles s h).mpr taken)
  | false =>
    have absent : h ∉ s.handles := by
      rw [mem_handles]
      exact Bool.eq_false_iff.mp taken
    rw [Set.sdiff_singleton_eq_self absent]
    rfl

theorem Sound.allocate_fresh {s : Slots} (sound : s.Sound) (room : s.HasRoom) (e : Entry) :
    2 ≤ (s.allocate e).1.raw.toNat ∧ s.get? (s.allocate e).1 = none := by
  obtain ⟨inOrder, _⟩ := sound
  cases s with
  | dense s => exact DenseSlots.Sound.allocate_fresh inOrder room e
  | sparse s => exact SparseSlots.Sound.allocate_fresh inOrder e

theorem Sound.get?_allocate {s : Slots} (sound : s.Sound) (room : s.HasRoom) (e : Entry) :
    (s.allocate e).2.get? = Function.update s.get? (s.allocate e).1 (some e) := by
  obtain ⟨inOrder, _⟩ := sound
  cases s with
  | dense s => exact DenseSlots.Sound.get?_allocate inOrder room e
  | sparse s => exact SparseSlots.get?_allocate s e

theorem Sound.size_allocate {s : Slots} (sound : s.Sound) (e : Entry) :
    (s.allocate e).2.size = s.size + 1 := by
  obtain ⟨inOrder, _⟩ := sound
  cases s with
  | dense s => exact DenseSlots.live_allocate s e
  | sparse s => exact SparseSlots.Sound.size_allocate inOrder e

theorem Sound.allocate {s : Slots} (sound : s.Sound) (room : s.HasRoom) (e : Entry) :
    (s.allocate e).2.Sound := by
  refine ⟨?_, ?_⟩
  · obtain ⟨inOrder, _⟩ := sound
    cases s with
    | dense s => exact DenseSlots.Sound.allocate inOrder room e
    | sparse s => exact SparseSlots.Sound.allocate inOrder room.sparse e
  · rw [sound.size_allocate, ncard_handles_update s _ _ e (sound.get?_allocate room e),
      (sound.allocate_fresh room e).2, sound.counted]
    rfl

theorem get?_setRefcount (s : Slots) (h : Handle) (e : Entry) (n : UInt32)
    (taken : s.get? h = some e) :
    (s.setRefcount h n).get? = Function.update s.get? h (some { e with refcount := n }) := by
  rw [setRefcount, taken]
  cases s with
  | dense s => exact DenseSlots.get?_set s h _ e taken
  | sparse s => exact SparseSlots.get?_insert s _ h _ rfl

theorem size_setRefcount (s : Slots) (h : Handle) (n : UInt32) :
    (s.setRefcount h n).size = s.size := by
  unfold setRefcount
  split
  · rfl
  · rename_i e taken
    cases s with
    | dense s => rfl
    | sparse s => exact SparseSlots.size_install s h _ e taken

theorem Sound.setRefcount {s : Slots} (sound : s.Sound) (h : Handle) (e : Entry) (n : UInt32)
    (taken : s.get? h = some e) : (s.setRefcount h n).Sound := by
  refine ⟨?_, ?_⟩
  · obtain ⟨inOrder, _⟩ := sound
    rw [Slots.setRefcount, taken]
    cases s with
    | dense s => exact DenseSlots.Sound.set inOrder h _ e taken
    | sparse s => exact SparseSlots.Sound.install inOrder h _ e taken
  · rw [size_setRefcount, ncard_handles_update s _ h _ (get?_setRefcount s h e n taken), taken,
      sound.counted]
    rfl

theorem get?_remove (s : Slots) (h : Handle) (e : Entry) (taken : s.get? h = some e)
    (dynamic : 2 ≤ h.raw.toNat) : (s.remove h).get? = Function.update s.get? h none := by
  cases s with
  | dense s => exact DenseSlots.get?_remove s h e taken dynamic
  | sparse s => exact SparseSlots.get?_remove s h

theorem size_remove (s : Slots) (h : Handle) (e : Entry) (taken : s.get? h = some e)
    (dynamic : 2 ≤ h.raw.toNat) : (s.remove h).size = s.size - 1 := by
  cases s with
  | dense s =>
    have result := DenseSlots.remove_of_taken s h e taken dynamic
    exact congrArg DenseSlots.live result
  | sparse s =>
    have member : h.raw ∈ s.entries := by
      rw [Std.HashMap.mem_iff_isSome_getElem?]
      change (s.get? h).isSome
      change s.get? h = some e at taken
      simp [taken]
    show (s.entries.erase h.raw).size = s.entries.size - 1
    rw [Std.HashMap.size_erase, if_pos member]

theorem Sound.remove {s : Slots} (sound : s.Sound) (h : Handle) (e : Entry)
    (taken : s.get? h = some e) (dynamic : 2 ≤ h.raw.toNat) : (s.remove h).Sound := by
  have fewer := ncard_handles_erase s _ h (get?_remove s h e taken dynamic)
  rw [taken, Option.isSome_some, if_pos rfl, ← sound.counted] at fewer
  have positive : 0 < s.size := fewer ▸ Nat.succ_pos _
  refine ⟨?_, ?_⟩
  · obtain ⟨inOrder, _⟩ := sound
    cases s with
    | dense s => exact DenseSlots.Sound.remove inOrder h e taken dynamic positive
    | sparse s => exact SparseSlots.Sound.remove inOrder h dynamic
  · rw [size_remove s h e taken dynamic, ← fewer]
    rfl

/-- The slots that a table starts with. -/
def rooted (layout : Layout) (e : Entry) : Slots :=
  match layout with
  | .dense => (Slots.dense .empty).install .globalObject e
  | .sparse => (Slots.sparse .empty).install .globalObject e

theorem get?_rooted (layout : Layout) (e : Entry) (h : Handle) :
    (rooted layout e).get? h = if h = .globalObject then some e else none := by
  cases layout with
  | dense =>
    show (DenseSlots.empty.install .globalObject e).get? h = _
    rw [DenseSlots.install_globalObject, DenseSlots.get?]
    by_cases root : h = .globalObject
    · subst root
      simp [Handle.globalObject]
    · have apart : h.raw.toNat ≠ 1 := fun one => root (Handle.ext_toNat h .globalObject one)
      rw [if_neg root]
      by_cases zero : h.raw.toNat = 0
      · simp [zero]
      · have outside : (#[none, some e] : Array (Option Entry)).size ≤ h.raw.toNat := by
          simp only [List.size_toArray, List.length_cons, List.length_nil]
          omega
        rw [Array.getElem?_eq_none outside, Option.join_none]
  | sparse =>
    show ((∅ : Std.HashMap UInt32 Entry).insert Handle.globalObject.raw e)[h.raw]? = _
    rw [Std.HashMap.getElem?_insert, Std.HashMap.getElem?_empty]
    by_cases root : h = .globalObject
    · subst root
      simp
    · have apart : Handle.globalObject.raw ≠ h.raw :=
        fun equal => root (congrArg Handle.mk equal.symm)
      simp [root, apart]

theorem rooted_sound (layout : Layout) (e : Entry) : (rooted layout e).Sound := by
  have only : (rooted layout e).handles = {.globalObject} := by
    ext h
    rw [mem_handles, get?_rooted, Set.mem_singleton_iff]
    by_cases root : h = .globalObject <;> simp [root]
  refine ⟨?_, ?_⟩
  · cases layout with
    | dense => exact DenseSlots.install_globalObject_sound e
    | sparse => exact SparseSlots.install_globalObject_sound e
  · rw [only, Set.ncard_singleton]
    cases layout with
    | dense => rfl
    | sparse =>
      show ((∅ : Std.HashMap UInt32 Entry).insert Handle.globalObject.raw e).size = 1
      rw [Std.HashMap.size_insert, if_neg Std.HashMap.not_mem_empty, Std.HashMap.size_empty]

end Membrane.Slots
