import Membrane.Table.RefTable
import Membrane.Proofs.World.Realm
/-!
The values that a table of references holds. What is read at a handle is one of them, and only a
value that is retained becomes one.
-/

set_option autoImplicit false

namespace Membrane

namespace Slots

/-- Whether some slot has an entry with a value. -/
def Holds (s : Slots) (v : Host.Value) : Prop :=
  match s with
  | .dense s => ∃ (i : Nat) (e : Entry), s.slots[i]? = some (some e) ∧ e.value = v
  | .sparse s => ∃ (i : UInt32) (e : Entry), s.entries[i]? = some e ∧ e.value = v

theorem holds_of_get? (s : Slots) (h : Handle) (e : Entry) (found : s.get? h = some e) :
    s.Holds e.value := by
  cases s with
  | dense s => exact ⟨_, e, Option.join_eq_some_iff.mp found, rfl⟩
  | sparse s => exact ⟨_, e, found, rfl⟩

variable {s : Slots} {v : Host.Value}

theorem holds_of_setRefcount (h : Handle) (n : UInt32) (held : (s.setRefcount h n).Holds v) :
    s.Holds v := by
  unfold setRefcount at held
  cases found : s.get? h with
  | none =>
    rw [found] at held
    exact held
  | some e =>
    rw [found] at held
    cases s with
    | dense s =>
      obtain ⟨i, e', there, rfl⟩ := held
      simp only [DenseSlots.set, Array.getElem?_setIfInBounds] at there
      split at there
      · split at there
        · cases there
          exact holds_of_get? (.dense s) h e found
        · cases there
      · exact ⟨i, e', there, rfl⟩
    | sparse s =>
      obtain ⟨i, e', there, rfl⟩ := held
      simp only [SparseSlots.install, Std.HashMap.getElem?_insert] at there
      split at there
      · cases there
        exact holds_of_get? (.sparse s) h e found
      · exact ⟨i, e', there, rfl⟩

theorem holds_of_allocate (e : Entry) (held : (s.allocate e).2.Holds v) : v = e.value ∨ s.Holds v := by
  cases s with
  | dense s =>
    obtain ⟨i, e', there, rfl⟩ := held
    split at there
    · simp only [Array.getElem?_setIfInBounds] at there
      split at there
      · split at there
        · cases there
          exact Or.inl rfl
        · cases there
      · exact Or.inr ⟨i, e', there, rfl⟩
    · simp only [Array.getElem?_push] at there
      split at there
      · cases there
        exact Or.inl rfl
      · exact Or.inr ⟨i, e', there, rfl⟩
  | sparse s =>
    obtain ⟨i, e', there, rfl⟩ := held
    simp only [Std.HashMap.getElem?_insert] at there
    split at there
    · cases there
      exact Or.inl rfl
    · exact Or.inr ⟨i, e', there, rfl⟩

theorem holds_of_remove (h : Handle) (held : (s.remove h).Holds v) : s.Holds v := by
  cases s with
  | dense s =>
    obtain ⟨i, e', there, rfl⟩ := held
    unfold DenseSlots.remove at there
    split at there
    · exact ⟨i, e', there, rfl⟩
    · simp only [Array.getElem?_setIfInBounds] at there
      split at there
      · split at there <;> cases there
      · exact ⟨i, e', there, rfl⟩
  | sparse s =>
    obtain ⟨i, e', there, rfl⟩ := held
    simp only [SparseSlots.remove, Std.HashMap.getElem?_erase] at there
    split at there
    · cases there
    · exact ⟨i, e', there, rfl⟩

end Slots

namespace RefTable

variable {t : RefTable} {v : Host.Value}

theorem mem_values_iff : v ∈ t.values ↔ t.slots.Holds v := by
  rw [values]
  cases t.slots with
  | dense s =>
    simp only [Slots.Holds, List.mem_filterMap, Option.map_eq_some_iff, Array.mem_toList_iff,
      Array.mem_iff_getElem?]
    constructor
    · rintro ⟨_, ⟨i, there⟩, e, rfl, same⟩
      exact ⟨i, e, there, same⟩
    · rintro ⟨i, e, there, same⟩
      exact ⟨_, ⟨i, there⟩, e, rfl, same⟩
  | sparse s =>
    simp only [Slots.Holds, List.mem_map, Prod.exists, Std.HashMap.mem_toList_iff_getElem?_eq_some]

theorem mem_values_of_get (h : Handle) (read : t.get h = .ok v) : v ∈ t.values := by
  rw [get] at read
  cases found : t.find? h with
  | none =>
    rw [found] at read
    cases read
  | some e =>
    rw [found] at read
    cases read
    exact mem_values_iff.mpr (t.slots.holds_of_get? h e found)

theorem mem_values_of_retain (u : Host.Value) (held : v ∈ (t.retain u).2.values) :
    v = u ∨ v ∈ t.values := by
  rw [mem_values_iff] at held ⊢
  unfold retain at held
  split at held
  · exact Or.inr (Slots.holds_of_setRefcount _ _ held)
  · exact Slots.holds_of_allocate ⟨u, 1⟩ held

theorem mem_values_of_retainHandle {t' : RefTable} (h : Handle) (done : t.retainHandle h = .ok t')
    (held : v ∈ t'.values) : v ∈ t.values := by
  rw [mem_values_iff] at held ⊢
  unfold retainHandle at done
  split at done
  · cases done
    exact Slots.holds_of_setRefcount _ _ held
  · cases done

theorem mem_values_of_release {t' : RefTable} (h : Handle) (done : t.release h = .ok t')
    (held : v ∈ t'.values) : v ∈ t.values := by
  rw [mem_values_iff] at held ⊢
  unfold release at done
  split at done
  · cases done
  · split at done
    · cases done
      exact Slots.holds_of_setRefcount _ _ held
    · cases done
      exact Slots.holds_of_remove _ held

theorem mem_values_of_releaseQuietly (h : Handle) (held : v ∈ (t.releaseQuietly h).values) :
    v ∈ t.values := by
  unfold releaseQuietly at held
  cases done : t.release h with
  | ok t' =>
    rw [done] at held
    exact mem_values_of_release h done held
  | error e =>
    rw [done] at held
    exact held

theorem mem_values_of_foldl_releaseQuietly (hs : List Handle)
    (held : v ∈ (hs.foldl releaseQuietly t).values) : v ∈ t.values := by
  induction hs generalizing t with
  | nil => exact held
  | cons h hs ih => exact mem_values_of_releaseQuietly h (ih held)

end RefTable

end Membrane
