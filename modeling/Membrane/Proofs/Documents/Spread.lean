import Membrane.Json.Basic
import Membrane.Proofs.Number.Rounding
/-!
What a document becomes when it is stored as host values and read back. An array is spread out into
an object with a key for each place and one for the length, and each number is the floating one. The
keys of an array are apart from each other, so nothing is lost.
-/

set_option autoImplicit false

namespace Membrane

/-- What a text can hold: a whole number that fits into 64 bits, or a finite one. -/
def Numeral.WellFormed : Numeral → Prop
  | .whole n => -2 ^ 63 ≤ n ∧ n < 2 ^ 64
  | .real x => x.isFinite = true

namespace Json

/-- The keys of an object, each once and in ascending order. -/
def Ascending (fields : List (String × Json)) : Prop :=
  fields.Pairwise fun former later => former.1 < later.1

mutual

/-- A document as it is read from a text. -/
def WellFormed : Json → Prop
  | .null | .bool _ | .string _ => True
  | .number n => n.WellFormed
  | .array items => items.length < 2 ^ 64 ∧ ItemsWellFormed items
  | .object fields => Ascending fields ∧ FieldsWellFormed fields

def ItemsWellFormed : List Json → Prop
  | [] => True
  | item :: rest => item.WellFormed ∧ ItemsWellFormed rest

def FieldsWellFormed : List (String × Json) → Prop
  | [] => True
  | (_, value) :: rest => value.WellFormed ∧ FieldsWellFormed rest

end

mutual

/-- The document with floating numbers and without arrays. -/
def spread : Json → Json
  | .null => .null
  | .bool b => .bool b
  | .number n => .number (.real n.toNumber)
  | .string s => .string s
  | .array items =>
    .ofFields (spreadItems 0 items ++ [("length", .number (.real (.ofNat items.length)))])
  | .object fields => .object (spreadFields fields)

/-- The items of an array under their places. -/
def spreadItems (place : Nat) : List Json → List (String × Json)
  | [] => []
  | item :: rest => (toString place, item.spread) :: spreadItems (place + 1) rest

def spreadFields : List (String × Json) → List (String × Json)
  | [] => []
  | (key, value) :: rest => (key, value.spread) :: spreadFields rest

end

end Json

/-- Where names are in order, what a name leads to is what stands beside it. -/
theorem lookup_eq_some_iff_mem {α : Type} {entries : List (String × α)}
    (ascending : (entries.map (·.1)).Pairwise (· < ·)) (name : String) (a : α) :
    entries.lookup name = some a ↔ (name, a) ∈ entries := by
  rw [List.lookup_eq_some_iff]
  constructor
  · rintro ⟨former, later, rfl, -⟩
    exact List.mem_append_right _ List.mem_cons_self
  · intro mem
    obtain ⟨former, later, rfl⟩ := List.append_of_mem mem
    refine ⟨former, later, rfl, fun p before => bne_iff_ne.mpr ?_⟩
    rw [List.map_append, List.pairwise_append] at ascending
    have below := ascending.2.2 p.1 (List.mem_map_of_mem before) name List.mem_cons_self
    rintro rfl
    exact String.lt_irrefl _ below

/-- The floating number of a numeral is finite. -/
theorem Numeral.isFinite_toNumber {n : Numeral} (fits : n.WellFormed) :
    n.toNumber.isFinite = true := by
  cases n with
  | real x => exact fits
  | whole n =>
    have bounds : -2 ^ 63 ≤ n ∧ n < 2 ^ 64 := fits
    have short : n.natAbs < 2 ^ 64 := by omega
    exact Number.isFinite_ofRatio _ _ (Number.log2_small short (by decide))

namespace Json

theorem ascending_iff (fields : List (String × Json)) :
    Ascending fields ↔ (fields.map (·.1)).Pairwise (· < ·) := List.pairwise_map.symm

theorem mem_insertField (key : String) (value : Json) (fields : List (String × Json))
    (p : String × Json) (mem : p ∈ insertField key value fields) :
    p = (key, value) ∨ p ∈ fields := by
  induction fields with
  | nil => exact .inl (List.mem_singleton.mp mem)
  | cons entry rest ih =>
    rw [insertField] at mem
    split at mem
    · exact List.mem_cons.mp mem
    · split at mem
      · exact (List.mem_cons.mp mem).imp_right (List.mem_cons_of_mem _)
      · rcases List.mem_cons.mp mem with rfl | mem
        · exact .inr List.mem_cons_self
        · exact (ih mem).imp_right (List.mem_cons_of_mem _)

/-- A field that is put in its place leaves the order as it was. -/
theorem insertField_ascending (key : String) (value : Json) (fields : List (String × Json))
    (ascending : Ascending fields) : Ascending (insertField key value fields) := by
  induction fields with
  | nil => exact List.pairwise_singleton _ _
  | cons entry rest ih =>
    obtain ⟨k, v⟩ := entry
    obtain ⟨first, others⟩ := List.pairwise_cons.mp ascending
    rw [insertField]
    split
    · next below =>
      refine List.pairwise_cons.mpr ⟨fun p mem => ?_, ascending⟩
      rcases List.mem_cons.mp mem with rfl | mem
      · exact below
      · exact String.lt_trans below (first p mem)
    · next notBelow =>
      split
      · next same =>
        subst same
        exact List.pairwise_cons.mpr ⟨first, others⟩
      · next apart =>
        refine List.pairwise_cons.mpr ⟨fun p mem => ?_, ih others⟩
        rcases mem_insertField key value rest p mem with rfl | mem
        · exact Decidable.byContradiction fun notAbove =>
            apart (String.le_antisymm (String.not_lt.mp notAbove) (String.not_lt.mp notBelow))
        · exact first p mem

/-- A key that was not there comes beside the others. -/
theorem insertField_perm (key : String) (value : Json) (fields : List (String × Json))
    (fresh : ∀ p ∈ fields, p.1 ≠ key) :
    (insertField key value fields).Perm ((key, value) :: fields) := by
  induction fields with
  | nil => exact .refl _
  | cons entry rest ih =>
    have apart : ¬ key = entry.1 := fun same => fresh entry List.mem_cons_self same.symm
    rw [insertField, if_neg apart]
    split
    · exact .refl _
    · exact ((ih fun p mem => fresh p (List.mem_cons_of_mem _ mem)).cons _).trans (.swap ..)

/-- A key above all others goes to the end. -/
theorem insertField_last (key : String) (value : Json) (fields : List (String × Json))
    (last : ∀ p ∈ fields, p.1 < key) :
    insertField key value fields = fields ++ [(key, value)] := by
  induction fields with
  | nil => rfl
  | cons entry rest ih =>
    obtain ⟨k, v⟩ := entry
    have below : k < key := last (k, v) List.mem_cons_self
    have apart : ¬ key = k := by
      rintro rfl
      exact String.lt_irrefl _ below
    rw [insertField, if_neg (String.lt_asymm below), if_neg apart,
      ih fun p mem => last p (List.mem_cons_of_mem _ mem), List.cons_append]

/-- The fields of an object, gathered one after the other. -/
def gathered (acc fields : List (String × Json)) : List (String × Json) :=
  fields.foldl (fun acc (k, v) => insertField k v acc) acc

/-- Fields whose keys are apart are all kept, in ascending order. -/
theorem gathered_perm (acc fields : List (String × Json)) (ascending : Ascending acc)
    (apart : ((acc ++ fields).map (·.1)).Nodup) :
    Ascending (gathered acc fields) ∧ (gathered acc fields).Perm (acc ++ fields) := by
  induction fields generalizing acc with
  | nil => exact ⟨ascending, by rw [List.append_nil]; exact .refl _⟩
  | cons entry rest ih =>
    obtain ⟨key, value⟩ := entry
    have fresh : ∀ p ∈ acc, p.1 ≠ key := by
      rintro p mem rfl
      rw [List.map_append, List.map_cons] at apart
      exact (List.nodup_append.mp apart).2.2 _ (List.mem_map_of_mem mem) _ List.mem_cons_self rfl
    have moved : (insertField key value acc ++ rest).Perm (acc ++ (key, value) :: rest) :=
      ((insertField_perm key value acc fresh).append_right rest).trans List.perm_middle.symm
    obtain ⟨kept, all⟩ := ih (insertField key value acc)
      (insertField_ascending key value acc ascending) ((moved.map _).nodup_iff.mpr apart)
    exact ⟨kept, all.trans moved⟩

/-- Fields that are in order already are kept as they are. -/
theorem gathered_ascending (acc fields : List (String × Json))
    (ascending : Ascending (acc ++ fields)) : gathered acc fields = acc ++ fields := by
  induction fields generalizing acc with
  | nil => rw [List.append_nil]; rfl
  | cons entry rest ih =>
    obtain ⟨key, value⟩ := entry
    have last : ∀ p ∈ acc, p.1 < key := fun p mem =>
      (List.pairwise_append.mp ascending).2.2 p mem (key, value) List.mem_cons_self
    have joined : acc ++ (key, value) :: rest = (acc ++ [(key, value)]) ++ rest := by simp
    rw [joined] at ascending ⊢
    rw [← ih _ ascending, ← insertField_last key value acc last]
    rfl

theorem ofFields_ascending (fields : List (String × Json)) (ascending : Ascending fields) :
    ofFields fields = .object fields :=
  congrArg Json.object (gathered_ascending [] fields ascending)

theorem keys_spreadFields (fields : List (String × Json)) :
    (spreadFields fields).map (·.1) = fields.map (·.1) := by
  induction fields with
  | nil => rfl
  | cons entry rest ih => exact congrArg (entry.1 :: ·) ih

/-- Spreading changes no key. -/
theorem spreadFields_ascending {fields : List (String × Json)} (ascending : Ascending fields) :
    Ascending (spreadFields fields) := by
  rw [ascending_iff] at ascending ⊢
  rwa [keys_spreadFields]

/-- The items of an array with the keys that they are stored under. -/
def indexed (place : Nat) : List Json → List (String × Json)
  | [] => []
  | item :: rest => (toString place, item) :: indexed (place + 1) rest

theorem spreadItems_eq (place : Nat) (items : List Json) :
    spreadItems place items = spreadFields (indexed place items) := by
  induction items generalizing place with
  | nil => rfl
  | cons item rest ih => exact congrArg (_ :: ·) (ih (place + 1))

theorem keys_spreadItems (place : Nat) (items : List Json) :
    (spreadItems place items).map (·.1) = (List.range' place items.length).map toString := by
  induction items generalizing place with
  | nil => rfl
  | cons item rest ih => exact congrArg (toString place :: ·) (ih (place + 1))

/-- Numbers are told apart by their digits. -/
theorem toString_injective {m n : Nat} (same : toString m = toString n) : m = n := by
  have digits : Nat.toDigits 10 m = Nat.toDigits 10 n :=
    Nat.toList_repr.symm.trans ((congrArg String.toList same).trans Nat.toList_repr)
  rw [← Nat.ofDigitChars_toDigits (b := 10) (n := m) (by decide) (by decide), digits,
    Nat.ofDigitChars_toDigits (by decide) (by decide)]

theorem toString_ne_length (n : Nat) : toString n ≠ "length" := by
  intro same
  have letters : Nat.toDigits 10 n = "length".toList :=
    Nat.toList_repr.symm.trans (congrArg String.toList same)
  have letter : 'l' ∈ Nat.toDigits 10 n := by
    rw [letters]
    decide
  exact absurd (Nat.isDigit_of_mem_toDigits (by decide) (by decide) letter) (by decide)

/-- The keys of an array that was spread are all different, so each item has its own field. -/
theorem spread_array (items : List Json) :
    ∃ fields, spread (.array items) = .object fields ∧ Ascending fields ∧
      fields.Perm (spreadItems 0 items ++ [("length", .number (.real (.ofNat items.length)))]) := by
  have apart : ((spreadItems 0 items ++
      [("length", Json.number (.real (.ofNat items.length)))]).map (·.1)).Nodup := by
    rw [List.map_append, keys_spreadItems]
    refine List.nodup_append.mpr ⟨?_, List.nodup_singleton _, ?_⟩
    · have counted : (List.range' 0 items.length).Nodup := List.nodup_range'
      exact counted.map fun m n => toString_injective
    · intro key mem other single
      obtain ⟨n, -, rfl⟩ := List.mem_map.mp mem
      rw [List.mem_singleton.mp single]
      exact toString_ne_length n
  obtain ⟨ascending, all⟩ := gathered_perm [] _ List.Pairwise.nil apart
  exact ⟨_, rfl, ascending, all⟩

end Json

end Membrane
