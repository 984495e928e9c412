import Mathlib.Algebra.Group.Nat.Defs
import Membrane.Config
/-!
The texts that settings are read from: words for layouts and flags, whatever their case and the
blanks around them, and counts in decimal digits.
-/

set_option autoImplicit false

namespace Membrane

/-- The words for a layout. -/
def Layout.words : Layout → List String
  | .dense => ["dense", "array"]
  | .sparse => ["sparse", "map"]

theorem Layout.ofText?_eq_some_iff (text : String) (l : Layout) :
    ofText? text = some l ↔ Text.lowered (Text.trim text) ∈ l.words := by
  rw [ofText?]
  split
  all_goals cases l <;> simp_all [words]

namespace Config

/-- The words for a flag. -/
def flagWords : Bool → List String
  | true => ["1", "true", "yes", "on"]
  | false => ["0", "false", "no", "off"]

theorem readFlag_eq_ok_iff (key text : String) (b : Bool) :
    readFlag key text = .ok b ↔ Text.lowered (Text.trim text) ∈ flagWords b := by
  rw [readFlag]
  split
  all_goals cases b <;> simp_all [flagWords]

theorem readFlag_error (key text : String)
    (noWord : ∀ b, Text.lowered (Text.trim text) ∉ flagWords b) :
    readFlag key text = .error ⟨key, .badFlag (Text.lowered (Text.trim text))⟩ := by
  cases read : readFlag key text with
  | ok b => exact absurd ((readFlag_eq_ok_iff key text b).mp read) (noWord b)
  | error e =>
    rw [readFlag] at read
    split at read
    all_goals cases read
    rfl

/-- A text of decimal digits, of which there is at least one, with or without a plus in front, and
the number that it stands for. The number fits into 64 bits. -/
def Counts (text : String) (n : Nat) : Prop :=
  ∃ digits : List Char, digits ≠ [] ∧ (∀ c ∈ digits, c.isDigit = true) ∧
    (text.toList = digits ∨ text.toList = '+' :: digits) ∧
    n = Nat.ofDigitChars 10 digits 0 ∧ n < 2 ^ 64

theorem digit?_eq (c : Char) :
    Numeral.digit? c = if c.isDigit then some (c.toNat - '0'.toNat) else none := by
  rw [Numeral.digit?]
  have same : ('0' ≤ c ∧ c ≤ '9') ↔ c.isDigit = true := by
    simp only [Char.isDigit, Bool.and_eq_true, decide_eq_true_eq]
    rfl
  simp only [same]

/-- Digits are read one by one, and anything else ends the reading without a number. -/
theorem foldlM_digits (digits : List Char) (acc : Nat) :
    digits.foldlM (fun n c => (Numeral.digit? c).map (n * 10 + ·)) acc =
      if digits.all Char.isDigit then some (Nat.ofDigitChars 10 digits acc) else none := by
  induction digits generalizing acc with
  | nil => rfl
  | cons c rest ih =>
    rw [List.foldlM_cons, digit?_eq, List.all_cons]
    cases c.isDigit with
    | true =>
      rw [Nat.ofDigitChars_cons, Nat.mul_comm 10 acc]
      exact ih _
    | false => rfl

theorem reads_digits (digits : List Char) (n : Nat) :
    (if digits.isEmpty then none
      else do
        let n ← digits.foldlM (fun n c => (Numeral.digit? c).map (n * 10 + ·)) 0
        if n < Numeral.limit then some n else none) = some n ↔
      digits ≠ [] ∧ (∀ c ∈ digits, c.isDigit = true) ∧
        n = Nat.ofDigitChars 10 digits 0 ∧ n < 2 ^ 64 := by
  by_cases empty : digits = []
  · simp [empty]
  · rw [foldlM_digits, if_neg fun none => empty (List.isEmpty_iff.mp none), ← List.all_eq_true]
    cases digits.all Char.isDigit with
    | true =>
      rw [and_iff_right empty, and_iff_right rfl]
      change (if Nat.ofDigitChars 10 digits 0 < 2 ^ 64 then some _ else none) = some n ↔ _
      rw [Option.ite_none_right_eq_some, Option.some.injEq, and_comm]
      constructor <;> rintro ⟨rfl, fits⟩ <;> exact ⟨rfl, fits⟩
    | false => exact ⟨nofun, nofun⟩

theorem readCount?_eq_some_iff (text : String) (n : Nat) :
    readCount? text = some n ↔ Counts text n := by
  rw [readCount?]
  split
  · next rest plus =>
    rw [reads_digits, Counts]
    constructor
    · rintro ⟨nonempty, all, value, fits⟩
      exact ⟨rest, nonempty, all, .inr plus, value, fits⟩
    · rintro ⟨digits, nonempty, all, same | same, value, fits⟩
      · have digit := all '+' (by rw [← same, plus]; exact List.mem_cons_self)
        cases digit
      · rw [plus] at same
        obtain rfl := (List.cons.inj same).2
        exact ⟨nonempty, all, value, fits⟩
  · next noPlus =>
    rw [reads_digits, Counts]
    constructor
    · rintro ⟨nonempty, all, value, fits⟩
      exact ⟨text.toList, nonempty, all, .inl rfl, value, fits⟩
    · rintro ⟨digits, nonempty, all, rfl | plus, value, fits⟩
      · exact ⟨nonempty, all, value, fits⟩
      · exact absurd plus (noPlus digits)

end Config

end Membrane
