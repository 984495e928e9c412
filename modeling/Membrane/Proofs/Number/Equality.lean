import Mathlib.Order.WithBot
import Membrane.Proofs.Number.Rounding
/-!
Which words stand for the same number. A word that is a number is read as an exact value or as one
of the infinities. Numbers are equal if they are read as the same, and only the zeros are two words
for one value.
-/

set_option autoImplicit false

namespace Membrane.Number

/-- A value with the sign of a number. -/
def signed (x : Number) (q : ℚ) : ℚ := if x.isNegative then -q else q

/-- What a number stands for, the infinities included; nothing, if it is not a number. -/
def extended? (x : Number) : Option (WithBot (WithTop ℚ)) :=
  match x.magnitude with
  | .nan => none
  | .infinite => some (if x.isNegative then ⊥ else (⊤ : WithTop ℚ))
  | .finite m e => some (x.signed (m * 2 ^ e) : WithTop ℚ)

/-- The word of a number without its sign. -/
def body (x : Number) : Nat := x.word % 2 ^ 63

variable {x y : Number} {m n : Nat} {e d : Int}

/-- A word is its body, and `2 ^ 63` more if it is negative. -/
theorem word_eq (x : Number) : x.word = (if x.isNegative then 2 ^ 63 else 0) + x.body := by
  obtain ⟨-, -, -, sign, -, -⟩ := Format.double_widths
  have bound : x.word < 2 ^ 64 := x.bits.toNat_lt
  rw [body, isNegative, Format.isNegative, sign]
  by_cases negative : 2 ^ 63 ≤ x.word
  · rw [if_pos (decide_eq_true negative)]
    omega
  · rw [if_neg (by simpa using negative)]
    omega

/-- Two words with one sign and one body are one word. -/
theorem ext_body (sign : x.isNegative = y.isNegative) (same : x.body = y.body) : x = y := by
  have words : x.word = y.word := by rw [x.word_eq, y.word_eq, sign, same]
  cases x
  cases y
  exact congrArg Number.mk (UInt64.toNat.inj words)

theorem isZero_iff (x : Number) : x.isZero = true ↔ x.body = 0 := by
  obtain ⟨-, -, -, sign, -, -⟩ := Format.double_widths
  rw [isZero, sign, beq_iff_eq, body]

/-- How a magnitude is read off the body of a word. -/
theorem magnitude_eq (x : Number) :
    x.magnitude =
      if x.body / 2 ^ 52 = 2047 then if x.body % 2 ^ 52 = 0 then .infinite else .nan
      else if x.body / 2 ^ 52 = 0 then .finite (x.body % 2 ^ 52) (-1074)
      else .finite (x.body % 2 ^ 52 + 2 ^ 52) (-1074 + (x.body / 2 ^ 52 - 1)) := by
  obtain ⟨fraction, unit, top, sign, least, -⟩ := Format.double_widths
  simp only [magnitude, Format.decode, fraction, unit, top, sign, least, body]
  push_cast
  rfl

/-- Of the words without a sign, those above that of the infinity are not numbers. -/
theorem isNaN_iff (x : Number) : x.isNaN = true ↔ 2047 * 2 ^ 52 < x.body := by
  have bound : x.body < 2 ^ 63 := Nat.mod_lt _ (by norm_num)
  have split : 2 ^ 52 * (x.body / 2 ^ 52) + x.body % 2 ^ 52 = x.body := Nat.div_add_mod _ _
  rw [isNaN, beq_iff_eq, magnitude_eq]
  split_ifs with top whole low
  · exact iff_of_false (by simp) (by omega)
  · exact iff_of_true rfl (by omega)
  · exact iff_of_false (by simp) (by omega)
  · exact iff_of_false (by simp) (by omega)

theorem body_of_infinite (infinite : x.magnitude = .infinite) : x.body = 2047 * 2 ^ 52 := by
  have split : 2 ^ 52 * (x.body / 2 ^ 52) + x.body % 2 ^ 52 = x.body := Nat.div_add_mod _ _
  rw [magnitude_eq] at infinite
  split_ifs at infinite
  omega

/-- A finite magnitude is normal, or has the least exponent; the body is put together from it. -/
theorem body_of_finite (finite : x.magnitude = .finite m e) :
    x.body = (e + 1074).toNat * 2 ^ 52 + m ∧ m < 2 ^ 53 ∧ -1074 ≤ e ∧ (e = -1074 ∨ 2 ^ 52 ≤ m) := by
  have split : 2 ^ 52 * (x.body / 2 ^ 52) + x.body % 2 ^ 52 = x.body := Nat.div_add_mod _ _
  have short : x.body % 2 ^ 52 < 2 ^ 52 := Nat.mod_lt _ (by norm_num)
  rw [magnitude_eq] at finite
  split_ifs at finite with top whole low
  · obtain ⟨rfl, rfl⟩ := Magnitude.finite.inj finite
    refine ⟨?_, by omega, le_rfl, .inl rfl⟩
    norm_num
    omega
  · obtain ⟨rfl, rfl⟩ := Magnitude.finite.inj finite
    refine ⟨?_, by omega, by omega, .inr (by omega)⟩
    have exponent : (-1074 + ((x.body : Int) / 2 ^ 52 - 1) + 1074).toNat =
        x.body / 2 ^ 52 - 1 := by omega
    rw [exponent]
    omega

/-- Of two finite magnitudes of one value neither has the lower exponent: it would ask for a
significand too long. -/
theorem exponent_not_lt (first : x.magnitude = .finite m e) (second : y.magnitude = .finite n d)
    (same : (m * 2 ^ e : ℚ) = n * 2 ^ d) : ¬ e < d := by
  intro lower
  obtain ⟨-, short, least, -⟩ := body_of_finite first
  obtain ⟨-, -, -, normal⟩ := body_of_finite second
  have long : 2 ^ 52 ≤ n := normal.resolve_left (by omega)
  obtain ⟨k, rfl⟩ : ∃ k : Nat, d = e + (k + 1 : Nat) := ⟨(d - e - 1).toNat, by omega⟩
  have unit : (2 : ℚ) ^ e ≠ 0 := by positivity
  rw [zpow_add₀ (by norm_num), zpow_natCast, ← mul_assoc, mul_right_comm] at same
  have whole : m = n * 2 ^ (k + 1) := by exact_mod_cast mul_right_cancel₀ unit same
  have double : 1 ≤ 2 ^ k := Nat.one_le_two_pow
  have : 2 ^ 52 * 2 ≤ n * (2 ^ k * 2) := Nat.mul_le_mul long (by omega)
  rw [whole, Nat.pow_succ] at short
  omega

/-- No two finite magnitudes stand for one value. -/
theorem finite_unique (first : x.magnitude = .finite m e) (second : y.magnitude = .finite n d)
    (same : (m * 2 ^ e : ℚ) = n * 2 ^ d) : m = n ∧ e = d := by
  have exponents : e = d :=
    le_antisymm (not_lt.mp (exponent_not_lt second first same.symm))
      (not_lt.mp (exponent_not_lt first second same))
  subst exponents
  exact ⟨by exact_mod_cast mul_right_cancel₀ (by positivity : (2 : ℚ) ^ e ≠ 0) same, rfl⟩

/-- Two finite numbers of one value are one word, or both are zero. -/
theorem eq_or_isZero (first : x.magnitude = .finite m e) (second : y.magnitude = .finite n d)
    (same : x.signed (m * 2 ^ e) = y.signed (n * 2 ^ d)) :
    x = y ∨ x.isZero = true ∧ y.isZero = true := by
  have left : (0 : ℚ) ≤ m * 2 ^ e := by positivity
  have right : (0 : ℚ) ≤ n * 2 ^ d := by positivity
  have sizes : (m * 2 ^ e : ℚ) = n * 2 ^ d := by
    rw [signed, signed] at same
    split_ifs at same <;> linarith
  obtain ⟨rfl, rfl⟩ := finite_unique first second sizes
  have bodies : x.body = y.body := (body_of_finite first).1.trans (body_of_finite second).1.symm
  by_cases signs : x.isNegative = y.isNegative
  · exact .inl (ext_body signs bodies)
  · have nothing : (m * 2 ^ e : ℚ) = 0 := by
      rw [signed, signed] at same
      cases negative : x.isNegative <;> cases negative' : y.isNegative <;>
        simp only [negative, negative', not_true_eq_false, Bool.false_eq_true, ↓reduceIte]
          at same signs
      · linarith
      · linarith
    have zero : m = 0 := by
      exact_mod_cast (mul_eq_zero.mp nothing).resolve_right (by positivity)
    subst zero
    have empty : x.body = 0 := by
      obtain ⟨body, -, -, normal⟩ := body_of_finite first
      rw [body, normal.resolve_right (by norm_num)]
      norm_num
    exact .inr ⟨x.isZero_iff.mpr empty, y.isZero_iff.mpr (bodies ▸ empty)⟩

theorem extended?_of_isZero (zero : x.isZero = true) :
    x.extended? = some ((0 : ℚ) : WithTop ℚ) := by
  have empty := x.isZero_iff.mp zero
  have magnitude : x.magnitude = .finite 0 (-1074) := by
    rw [magnitude_eq, empty]
    norm_num
  rw [extended?, magnitude]
  simp [signed]

theorem extended?_eq_none_iff (x : Number) : x.extended? = none ↔ x.isNaN = true := by
  rw [isNaN, beq_iff_eq, extended?]
  cases x.magnitude <;> simp

/-- Two words that are read as the same value are one word, or both are zero. -/
theorem eq_or_isZero_of_extended? {q : WithBot (WithTop ℚ)} (read : x.extended? = some q)
    (read' : y.extended? = some q) : x = y ∨ x.isZero = true ∧ y.isZero = true := by
  have same := read.trans read'.symm
  rw [extended?, extended?] at same
  cases first : x.magnitude with
  | nan => simp [extended?, first] at read
  | infinite =>
    cases second : y.magnitude with
    | nan => simp [extended?, second] at read'
    | infinite =>
      refine .inl (ext_body ?_ ((body_of_infinite first).trans (body_of_infinite second).symm))
      rw [first, second] at same
      cases negative : x.isNegative <;> cases negative' : y.isNegative <;>
        simp [negative, negative'] at same ⊢
    | finite n d =>
      rw [first, second] at same
      dsimp only at same
      split_ifs at same <;> simp at same
  | finite m e =>
    cases second : y.magnitude with
    | nan => simp [extended?, second] at read'
    | infinite =>
      rw [first, second] at same
      split_ifs at same <;> simp at same
    | finite n d =>
      rw [first, second] at same
      exact eq_or_isZero first second (by exact_mod_cast Option.some.inj same)

variable (x y : Number)

/-- Numeric equality is equality of words, but for the zeros and for what is not a number. -/
theorem eq_iff_words : x.eq y = true ↔
    (x.isNaN = false ∧ y.isNaN = false) ∧ (x = y ∨ x.isZero = true ∧ y.isZero = true) := by
  simp only [eq, Bool.and_eq_true, Bool.or_eq_true, Bool.not_eq_true', beq_iff_eq]

/-- Numeric equality is equality of what the words stand for. -/
theorem eq_iff : x.eq y = true ↔ ∃ q, x.extended? = some q ∧ y.extended? = some q := by
  have number (z : Number) : z.isNaN = false ↔ ∃ q, z.extended? = some q := by
    rw [← Option.ne_none_iff_exists', ne_eq, extended?_eq_none_iff, Bool.not_eq_true]
  rw [eq_iff_words]
  constructor
  · rintro ⟨⟨left, _⟩, rfl | ⟨zero, zero'⟩⟩
    · obtain ⟨q, read⟩ := (number x).mp left
      exact ⟨q, read, read⟩
    · exact ⟨_, extended?_of_isZero zero, extended?_of_isZero zero'⟩
  · rintro ⟨q, read, read'⟩
    exact ⟨⟨(number x).mpr ⟨q, read⟩, (number y).mpr ⟨q, read'⟩⟩,
      eq_or_isZero_of_extended? read read'⟩

end Membrane.Number
