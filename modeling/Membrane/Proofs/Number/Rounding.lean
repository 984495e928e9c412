import Mathlib.Algebra.Order.Field.Power
import Mathlib.Algebra.Order.Field.Rat
import Mathlib.Tactic.Linarith
import Mathlib.Tactic.FieldSimp
import Mathlib.Tactic.Positivity
import Mathlib.Tactic.NormNum
import Mathlib.Tactic.Ring
import Membrane.Number.Basic

/-!
Whole numbers among floating ones. A whole number is rounded to 53 binary digits, ties to even. What
comes out is finite, no floating number is nearer, the order is kept, and below `2 ^ 53` nothing
changes.
-/

set_option autoImplicit false

namespace Membrane

/-- What a magnitude stands for, if it is finite. -/
def Magnitude.value? : Magnitude → Option ℚ
  | .finite m e => some (m * 2 ^ e)
  | .infinite | .nan => none

/-- What a number stands for, if it is finite. -/
def Number.value? (x : Number) : Option ℚ :=
  x.magnitude.value?.map fun q => if x.isNegative then -q else q

namespace Format

theorem divideEven_one (n : Nat) : divideEven n 1 = n := by
  simp [divideEven, Nat.mod_one]

/-- A quotient that is rounded is half a unit off at most. -/
theorem divideEven_near (n den : Nat) (pos : 0 < den) :
    2 * n ≤ 2 * (divideEven n den * den) + den ∧ 2 * (divideEven n den * den) ≤ 2 * n + den := by
  have split : den * (n / den) + n % den = n := Nat.div_add_mod n den
  have small : n % den < den := Nat.mod_lt n pos
  have same : n / den * den = den * (n / den) := Nat.mul_comm _ _
  have next : (n / den + 1) * den = den * (n / den) + den := by ring
  unfold divideEven
  dsimp only
  split_ifs with below above
  · omega
  · omega
  · rcases Nat.mod_two_eq_zero_or_one (n / den) with even | odd
    · rw [even, Nat.add_zero]
      omega
    · rw [odd]
      omega

theorem divideEven_mono {m n : Nat} (le : m ≤ n) (den : Nat) :
    divideEven m den ≤ divideEven n den := by
  have former := Nat.div_add_mod m den
  have later := Nat.div_add_mod n den
  have quotients : m / den ≤ n / den := Nat.div_le_div_right le
  have up (k : Nat) : k / den ≤ divideEven k den ∧ divideEven k den ≤ k / den + 1 := by
    unfold divideEven
    dsimp only
    split_ifs <;> omega
  rcases Nat.lt_or_eq_of_le quotients with less | same
  · have := (up m).2
    have := (up n).1
    omega
  · have rest : m % den ≤ n % den := by
      rw [same] at former
      omega
    unfold divideEven
    dsimp only
    rw [same]
    split_ifs <;> omega

theorem le_divideEven {n den k : Nat} (le : k * den ≤ n) (pos : 0 < den) : k ≤ divideEven n den := by
  have := (Nat.le_div_iff_mul_le pos).mpr le
  unfold divideEven
  dsimp only
  split_ifs <;> omega

theorem divideEven_le {n den k : Nat} (lt : n < k * den) : divideEven n den ≤ k := by
  have := Nat.div_lt_of_lt_mul (by rwa [Nat.mul_comm] at lt : n < den * k)
  unfold divideEven
  dsimp only
  split_ifs <;> omega

/-- The significand of a positive whole number. Below `2 ^ 53` it is the number itself, shifted. -/
def significand (n : Nat) : Nat := divideEven (n * 2 ^ (52 - n.log2)) (2 ^ (n.log2 - 52))

theorem significand_bounds {n : Nat} (pos : n ≠ 0) :
    2 ^ 52 ≤ significand n ∧ significand n ≤ 2 ^ 53 := by
  have low : 2 ^ n.log2 ≤ n := Nat.log2_self_le pos
  have high : n < 2 ^ (n.log2 + 1) := Nat.lt_log2_self
  have unit : 0 < 2 ^ (n.log2 - 52) := by positivity
  have shift (k : Nat) (large : 52 ≤ k) :
      2 ^ k * 2 ^ (n.log2 - 52) = 2 ^ (n.log2 + (k - 52)) * 2 ^ (52 - n.log2) := by
    rw [← Nat.pow_add, ← Nat.pow_add]
    congr 1
    omega
  constructor
  · apply le_divideEven _ unit
    rw [shift 52 (by omega)]
    exact Nat.mul_le_mul_right _ low
  · apply divideEven_le
    rw [shift 53 (by omega)]
    exact Nat.mul_lt_mul_of_pos_right high (by positivity)

/-- The widths of a 64-bit word, as they are added up. -/
theorem double_widths :
    double.fractionBits = 52 ∧ Nat.pow 2 52 = 2 ^ 52 ∧ Nat.pow 2 double.exponentBits - 1 = 2047 ∧
      double.signUnit = 2 ^ 63 ∧ double.minExponent = -1074 ∧ double.infinity = 2047 * 2 ^ 52 := by
  decide

/-- The word of a positive whole number: the exponent field and the significand are added. -/
theorem round_ofNat (n : Nat) (pos : n ≠ 0) (small : n.log2 < 1023) :
    double.round n 1 = (n.log2 + 1022) * 2 ^ 52 + significand n := by
  have log : floorLog n 1 = n.log2 := by
    have one : Nat.log2 1 = 0 := by decide
    simp [floorLog, one, Nat.log2_self_le pos]
  obtain ⟨fraction, unit, -, -, least, most⟩ := double_widths
  have exponent : max ((n.log2 : Int) - (52 : Nat)) (-1074) = n.log2 - 52 := by omega
  have down : (-((n.log2 : Int) - 52)).toNat = 52 - n.log2 := by omega
  have up : ((n.log2 : Int) - 52).toNat = n.log2 - 52 := by omega
  have offset : ((n.log2 : Int) - 52 - -1074).toNat = n.log2 + 1022 := by omega
  have bounds := significand_bounds pos
  have below : (n.log2 + 1022) * 2 ^ 52 + significand n ≤ 2047 * 2 ^ 52 := by omega
  simp only [round, pos, ↓reduceIte, log, least, most, fraction, exponent, down, up, offset, unit,
    Nat.one_mul]
  exact Nat.min_eq_left below

/-- A word is read as the significand and the exponent that it was put together from. -/
theorem decode_normal (offset s : Nat) (small : offset < 2045) (bounds : 2 ^ 52 ≤ s ∧ s ≤ 2 ^ 53) :
    ∃ m e, double.decode (offset * 2 ^ 52 + s) = .finite m e ∧
      (m * 2 ^ e : ℚ) = s * 2 ^ (offset - 1074 : Int) := by
  obtain ⟨fraction, unit, top, sign, least, -⟩ := double_widths
  have body : (offset * 2 ^ 52 + s) % 2 ^ 63 = offset * 2 ^ 52 + s := by omega
  rcases Nat.lt_or_eq_of_le bounds.2 with below | carried
  · have field : (offset * 2 ^ 52 + s) / 2 ^ 52 = offset + 1 := by omega
    have rest : (offset * 2 ^ 52 + s) % 2 ^ 52 + 2 ^ 52 = s := by omega
    have exponent : (-1074 : Int) + ((offset + 1 : Nat) - 1) = offset - 1074 := by omega
    refine ⟨s, offset - 1074, ?_, rfl⟩
    simp only [decode, fraction, unit, top, sign, least, body, field, rest, exponent]
    rw [if_neg (by omega), if_neg (by omega)]
  · subst carried
    have field : (offset * 2 ^ 52 + 2 ^ 53) / 2 ^ 52 = offset + 2 := by omega
    have rest : (offset * 2 ^ 52 + 2 ^ 53) % 2 ^ 52 = 0 := by omega
    have exponent : (-1074 : Int) + ((offset + 2 : Nat) - 1) = offset - 1074 + 1 := by omega
    refine ⟨2 ^ 52, offset - 1074 + 1, ?_, ?_⟩
    · simp only [decode, fraction, unit, top, sign, least, body, field, rest, exponent,
        Nat.zero_add]
      rw [if_neg (by omega), if_neg (by omega)]
    · rw [zpow_add_one₀ (by norm_num)]
      push_cast
      ring

end Format

namespace Number

/-- What a whole number is rounded to: of its binary digits the first 53 are kept. -/
def rounded (n : Nat) : Nat := Format.divideEven n (2 ^ (n.log2 - 52)) * 2 ^ (n.log2 - 52)

theorem rounded_eq_significand (n : Nat) :
    (rounded n : ℚ) = Format.significand n * 2 ^ (n.log2 - 52 : Int) := by
  rcases Nat.le_total n.log2 52 with short | long
  · have none : n.log2 - 52 = 0 := by omega
    have whole : Format.significand n = n * 2 ^ (52 - n.log2) := by
      rw [Format.significand, none, Nat.pow_zero, Format.divideEven_one]
    have exponent : (n.log2 - 52 : Int) = -((52 - n.log2 : Nat) : Int) := by omega
    rw [rounded, none, whole, exponent, zpow_neg, zpow_natCast, Nat.pow_zero,
      Format.divideEven_one]
    push_cast
    field_simp
  · have none : 52 - n.log2 = 0 := by omega
    have exponent : (n.log2 - 52 : Int) = ((n.log2 - 52 : Nat) : Int) := by omega
    rw [rounded, Format.significand, none, exponent, zpow_natCast, Nat.pow_zero, Nat.mul_one]
    push_cast
    rfl

section

variable (negative : Bool) (n : Nat)

/-- The word of a whole number, apart from its sign. -/
theorem word_ofRatio (small : n.log2 < 1023) :
    (ofRatio negative n 1).word = (if negative then 2 ^ 63 else 0) + Format.double.round n 1 ∧
      Format.double.round n 1 ≤ 2047 * 2 ^ 52 := by
  have below : Format.double.round n 1 ≤ 2047 * 2 ^ 52 := by
    by_cases zero : n = 0
    · simp [Format.round, zero]
    · have bounds := Format.significand_bounds zero
      rw [Format.round_ofNat n zero small]
      omega
  have sign : Format.double.signUnit = 2 ^ 63 := Format.double_widths.2.2.2.1
  refine ⟨?_, below⟩
  simp only [ofRatio, ofWord, word, Format.signed, sign]
  cases negative <;> simp only [Bool.false_eq_true, ↓reduceIte] <;> rw [UInt64.toNat_ofNat'] <;>
    omega

theorem isNegative_ofRatio (small : n.log2 < 1023) :
    (ofRatio negative n 1).isNegative = negative := by
  obtain ⟨word, below⟩ := word_ofRatio negative n small
  have sign : Format.double.signUnit = 2 ^ 63 := Format.double_widths.2.2.2.1
  rw [isNegative, Format.isNegative, sign, word]
  cases negative with
  | false =>
    have unsigned : ¬ 2 ^ 63 ≤ (if false = true then 2 ^ 63 else 0) + Format.double.round n 1 := by
      simp only [Bool.false_eq_true, ↓reduceIte]
      omega
    rw [decide_eq_false unsigned]
  | true =>
    have signed : 2 ^ 63 ≤ (if true = true then 2 ^ 63 else 0) + Format.double.round n 1 := by
      simp only [↓reduceIte]
      omega
    rw [decide_eq_true signed]

/-- A whole number that is not too large is a finite number, the one that it is rounded to. -/
theorem magnitude_ofRatio (small : n.log2 < 1023) :
    ∃ m e, (ofRatio negative n 1).magnitude = .finite m e ∧ (m * 2 ^ e : ℚ) = rounded n := by
  obtain ⟨word, below⟩ := word_ofRatio negative n small
  have sign : Format.double.signUnit = 2 ^ 63 := Format.double_widths.2.2.2.1
  have body : (if negative = true then 2 ^ 63 else 0) + Format.double.round n 1 =
      Format.double.round n 1 + 2 ^ 63 * negative.toNat := by
    cases negative <;> simp [Nat.add_comm]
  have decoded : (ofRatio negative n 1).magnitude =
      Format.double.decode (Format.double.round n 1) := by
    rw [magnitude, word, body]
    simp only [Format.decode, sign, Nat.add_mul_mod_self_left]
  rw [decoded]
  by_cases zero : n = 0
  · subst zero
    have word : Format.double.round 0 1 = 0 := rfl
    have decoded : Format.double.decode 0 = .finite 0 (-1074) := by decide
    exact ⟨0, -1074, by rw [word, decoded], by simp [rounded, Format.divideEven]⟩
  · obtain ⟨m, e, decoded, same⟩ :=
      Format.decode_normal (n.log2 + 1022) (Format.significand n) (by omega)
        (Format.significand_bounds zero)
    have exponent : ((n.log2 + 1022 : Nat) : Int) - 1074 = n.log2 - 52 := by omega
    refine ⟨m, e, by rw [Format.round_ofNat n zero small, decoded], ?_⟩
    rw [same, exponent, rounded_eq_significand]

theorem isFinite_ofRatio (small : n.log2 < 1023) : (ofRatio negative n 1).isFinite = true := by
  obtain ⟨m, e, magnitude, -⟩ := magnitude_ofRatio negative n small
  rw [isFinite, magnitude]

theorem value?_ofRatio (small : n.log2 < 1023) :
    (ofRatio negative n 1).value? = some (if negative then -(rounded n : ℚ) else rounded n) := by
  obtain ⟨m, e, magnitude, same⟩ := magnitude_ofRatio negative n small
  rw [value?, magnitude, Magnitude.value?, Option.map_some, same,
    isNegative_ofRatio negative n small]

end

theorem log2_small {n k : Nat} (short : n < 2 ^ k) (bound : k ≤ 1023) : n.log2 < 1023 := by
  by_cases zero : n = 0
  · subst zero
    decide
  · exact ((Nat.log2_lt zero).mpr short).trans_le bound

/-- A fraction that stands for a whole number is divided without a rest. -/
theorem fraction_div (m : Nat) (e : Int) (n : Nat) (same : (m * 2 ^ e : ℚ) = n) :
    (fraction m e).1 / (fraction m e).2 = n := by
  have power : (2 : ℚ) ^ e = 2 ^ e.toNat / 2 ^ (-e).toNat := by
    rw [← zpow_natCast, ← zpow_natCast, ← zpow_sub₀ (by norm_num)]
    congr 1
    omega
  have product : m * 2 ^ e.toNat = n * 2 ^ (-e).toNat := by
    rw [power] at same
    field_simp at same
    rw [Nat.mul_comm n]
    exact_mod_cast same
  rw [fraction, Nat.pow_eq, Nat.pow_eq, product]
  exact Nat.mul_div_cancel n (by positivity)

theorem wholePart_ofNat (n : Nat) (small : n.log2 < 1023) : (ofNat n).wholePart = rounded n := by
  obtain ⟨m, e, magnitude, same⟩ := magnitude_ofRatio false n small
  have positive := isNegative_ofRatio false n small
  simp only [wholePart, ofNat, positive, magnitude, Bool.false_eq_true, ↓reduceIte]
  exact fraction_div m e _ same

/-- Up to `2 ^ 53` nothing is lost. -/
theorem rounded_of_lt {n : Nat} (short : n < 2 ^ 53) : rounded n = n := by
  have log : n.log2 < 53 := by
    by_cases zero : n = 0
    · subst zero
      decide
    · exact (Nat.log2_lt zero).mpr short
  have none : n.log2 - 52 = 0 := by omega
  rw [rounded, none, Nat.pow_zero, Format.divideEven_one, Nat.mul_one]

/-- The rounding stays between the powers of two that a number stands between. -/
theorem rounded_bounds {n : Nat} (pos : n ≠ 0) :
    2 ^ n.log2 ≤ rounded n ∧ rounded n ≤ 2 ^ (n.log2 + 1) := by
  rcases Nat.lt_or_ge n (2 ^ 53) with short | long
  · rw [rounded_of_lt short]
    exact ⟨Nat.log2_self_le pos, Nat.lt_log2_self.le⟩
  · have log : 53 ≤ n.log2 := (Nat.le_log2 pos).mpr long
    have none : 52 - n.log2 = 0 := by omega
    have bounds := Format.significand_bounds pos
    have low : 2 ^ n.log2 = 2 ^ 52 * 2 ^ (n.log2 - 52) := by
      rw [← Nat.pow_add]
      congr 1
      omega
    have high : 2 ^ (n.log2 + 1) = 2 ^ 53 * 2 ^ (n.log2 - 52) := by
      rw [← Nat.pow_add]
      congr 1
      omega
    rw [Format.significand, none, Nat.pow_zero, Nat.mul_one] at bounds
    rw [rounded, low, high]
    exact ⟨Nat.mul_le_mul_right _ bounds.1, Nat.mul_le_mul_right _ bounds.2⟩

/-- The rounding keeps the order. -/
theorem rounded_mono {m n : Nat} (le : m ≤ n) : rounded m ≤ rounded n := by
  by_cases zero : m = 0
  · subst zero
    simp [rounded, Format.divideEven]
  have pos : n ≠ 0 := by omega
  have logs : m.log2 ≤ n.log2 := (Nat.le_log2 pos).mpr ((Nat.log2_self_le zero).trans le)
  rcases Nat.lt_or_eq_of_le logs with less | same
  · calc rounded m
      _ ≤ 2 ^ (m.log2 + 1) := (rounded_bounds zero).2
      _ ≤ 2 ^ n.log2 := Nat.pow_le_pow_right (by norm_num) less
      _ ≤ rounded n := (rounded_bounds pos).1
  · rw [rounded, rounded, same]
    exact Nat.mul_le_mul_right _ (Format.divideEven_mono le _)

/-- Of all multiples of a unit the rounded one is nearest. -/
theorem rounded_near_multiple (n k : Nat) :
    |(n : ℚ) - rounded n| ≤ |(n : ℚ) - (k * 2 ^ (n.log2 - 52) : Nat)| := by
  have unit : 0 < 2 ^ (n.log2 - 52) := by positivity
  obtain ⟨above, below⟩ := Format.divideEven_near n _ unit
  rw [rounded]
  generalize 2 ^ (n.log2 - 52) = u at *
  generalize Format.divideEven n u = q at *
  have above : (2 : ℚ) * n ≤ 2 * (q * u) + u := by exact_mod_cast above
  have below : (2 : ℚ) * (q * u) ≤ 2 * n + u := by exact_mod_cast below
  push_cast
  rcases Nat.lt_trichotomy k q with less | same | more
  · have apart : (k + 1 : ℚ) * u ≤ q * u := by
      exact_mod_cast Nat.mul_le_mul_right u (Nat.succ_le_of_lt less)
    rw [abs_le]
    have := le_abs_self ((n : ℚ) - k * u)
    constructor <;> linarith
  · rw [same]
  · have apart : (q + 1 : ℚ) * u ≤ k * u := by
      exact_mod_cast Nat.mul_le_mul_right u (Nat.succ_le_of_lt more)
    rw [abs_le]
    have := neg_abs_le ((n : ℚ) - k * u)
    constructor <;> linarith

/-- A magnitude keeps 53 binary digits. -/
theorem magnitude_short (y : Number) (m : Nat) (e : Int) (read : y.magnitude = .finite m e) :
    m < 2 ^ 53 := by
  obtain ⟨fraction, unit, top, sign, least, -⟩ := Format.double_widths
  simp only [magnitude, Format.decode, fraction, unit] at read
  have short : y.word % Format.double.signUnit % 2 ^ 52 < 2 ^ 52 := Nat.mod_lt _ (by norm_num)
  split at read
  · split at read <;> cases read
  · split at read
    · cases read
      omega
    · cases read
      omega

/-- A number that is no smaller than the leading digit of a whole number is a multiple of the unit
that this is rounded to. -/
theorem exists_multiple {n m : Nat} {e : Int} (long : 52 ≤ n.log2) (short : m < 2 ^ 53)
    (large : (2 : ℚ) ^ n.log2 ≤ m * 2 ^ e) :
    ∃ k : Nat, (m * 2 ^ e : ℚ) = (k * 2 ^ (n.log2 - 52) : Nat) := by
  have exponent : (n.log2 : Int) - 52 ≤ e := by
    by_contra less
    have power : (2 : ℚ) ^ e ≤ 2 ^ ((n.log2 : Int) - 53) :=
      zpow_le_zpow_right₀ (by norm_num) (by omega)
    have digits : (m : ℚ) < 2 ^ 53 := by exact_mod_cast short
    have product : (m * 2 ^ e : ℚ) < 2 ^ n.log2 := by
      calc (m * 2 ^ e : ℚ)
        _ ≤ m * 2 ^ ((n.log2 : Int) - 53) := by gcongr
        _ < 2 ^ 53 * 2 ^ ((n.log2 : Int) - 53) := by gcongr
        _ = 2 ^ n.log2 := by
          rw [← zpow_natCast, ← zpow_natCast, ← zpow_add₀ (by norm_num)]
          congr 1
          push_cast
          omega
    linarith
  obtain ⟨k, rfl⟩ : ∃ k : Nat, e = k + (n.log2 - 52 : Nat) :=
    ⟨(e - (n.log2 - 52)).toNat, by omega⟩
  refine ⟨m * 2 ^ k, ?_⟩
  rw [zpow_add₀ (by norm_num), zpow_natCast, zpow_natCast]
  push_cast
  ring

/-- No number is nearer to a whole number than the one that it is rounded to. -/
theorem rounded_nearest (n : Nat) (y : Number) (m : Nat) (e : Int)
    (read : y.magnitude = .finite m e) : |(n : ℚ) - rounded n| ≤ |(n : ℚ) - m * 2 ^ e| := by
  rcases Nat.lt_or_ge n (2 ^ 53) with small | large
  · rw [rounded_of_lt small, sub_self, abs_zero]
    exact abs_nonneg _
  have pos : n ≠ 0 := by
    rintro rfl
    norm_num at large
  have long : 53 ≤ n.log2 := (Nat.le_log2 pos).mpr large
  rcases lt_or_ge (m * 2 ^ e : ℚ) (2 ^ n.log2) with below | above
  · have first := rounded_near_multiple n (2 ^ 52)
    have lead : 2 ^ 52 * 2 ^ (n.log2 - 52) = 2 ^ n.log2 := by
      rw [← Nat.pow_add]
      congr 1
      omega
    have self : ((2 ^ n.log2 : Nat) : ℚ) ≤ n := by exact_mod_cast Nat.log2_self_le pos
    rw [lead, abs_of_nonneg (sub_nonneg.mpr self)] at first
    push_cast at first self
    rw [abs_of_nonneg (a := (n : ℚ) - m * 2 ^ e) (by linarith)]
    linarith
  · obtain ⟨k, same⟩ := exists_multiple (by omega) (magnitude_short y m e read) above
    rw [same]
    exact rounded_near_multiple n k

/-- A finite number that no other one is nearer than. -/
def Nearest (n : Int) (x : Number) : Prop :=
  ∃ q, x.value? = some q ∧
    ∀ (y : Number) (r : ℚ), y.value? = some r → |(n : ℚ) - q| ≤ |(n : ℚ) - r|

theorem ofInt_nearest (n : Int) (small : n.natAbs.log2 < 1023) : Nearest n (ofInt n) := by
  refine ⟨_, value?_ofRatio _ _ small, fun y r read => ?_⟩
  obtain ⟨a, magnitude, sign⟩ := Option.map_eq_some_iff.mp read
  cases found : y.magnitude with
  | infinite | nan => simp [found, Magnitude.value?] at magnitude
  | finite m e =>
    rw [found] at magnitude
    obtain rfl := Option.some.inj magnitude
    have near := rounded_nearest n.natAbs y m e found
    have apart : |(n.natAbs : ℚ) - m * 2 ^ e| ≤ |(n : ℚ) - r| := by
      have size : |r| = m * 2 ^ e := by
        have : (0 : ℚ) ≤ m * 2 ^ e := by positivity
        rw [← sign]
        split
        · rw [abs_neg, abs_of_nonneg this]
        · rw [abs_of_nonneg this]
      rw [Nat.cast_natAbs, ← size]
      push_cast
      exact abs_abs_sub_abs_le (n : ℚ) r
    refine le_trans (le_of_eq ?_) (near.trans apart)
    rcases lt_or_ge n 0 with negative | positive
    · have size : (n : ℚ) = -(n.natAbs : ℚ) := by
        rw [Nat.cast_natAbs, abs_of_neg negative]
        push_cast
        ring
      rw [if_pos (by simpa using negative), size, neg_sub_neg, abs_sub_comm]
    · have size : (n : ℚ) = (n.natAbs : ℚ) := by
        rw [Nat.cast_natAbs, abs_of_nonneg positive]
      rw [if_neg (by simpa using positive), size]

end Number

end Membrane
