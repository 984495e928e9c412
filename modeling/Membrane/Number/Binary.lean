/-!
Binary interchange formats. A format names the widths of the two fields of a word; `Format.decode`
reads a word as a sign and an exact magnitude, and `Format.round` finds the word nearest to a
fraction, with ties to the even word. All arithmetic is on natural numbers.
-/

set_option autoImplicit false

namespace Membrane

/-- The widths of the fraction and exponent fields of a floating word. -/
structure Format where
  fractionBits : Nat
  exponentBits : Nat
deriving DecidableEq, Repr

/-- What a word without its sign stands for. -/
inductive Magnitude where
  /-- The number `significand * 2 ^ exponent`. -/
  | finite (significand : Nat) (exponent : Int)
  | infinite
  | nan
deriving DecidableEq, Repr

namespace Format

/-- The format of a 64-bit word. -/
def double : Format := ⟨52, 11⟩

/-- The format of a 32-bit word. -/
def single : Format := ⟨23, 8⟩

variable (f : Format)

/-- The least word whose sign is set. -/
def signUnit : Nat := Nat.pow 2 (f.fractionBits + f.exponentBits)

/-- The word of positive infinity; the words above it, below `signUnit`, are not numbers. -/
def infinity : Nat := (Nat.pow 2 f.exponentBits - 1) * Nat.pow 2 f.fractionBits

/-- The exponent of the smallest positive number. -/
def minExponent : Int := 2 - (Nat.pow 2 (f.exponentBits - 1) : Nat) - f.fractionBits

def isNegative (word : Nat) : Bool := decide (f.signUnit ≤ word)

/-- The magnitude of a word: subnormal words share the least exponent and have no leading bit. -/
def decode (word : Nat) : Magnitude :=
  let body := word % f.signUnit
  let exponent := body / Nat.pow 2 f.fractionBits
  let fraction := body % Nat.pow 2 f.fractionBits
  if exponent = Nat.pow 2 f.exponentBits - 1 then
    if fraction = 0 then .infinite else .nan
  else if exponent = 0 then
    .finite fraction f.minExponent
  else
    .finite (fraction + Nat.pow 2 f.fractionBits) (f.minExponent + (exponent - 1))

/-- The quotient nearest to `num / den`; a half goes to the even quotient. -/
def divideEven (num den : Nat) : Nat :=
  let q := num / den
  let r := num % den
  if 2 * r < den then q
  else if den < 2 * r then q + 1
  else q + q % 2

/-- The greatest `k` with `2 ^ k * den ≤ num`, for positive `num` and `den`. -/
def floorLog (num den : Nat) : Int :=
  let k : Int := (num.log2 : Int) - den.log2
  if den * Nat.pow 2 k.toNat ≤ num * Nat.pow 2 (-k).toNat then k else k - 1

/-- The word of the number nearest to `num / den`, without a sign. The exponent field and the
significand are added, so a significand that rounds up to the next power of two carries. -/
def round (num den : Nat) : Nat :=
  if num = 0 then 0
  else
    let exponent := max (floorLog num den - f.fractionBits) f.minExponent
    let significand :=
      divideEven (num * Nat.pow 2 (-exponent).toNat) (den * Nat.pow 2 exponent.toNat)
    let offset := (exponent - f.minExponent).toNat
    min (offset * Nat.pow 2 f.fractionBits + significand) f.infinity

/-- A word with its sign bit set when asked for. -/
def signed (negative : Bool) (word : Nat) : Nat :=
  if negative then f.signUnit + word else word

end Format

end Membrane
