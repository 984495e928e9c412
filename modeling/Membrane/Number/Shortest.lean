import Membrane.Number.Basic
/-!
The shortest decimal of a binary number: the fewest digits that lie in the interval of reals that
round to it, and of these the nearest to it. The interval holds its ends when the significand is
even.
-/

set_option autoImplicit false

namespace Membrane

/-- The number `digits * 10 ^ exponent`. -/
structure Decimal where
  digits : Nat
  exponent : Int
deriving DecidableEq, Repr

/-- The reals that round to one binary number: `value`, `low` and `high` over one denominator. -/
structure RoundingInterval where
  low : Nat
  value : Nat
  high : Nat
  den : Nat
  closed : Bool

namespace RoundingInterval

/-- The interval of `significand * 2 ^ exponent`. Below a power of two the gap is half as wide. -/
def ofBinary (f : Format) (significand : Nat) (exponent : Int) : RoundingInterval :=
  let (unit, den) := Number.fraction 1 (exponent - 2)
  let narrow := significand == Nat.pow 2 f.fractionBits && decide (f.minExponent < exponent)
  { low := (4 * significand - if narrow then 1 else 2) * unit
    value := 4 * significand * unit
    high := (4 * significand + 2) * unit
    den
    closed := significand % 2 == 0 }

variable (i : RoundingInterval)

/-- Whether `digits * 10 ^ exponent` lies in the interval. -/
def contains (d : Decimal) : Bool :=
  let point := d.digits * Nat.pow 10 d.exponent.toNat * i.den
  let scale := Nat.pow 10 (-d.exponent).toNat
  if i.closed then i.low * scale ≤ point && point ≤ i.high * scale
  else i.low * scale < point && point < i.high * scale

/-- The greatest `k` with `10 ^ k` at most the value, searched from a guess that is not above it. -/
def decimalLog : Nat → Int → Int
  | 0, k => k
  | fuel + 1, k =>
    if i.den * Nat.pow 10 (k + 1).toNat ≤ i.value * Nat.pow 10 (-(k + 1)).toNat then
      decimalLog fuel (k + 1)
    else k

/-- The value rounded down to a grid of the given decimal exponent. -/
def floorOn (exponent : Int) : Nat :=
  i.value * Nat.pow 10 (-exponent).toNat / (i.den * Nat.pow 10 exponent.toNat)

/-- The neighbour of the value on a decimal grid that lies in the interval, the nearer one if both
do; a tie goes up. -/
def onGrid? (exponent : Int) : Option Decimal :=
  let below : Decimal := ⟨i.floorOn exponent, exponent⟩
  let above : Decimal := ⟨below.digits + 1, exponent⟩
  let upper :=
    (2 * below.digits + 1) * Nat.pow 10 exponent.toNat * i.den
      ≤ 2 * i.value * Nat.pow 10 (-exponent).toNat
  match i.contains below && decide (0 < below.digits), i.contains above with
  | true, true => some (if upper then above else below)
  | true, false => some below
  | false, true => some above
  | false, false => none

/-- The first hit on the grids that get finer by one digit at a time. -/
def search : Nat → Int → Decimal
  | 0, exponent => ⟨i.floorOn exponent, exponent⟩
  | fuel + 1, exponent =>
    match i.onGrid? exponent with
    | some d => d
    | none => search fuel (exponent - 1)

end RoundingInterval

namespace Decimal

/-- The same number with no zero at its end. -/
def trim : Nat → Decimal → Decimal
  | 0, d => d
  | fuel + 1, d =>
    if 0 < d.digits ∧ d.digits % 10 = 0 then trim fuel ⟨d.digits / 10, d.exponent + 1⟩ else d

/-- The shortest decimal of `significand * 2 ^ exponent`, for a positive significand. Seventeen
digits are enough for every word of at most 64 bits. -/
def shortest (f : Format) (significand : Nat) (exponent : Int) : Decimal :=
  let i := RoundingInterval.ofBinary f significand exponent
  let guess : Int := ((significand.log2 : Int) + exponent) * 1233 / 4096 - 1
  let leading := i.decimalLog 4 guess
  trim 20 (i.search 17 leading)

end Decimal

end Membrane
