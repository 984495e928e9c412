import Membrane.Number.Binary
/-!
Numbers are kept as their 64-bit words, so that every payload of a word that is not a number
survives. Arithmetic decodes the word, computes exactly and rounds once.
-/

set_option autoImplicit false

namespace Membrane

/-- A 64-bit floating number, as its word. Equality here is equality of words. -/
structure Number where
  bits : UInt64
deriving DecidableEq, Hashable, Repr, Inhabited

/-- A 32-bit floating number, as its word. -/
structure Single where
  bits : UInt32
deriving DecidableEq, Hashable, Repr, Inhabited

namespace Number

def word (x : Number) : Nat := x.bits.toNat

def ofWord (word : Nat) : Number := ⟨UInt64.ofNat word⟩

/-- The word used when an operation has no numeric result. -/
def nan : Number := ⟨0x7ff8000000000000⟩

def zero : Number := ⟨0⟩

def isNegative (x : Number) : Bool := Format.double.isNegative x.word

def magnitude (x : Number) : Magnitude := Format.double.decode x.word

def isNaN (x : Number) : Bool := x.magnitude == .nan

def isFinite (x : Number) : Bool :=
  match x.magnitude with
  | .finite .. => true
  | _ => false

/-- Both zeros are zero. -/
def isZero (x : Number) : Bool := x.word % Format.double.signUnit == 0

/-- Numeric equality: the zeros are equal, and what is not a number equals nothing. -/
def eq (x y : Number) : Bool :=
  !x.isNaN && !y.isNaN && (x == y || (x.isZero && y.isZero))

/-- The number nearest to `num / den`, with the sign given. -/
def ofRatio (negative : Bool) (num den : Nat) : Number :=
  ofWord (Format.double.signed negative (Format.double.round num den))

def ofNat (n : Nat) : Number := ofRatio false n 1

def ofInt (n : Int) : Number := ofRatio (n < 0) n.natAbs 1

/-- The number with the other sign. -/
def negate (x : Number) : Number :=
  let unit := Format.double.signUnit
  ofWord (if x.isNegative then x.word - unit else x.word + unit)

/-- `significand * 2 ^ exponent` as a pair of naturals. -/
def fraction (significand : Nat) (exponent : Int) : Nat × Nat :=
  (significand * Nat.pow 2 exponent.toNat, Nat.pow 2 (-exponent).toNat)

private def infinity (negative : Bool) : Number :=
  ofWord (Format.double.signed negative Format.double.infinity)

/-- A product is rounded once. -/
def mul (x y : Number) : Number :=
  let negative := x.isNegative != y.isNegative
  match x.magnitude, y.magnitude with
  | .nan, _ | _, .nan => nan
  | .infinite, .infinite => infinity negative
  | .infinite, .finite m _ | .finite m _, .infinite => if m = 0 then nan else infinity negative
  | .finite m e, .finite n d =>
    let (num, den) := fraction (m * n) (e + d)
    ofRatio negative num den

/-- A quotient is rounded once. -/
def div (x y : Number) : Number :=
  let negative := x.isNegative != y.isNegative
  match x.magnitude, y.magnitude with
  | .nan, _ | _, .nan | .infinite, .infinite => nan
  | .infinite, .finite .. => infinity negative
  | .finite .., .infinite => ofRatio negative 0 1
  | .finite m e, .finite n d =>
    if n = 0 then if m = 0 then nan else infinity negative
    else
      let (num, den) := fraction m (e - d)
      ofRatio negative num (den * n)

/-- A sum is rounded once; an exact zero is positive unless both terms are negative. -/
def add (x y : Number) : Number :=
  match x.magnitude, y.magnitude with
  | .nan, _ | _, .nan => nan
  | .infinite, .infinite => if x.isNegative == y.isNegative then x else nan
  | .infinite, .finite .. => x
  | .finite .., .infinite => y
  | .finite m e, .finite n d =>
    let least := min e d
    let a : Int := (m * Nat.pow 2 (e - least).toNat : Nat)
    let b : Int := (n * Nat.pow 2 (d - least).toNat : Nat)
    let sum := (if x.isNegative then -a else a) + (if y.isNegative then -b else b)
    let negative := if sum = 0 then x.isNegative && y.isNegative else decide (sum < 0)
    let (num, den) := fraction sum.natAbs least
    ofRatio negative num den

/-- Twice a number. What is not a number keeps its payload and becomes quiet. -/
def double (x : Number) : Number :=
  if x.isNaN then ⟨x.bits ||| 0x0008000000000000⟩ else add x x

/-- The whole part of a positive number, and zero for anything else that is not above it. -/
def wholePart (x : Number) : Nat :=
  if x.isNegative then 0
  else match x.magnitude with
    | .finite m e => let (num, den) := fraction m e; num / den
    | _ => 0

end Number

namespace Single

def word (x : Single) : Nat := x.bits.toNat

def isNegative (x : Single) : Bool := Format.single.isNegative x.word

def magnitude (x : Single) : Magnitude := Format.single.decode x.word

/-- The same number in the wider format. A payload keeps its leading bits and becomes quiet. -/
def toNumber (x : Single) : Number :=
  match x.magnitude with
  | .nan =>
    let payload := x.word % Nat.pow 2 23 * Nat.pow 2 29
    let quiet : Number := .ofWord
      (Format.double.signed x.isNegative (Format.double.infinity + payload))
    ⟨quiet.bits ||| 0x0008000000000000⟩
  | .infinite => .ofWord (Format.double.signed x.isNegative Format.double.infinity)
  | .finite m e =>
    let (num, den) := Number.fraction m e
    .ofRatio x.isNegative num den

end Single

end Membrane
