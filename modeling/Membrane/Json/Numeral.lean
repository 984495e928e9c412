import Membrane.Json.Basic
/-!
Reading numerals. Digits are gathered in a 64-bit significand; further digits of the whole part
only raise the exponent and further decimals are dropped. The power of ten is applied in steps of
at most 308, each rounded.
-/

set_option autoImplicit false

namespace Membrane.Numeral

/-- The significands that fit are below `2 ^ 64`. -/
def limit : Nat := 0x10000000000000000

def digit? (c : Char) : Option Nat :=
  if '0' ≤ c ∧ c ≤ '9' then some (c.toNat - '0'.toNat) else none

/-- Digits taken into a significand while it fits: the significand, how many were taken, and the
rest of the text. -/
def gather (significand count : Nat) : List Char → Nat × Nat × List Char
  | [] => (significand, count, [])
  | c :: rest =>
    match digit? c with
    | some d =>
      if significand * 10 + d < limit then gather (significand * 10 + d) (count + 1) rest
      else (significand, count, c :: rest)
    | none => (significand, count, c :: rest)

/-- The digits at the front of a text: how many, and the rest. -/
def skipDigits (count : Nat) : List Char → Nat × List Char
  | [] => (count, [])
  | c :: rest =>
    match digit? c with
    | some _ => skipDigits (count + 1) rest
    | none => (count, c :: rest)

private def powerOfTen (k : Nat) : Number := .ofNat (Nat.pow 10 k)

/-- A number times a power of ten. The text has no value if it is too large. -/
def scale : Nat → Number → Int → Option Number
  | 0, _, _ => none
  | steps + 1, x, exponent =>
    if exponent.natAbs ≤ 308 then
      if 0 ≤ exponent then
        let y := x.mul (powerOfTen exponent.natAbs)
        if y.isFinite then some y else none
      else some (x.div (powerOfTen exponent.natAbs))
    else if x.isZero then some x
    else if 0 ≤ exponent then none
    else scale steps (x.div (powerOfTen 308)) (exponent + 308)

private def withSign (negative : Bool) (x : Number) : Number :=
  if negative then x.negate else x

/-- The number of a significand and a power of ten. A significand divided by ten three times in
steps of 308 is zero, so five steps are enough. -/
def ofParts (negative : Bool) (significand : Nat) (exponent : Int) : Option Number :=
  (scale 5 (.ofNat significand) exponent).map (withSign negative)

/-- The greatest exponent that is read as written. -/
def exponentLimit : Int := 0x7fffffff

private def clampExponent (e : Int) : Int := max (-exponentLimit - 1) (min e exponentLimit)

/-- Reads what follows the mark of an exponent. -/
def readExponent (negative : Bool) (significand : Nat) (start : Int) (cs : List Char) :
    Option (Numeral × List Char) :=
  let (down, digits) := match cs with
    | '+' :: rest => (false, rest)
    | '-' :: rest => (true, rest)
    | _ => (false, cs)
  let (count, rest) := skipDigits 0 digits
  if count = 0 then none
  else
    let value : Int := (digits.take count).foldl (fun n c => n * 10 + (digit? c).getD 0) 0
    if exponentLimit < value then
      if significand ≠ 0 ∧ !down then none
      else some (.real (withSign negative .zero), rest)
    else do
      let exponent := clampExponent (if down then start - value else start + value)
      let x ← ofParts negative significand exponent
      some (.real x, rest)

/-- Reads what follows the digits of a number: nothing or an exponent. -/
def readTail (negative : Bool) (significand : Nat) (exponent : Int) (cs : List Char) :
    Option (Numeral × List Char) :=
  match cs with
  | 'e' :: rest | 'E' :: rest => readExponent negative significand exponent rest
  | _ => (ofParts negative significand exponent).map fun x => (.real x, cs)

/-- Reads the decimals behind a point; there is at least one. -/
def readDecimals (negative : Bool) (significand : Nat) (exponent : Int) (cs : List Char) :
    Option (Numeral × List Char) :=
  let (significand, count, rest) := gather significand 0 cs
  let (dropped, rest) := skipDigits 0 rest
  if count = 0 ∧ dropped = 0 then none
  else readTail negative significand (exponent - count) rest

/-- Reads a numeral after its sign. -/
def readUnsigned (negative : Bool) (cs : List Char) : Option (Numeral × List Char) :=
  let (significand, count, rest) := gather 0 0 cs
  let (extra, rest) := skipDigits 0 rest
  let leadingZero := match cs with
    | '0' :: _ => decide (1 < count)
    | _ => false
  if count = 0 ∨ leadingZero = true then none
  else match rest with
    | '.' :: rest => readDecimals negative significand extra rest
    | 'e' :: _ | 'E' :: _ => readTail negative significand extra rest
    | _ =>
      if extra ≠ 0 then readTail negative significand extra rest
      else if !negative then some (.whole significand, rest)
      else if significand = 0 ∨ 0x8000000000000000 < significand then
        some (.real (Number.ofNat significand).negate, rest)
      else some (.whole (-significand), rest)

/-- Reads the numeral at the front of a text. -/
def read (cs : List Char) : Option (Numeral × List Char) :=
  match cs with
  | '-' :: rest => readUnsigned true rest
  | _ => readUnsigned false cs

end Membrane.Numeral
