import Membrane.Number.Shortest
/-!
How numbers are written. The plain style is positional whatever the size. The exact style marks
whole numbers with `.0` and moves to an exponent outside of `10^-4` to `10^16`.
-/

set_option autoImplicit false

namespace Membrane

/-- What a writer of numbers decides. -/
structure NumberStyle where
  /-- Whether a whole number ends in `.0`. -/
  marksWhole : Bool
  /-- The powers of ten of the leading digit that are written in positions; all if absent. -/
  positional : Option (Int × Int)
deriving Repr

namespace NumberStyle

/-- Positions only, and no mark on whole numbers. -/
def plain : NumberStyle := ⟨false, none⟩

/-- Whole numbers are marked, and the leading digit of a positional text is worth at least
`10^-4` and less than `10^16`. -/
def exact : NumberStyle := ⟨true, some (-4, 15)⟩

private def zeros (n : Nat) : String := String.ofList (List.replicate n '0')

/-- Digits around a decimal point. -/
def writePositions (style : NumberStyle) (digits : String) (exponent : Int) : String :=
  let count := digits.length
  let point : Int := count + exponent
  if point ≤ 0 then "0." ++ zeros (-point).toNat ++ digits
  else if count ≤ point then
    digits ++ zeros (point - count).toNat ++ if style.marksWhole then ".0" else ""
  else
    let cs := digits.toList
    String.ofList (cs.take point.toNat) ++ "." ++ String.ofList (cs.drop point.toNat)

/-- One digit, the rest behind the point, and the power of ten of the first. -/
def writeExponent (digits : String) (leading : Int) : String :=
  let mantissa := match digits.toList with
    | [] | [_] => digits
    | d :: rest => String.ofList (d :: '.' :: rest)
  mantissa ++ "e" ++ toString leading

/-- The text of a positive decimal. -/
def writeDecimal (style : NumberStyle) (d : Decimal) : String :=
  let digits := toString d.digits
  let leading := (digits.length : Int) + d.exponent - 1
  match style.positional with
  | some (least, greatest) =>
    if least ≤ leading ∧ leading ≤ greatest then style.writePositions digits d.exponent
    else writeExponent digits leading
  | none => style.writePositions digits d.exponent

/-- The text of a word of the format given. -/
def write (style : NumberStyle) (f : Format) (word : Nat) : String :=
  let sign := if f.isNegative word then "-" else ""
  match f.decode word with
  | .nan => "NaN"
  | .infinite => sign ++ "inf"
  | .finite 0 _ => sign ++ if style.marksWhole then "0.0" else "0"
  | .finite m e => sign ++ style.writeDecimal (Decimal.shortest f m e)

end NumberStyle

/-- A word in lower-case hexadecimal, filled up with zeros to the width given. -/
def hexWord (width word : Nat) : String :=
  let digits := Nat.toDigits 16 word
  String.ofList (List.replicate (width - digits.length) '0' ++ digits)

namespace Number

/-- The word of a number in hexadecimal. -/
def hexText (x : Number) : String := hexWord 16 x.word

/-- The plain text of a number. -/
def plainText (x : Number) : String := NumberStyle.plain.write .double x.word

/-- The exact text of a number. -/
def exactText (x : Number) : String := NumberStyle.exact.write .double x.word

end Number

namespace Single

/-- The word of a number in hexadecimal. -/
def hexText (x : Single) : String := hexWord 8 x.word

/-- The exact text of a number. -/
def exactText (x : Single) : String := NumberStyle.exact.write .single x.word

end Single

end Membrane
