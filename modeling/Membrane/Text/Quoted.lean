import Membrane.Text.Ranges
/-!
Quoted text. Quotes, backslashes and the common controls have short escapes, every other character
without a form of its own in print is written by its code point, and so is one that extends the
character before it.
-/

set_option autoImplicit false

namespace Membrane.Text

/-- Whether a character stands for itself between quotes. -/
def isPlain (c : Char) : Bool :=
  let n := c.toNat
  if n < 0x7f then 0x20 ≤ n
  else !inRanges extending n && !inRanges unprintable n

/-- The code point of a character in hexadecimal. -/
def hexCode (c : Char) : List Char := Nat.toDigits 16 c.toNat

/-- What is written for one character. -/
def escape (c : Char) : List Char :=
  if c = '"' then ['\\', '"']
  else if c = '\\' then ['\\', '\\']
  else if c = '\n' then ['\\', 'n']
  else if c = '\r' then ['\\', 'r']
  else if c = '\t' then ['\\', 't']
  else if c = '\x00' then ['\\', '0']
  else if isPlain c then [c]
  else ['\\', 'u', '\x7b'] ++ hexCode c ++ ['\x7d']

/-- A text between double quotes. -/
def quoted (s : String) : String :=
  String.ofList ('"' :: s.toList.flatMap escape ++ ['"'])

end Membrane.Text
