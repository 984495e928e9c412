/-!
Blank characters, trimming, and the lower case of the Latin letters without marks.
-/

set_option autoImplicit false

namespace Membrane.Text

/-- The white space of the whole character set. -/
def isBlank (c : Char) : Bool :=
  let n := c.toNat
  (9 ≤ n && n ≤ 13) || n == 0x20 || n == 0x85 || n == 0xa0 || n == 0x1680 ||
    (0x2000 ≤ n && n ≤ 0x200a) || n == 0x2028 || n == 0x2029 || n == 0x202f || n == 0x205f ||
    n == 0x3000

/-- A text without the blanks at its ends. -/
def trim (s : String) : String :=
  String.ofList (((s.toList.dropWhile isBlank).reverse.dropWhile isBlank).reverse)

/-- A text with `A` to `Z` made small and every other character kept. -/
def lowered (s : String) : String :=
  String.ofList (s.toList.map Char.toLower)

end Membrane.Text
