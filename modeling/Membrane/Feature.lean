/-!
The features that the two sides of the boundary agree on, as a word of flags.
-/

set_option autoImplicit false

namespace Membrane

structure Features where
  bits : UInt32
deriving DecidableEq, Repr

namespace Features

/-- The flag of weak references. -/
def weakFlag : UInt32 := 1

/-- Whether every flag of a word is set. -/
def contains (f : Features) (flags : UInt32) : Bool := f.bits &&& flags == flags

/-- The features with more flags set. -/
def withFlags (f : Features) (flags : UInt32) : Features := ⟨f.bits ||| flags⟩

def weakRefs (f : Features) : Bool := f.contains weakFlag

/-- The features of a runtime that does or does not use weak references. -/
def negotiate (weak : Bool) : Features := if weak then ⟨weakFlag⟩ else ⟨0⟩

/-- The flags in binary, and the name of the one that has a name. -/
def text (f : Features) : String :=
  let digits := String.ofList (Nat.toDigits 2 f.bits.toNat)
  "LibraryFeatures(0b" ++ digits ++ (if f.weakRefs then " weak-refs" else "") ++ ")"

end Features

end Membrane
