import Membrane.Boundary.Handle
import Membrane.Number.Text
/-!
What crosses the boundary: single words for typed calls, and tagged triples for calls whose types
are not known in advance.
-/

set_option autoImplicit false

namespace Membrane

/-- A word of a typed call. -/
inductive Wire where
  | i32 (n : Int32)
  | f64 (x : Number)
  | f32 (x : Single)
  | void
deriving DecidableEq, Repr, Inhabited

namespace Wire

def exactText : Wire → String
  | .i32 n => "I32(" ++ toString n.toInt ++ ")"
  | .f64 x => "F64(" ++ x.exactText ++ ")"
  | .f32 x => "F32(" ++ x.exactText ++ ")"
  | .void => "Void"

def ofHandle (h : Handle) : Wire := .i32 h.toWire

def ofBool (b : Bool) : Wire := .i32 (if b then 1 else 0)

end Wire

/-- What a tagged value is. -/
inductive RawKind where
  | boolean
  | string
  | number
  | object
  | null
  | undefined
  | function
deriving DecidableEq, Repr

namespace RawKind

def ofTag? : UInt32 → Option RawKind
  | 0 => some .boolean
  | 1 => some .string
  | 2 => some .number
  | 3 => some .object
  | 4 => some .null
  | 5 => some .undefined
  | 6 => some .function
  | _ => none

def name : RawKind → String
  | .boolean => "Boolean"
  | .string => "String"
  | .number => "Number"
  | .object => "Object"
  | .null => "Null"
  | .undefined => "Undefined"
  | .function => "Function"

end RawKind

/-- A tagged value: a kind, an integer that holds a flag or a handle, and a number. -/
structure Raw where
  kind : RawKind
  int : Int32
  number : Number
deriving DecidableEq, Repr

namespace Raw

def undefined : Raw := ⟨.undefined, 0, .zero⟩

def null : Raw := ⟨.null, 0, .zero⟩

def ofBool (b : Bool) : Raw := ⟨.boolean, if b then 1 else 0, .zero⟩

def ofNumber (x : Number) : Raw := ⟨.number, 0, x⟩

def ofHandle (kind : RawKind) (h : Handle) : Raw := ⟨kind, h.toWire, .zero⟩

/-- The handle of a value that is kept on the other side. -/
def handle? (r : Raw) : Option Handle :=
  match r.kind with
  | .string | .object | .function => some (.ofWire r.int)
  | _ => none

def exactText (r : Raw) : String :=
  "RawValue \x7b kind: " ++ r.kind.name ++ ", payload1: " ++ toString r.int.toInt ++
    ", payload2: " ++ r.number.exactText ++ " \x7d"

end Raw

end Membrane
