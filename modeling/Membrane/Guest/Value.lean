import Membrane.Boundary.Handle
import Membrane.Host.Value
/-!
Values of a guest. Scalars and text are copies; objects and functions are references that the guest
owns in a realm and has to give back.
-/

set_option autoImplicit false

namespace Membrane.Guest

/-- One owned reference to a handle of a realm. -/
structure Ref where
  realm : RealmId
  handle : Handle
deriving DecidableEq, Repr

/-- The text of a reference, given the thread of its realm. -/
def Ref.textIn (r : Ref) (thread : ThreadIndex) : String :=
  "HostRef(" ++ toString r.handle.raw.toNat ++ " in " ++ thread.text ++ ")"

inductive Value where
  | undefined
  | null
  | bool (b : Bool)
  | number (x : Number)
  | string (s : String)
  | object (r : Ref)
  | function (r : Ref)
deriving DecidableEq, Repr

namespace Value

def typeName : Value → String
  | .undefined => "undefined"
  | .null | .object _ => "object"
  | .bool _ => "boolean"
  | .number _ => "number"
  | .string _ => "string"
  | .function _ => "function"

/-- The reference of an object or a function. -/
def ref? : Value → Option Ref
  | .object r | .function r => some r
  | _ => none

end Value

/-- A guest function made known to the host: its number, and a reference to its function object. -/
structure Closure where
  function : FunctionId
  ref : Ref
deriving DecidableEq, Repr

end Membrane.Guest
