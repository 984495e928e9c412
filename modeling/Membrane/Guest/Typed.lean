import Membrane.Boundary.Wire
import Membrane.Guest.Value
/-!
Typed values of a guest, as they are passed to imports and read from what imports answer.
-/

set_option autoImplicit false

namespace Membrane.Guest

/-- A typed value that a guest passes. References are borrowed. -/
inductive Argument where
  | i32 (n : Int32)
  | u32 (n : UInt32)
  | bool (b : Bool)
  | f64 (x : Number)
  | f32 (x : Single)
  | void
  | string (s : String)
  | handle (h : Handle)
  | ref (r : Ref)
deriving DecidableEq, Repr

/-- The type that an answer is read as. -/
inductive ResultType where
  | unit
  | bool
  | i32
  | u32
  | f64
  | f32
  | string
  | handle
  | ref
  | promise
deriving DecidableEq, Repr

/-- An answer that was read. -/
inductive Result where
  | unit
  | bool (b : Bool)
  | i32 (n : Int32)
  | u32 (n : UInt32)
  | f64 (x : Number)
  | f32 (x : Single)
  | string (s : String)
  | handle (h : Handle)
  | ref (r : Ref)
  /-- A reference that stands for a promise. -/
  | promise (r : Ref)
deriving DecidableEq, Repr

end Membrane.Guest
