import Membrane.Guest.Typed
import Membrane.World.Call
/-!
Typed values as words and back. A string is lowered for the next import that is called; reading one
gives its handle back. A reference that is read is owned by the reader.
-/

set_option autoImplicit false

namespace Membrane.Act

/-- The word of a typed value. -/
def lower (r : RealmId) (v : Guest.Argument) : Act Wire := do
  match v with
  | .i32 n => return .i32 n
  | .u32 n => return .i32 n.toInt32
  | .bool b => return .ofBool b
  | .f64 x => return .f64 x
  | .f32 x => return .f32 x
  | .void => return .void
  | .string s => return .ofHandle (← lowerString r s)
  | .handle h => return .ofHandle h
  | .ref ref => return .ofHandle ref.handle

/-- The live handle of a word. -/
def liftHandle (r : RealmId) (w : Wire) : Act (Except Fault Handle) := do
  match w.asHandle with
  | .error e => return .error e
  | .ok h => if ← contains r h then return .ok h else return .error (.invalidReference h .lift)

/-- The promise of a reference. -/
def promiseOf (ref : Guest.Ref) : Act (Except Fault PromiseId) := do
  match ← read ref.realm ref.handle with
  | .error e => return .error e
  | .ok v =>
    match (← get).heap.promise? v with
    | some p => return .ok p
    | none => return .error (.valueMismatch "promise" (← typeName v))

/-- The promise of a reference that is handed over; one that stands for none is let go. -/
def takePromise (ref : Guest.Ref) : Act (Except Fault PromiseId) := do
  match ← onHalt (promiseOf ref) (dropRef ref) with
  | .ok p => return .ok p
  | .error e =>
    dropRef ref
    return .error e

/-- A reference as one to a promise; one to anything else is let go. -/
def asPromise (ref : Guest.Ref) : Act (Except Fault Guest.Ref) := do
  return (← takePromise ref).map fun _ => ref

/-- Reads a word as a type. -/
def lift (r : RealmId) (type : Guest.ResultType) (w : Wire) :
    Act (Except Fault Guest.Result) := do
  match type with
  | .unit => return .ok .unit
  | .bool => return w.asI32.map fun n => .bool (n != 0)
  | .i32 => return w.asI32.map .i32
  | .u32 => return w.asI32.map fun n => .u32 n.toUInt32
  | .f64 => return w.asF64.map .f64
  | .f32 => return w.asF32.map .f32
  | .string =>
    match w.asHandle with
    | .error e => return .error e
    | .ok h => return (← loadString r h).map .string
  | .handle => return (← liftHandle r w).map .handle
  | .ref => return (← liftHandle r w).map fun h => .ref ⟨r, h⟩
  | .promise =>
    match ← liftHandle r w with
    | .error e => return .error e
    | .ok h => return (← asPromise ⟨r, h⟩).map .promise

/-- Calls an import and reads its answer. -/
def callTyped (p : Performer) (r : RealmId) (name : String) (args : List Wire)
    (type : Guest.ResultType) : Act (Except Fault Guest.Result) := do
  match ← callImport p r name args with
  | .error e => return .error e
  | .ok w => lift r type w

end Membrane.Act
