import Membrane.Foreign.Basic
/-!
Host functions and constructors of common shapes.
-/

set_option autoImplicit false

namespace Membrane.Host

namespace Function

/-- Returns one value. -/
def const (v : Value) : Function := ⟨[v], fun _ _ => return .ok v⟩

/-- Throws one value. -/
def throwing (v : Value) : Function := ⟨[v], fun _ _ => return .error v⟩

/-- Returns one of the arguments, or undefined. -/
def argument (place : Nat) : Function := ⟨[], fun _ args => return .ok (args.getD place .undefined)⟩

/-- Returns the receiver. -/
def receiver : Function := ⟨[], fun this _ => return .ok this⟩

/-- Returns how many arguments there are. -/
def argumentCount : Function := ⟨[], fun _ args => return .ok (.number (.ofNat args.length))⟩

/-- The number that a value is. -/
def number? : Value → Option Number
  | .number x => some x
  | _ => none

/-- Returns the sum of the arguments that are numbers. -/
def sum : Function :=
  ⟨[], fun _ args => return .ok (.number ((args.filterMap number?).foldl Number.add .zero))⟩

/-- Returns the types of the receiver and of the arguments. -/
def types : Function where
  holds := []
  run this args := ExceptT.run (m := Code) do
    let names ← (this :: args).mapM fun v => (Foreign.ask (.typeName v) : Foreign String)
    return .string (",".intercalate names)

/-- Returns the texts of the arguments. -/
def display : Function where
  holds := []
  run _ args := ExceptT.run (m := Code) do
    return .string (← Foreign.textsJoined "|" args)

/-- Calls the first argument with the others. -/
def callFirst : Function where
  holds := []
  run _ args :=
    match args with
    | .object f :: rest => Code.request (.apply f .undefined rest)
    | _ => Code.throwTypeError "evalClosure needs a function"

/-- Adds the first argument, or one, to the count of the receiver and returns the new count. -/
def bump : Function where
  holds := []
  run this args := ExceptT.run (m := Code) do
    let object : ObjectId ← match this with
      | .object o => pure o
      | _ => Foreign.ask (.newObject none)
    let count : Value ← Foreign.ask (.property object "count")
    let step := ((args.head?).bind number?).getD (.ofNat 1)
    let sum := Value.number (((number? count).getD .zero).add step)
    Foreign.ask (.setProperty object "count" sum)
    return sum

/-- Stores the first argument in a property of the receiver. -/
def setProperty (name : String) : Function where
  holds := []
  run this args := ExceptT.run (m := Code) do
    match this with
    | .object o => Foreign.ask (.setProperty o name (args.getD 0 .undefined))
    | _ => pure ()
    return .undefined

/-- Calls a property of the receiver with the receiver and the arguments. -/
def callProperty (name : String) : Function where
  holds := []
  run this args := ExceptT.run (m := Code) do
    match this with
    | .object o =>
      match ← (Foreign.ask (.property o name) : Foreign Value) with
      | .object f => Foreign.attempt (.apply f this args) rfl
      | _ => Foreign.typeError "not set"
    | _ => Foreign.typeError "not set"

end Function

namespace Constructor

/-- Returns one value. -/
def const (v : Value) : Constructor := ⟨[v], fun _ => return .ok v⟩

/-- Throws one value. -/
def throwing (v : Value) : Constructor := ⟨[v], fun _ => return .error v⟩

/-- Makes a plain object of a class and stores the arguments under names, as far as both go. -/
def fields (className : String) (names : List String) : Constructor where
  holds := []
  run args := ExceptT.run (m := Code) do
    let o : ObjectId ← Foreign.ask (.newObject (some className))
    (names.zip args).forM fun (name, v) => Foreign.ask (.setProperty o name v)
    return .object o

end Constructor

end Membrane.Host
