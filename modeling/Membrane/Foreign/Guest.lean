import Membrane.Foreign.Basic
/-!
Guest functions of common shapes. They work in the realm attached last on the thread that calls
them.
-/

set_option autoImplicit false

namespace Membrane

namespace Foreign

/-- The realm of the running thread. -/
def currentRealm : Foreign RealmId := do
  match ← (ask .currentRealm : Foreign (Option RealmId)) with
  | some r => return r
  | none => typeError "no context"

/-- A guest value that the caller may keep: references are counted once more. -/
def copy (v : Guest.Value) : Foreign Guest.Value := askFor (.duplicate v) rfl

end Foreign

namespace Guest.Function

/-- Returns the guest's copy of a host value. -/
def const (v : Host.Value) : Function where
  holds := [v]
  run _ := ExceptT.run (m := Code) do
    Foreign.askFor (.adopt (← Foreign.currentRealm) v) rfl

/-- Throws a host value. -/
def throwing (v : Host.Value) : Function := ⟨[v], fun _ => return .error v⟩

/-- Returns how many arguments there are. -/
def argumentCount : Function := ⟨[], fun args => return .ok (.number (.ofNat args.length))⟩

/-- Returns one of the arguments, or undefined. -/
def echo (place : Nat) : Function where
  holds := []
  run args := ExceptT.run (m := Code) do Foreign.copy (args.getD place .undefined)

/-- Returns the types of the arguments. -/
def types : Function :=
  ⟨[], fun args => return .ok (.string (",".intercalate (args.map Value.typeName)))⟩

/-- Returns twice a number, and the type of anything else. -/
def double : Function where
  holds := []
  run args := return match args with
    | [] => .ok .undefined
    | .number x :: _ => .ok (.number x.double)
    | v :: _ => .ok (.string v.typeName)

/-- Greets a name a number of times. -/
def greet : Function where
  holds := []
  run args :=
    match args with
    | [.string name, .number x] => return .ok (.string (name ++ " x" ++ x.plainText))
    | _ => Code.throwTypeError "expected (string, number)"

/-- Calls the first argument with the others. -/
def callFirst : Function where
  holds := []
  run args := ExceptT.run (m := Code) do
    match args with
    | [] => return .undefined
    | f :: rest => Foreign.askFor (.reflectGuest f .call rest) rfl

/-- Reads a property of the first argument. -/
def property (name : String) : Function where
  holds := []
  run args := ExceptT.run (m := Code) do
    match args with
    | [] => return .undefined
    | v :: _ => Foreign.askFor (.getProperty v name) rfl

/-- Forgets a guest function: whether it was known. -/
def freeing (id : FunctionId) : Function where
  holds := []
  run _ := ExceptT.run (m := Code) do
    return .bool (← Foreign.ask (.freeFunction (← Foreign.currentRealm) id))

/-- Returns a reference to a handle without retaining it. -/
def adopting (h : Handle) : Function where
  holds := []
  run _ := ExceptT.run (m := Code) do return .object ⟨← Foreign.currentRealm, h⟩

end Guest.Function

end Membrane
