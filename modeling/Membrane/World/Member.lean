import Membrane.World.Convert
/-!
Host classes as a guest sees them. The members of a class are imports named by namespace, class and
member; `init` makes an instance, and every other member gets the handle of its instance first.
-/

set_option autoImplicit false

namespace Membrane

/-- A host class by the names its members are found under. -/
structure Guest.Class where
  space : String
  name : String
deriving DecidableEq, Repr

namespace Guest.Class

/-- The import of a member. -/
def importName (c : Guest.Class) (member : String) : String :=
  c.space ++ "_" ++ c.name ++ "_" ++ member

/-- The import that makes an instance. -/
def initName (c : Guest.Class) : String := c.importName "init"

end Guest.Class

namespace Act

/-- Makes an instance of a class. -/
def newInstance (p : Performer) (r : RealmId) (c : Guest.Class) (args : List Wire) :
    Act (Except Fault Guest.Ref) := do
  match ← callImport p r c.initName args with
  | .error e => return .error e
  | .ok w => return (← liftHandle r w).map fun h => ⟨r, h⟩

/-- Calls a member of an instance. -/
def callMember (p : Performer) (c : Guest.Class) (this : Guest.Ref) (member : String)
    (args : List Wire) (type : Guest.ResultType) : Act (Except Fault Guest.Result) :=
  callTyped p this.realm (c.importName member) (.ofHandle this.handle :: args) type

/-- Reads a property of an instance. -/
def getMember (p : Performer) (c : Guest.Class) (this : Guest.Ref) (property : String)
    (type : Guest.ResultType) : Act (Except Fault Guest.Result) :=
  callMember p c this (property ++ "_get") [] type

/-- Stores a property of an instance. -/
def setMember (p : Performer) (c : Guest.Class) (this : Guest.Ref) (property : String)
    (v : Guest.Argument) : Act (Except Fault Unit) := do
  let word ← lower this.realm v
  return (← callMember p c this (property ++ "_set") [word] .unit).map fun _ => ()

end Act

end Membrane
