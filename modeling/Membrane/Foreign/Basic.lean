import Membrane.Code
/-!
Foreign code that may throw. `Foreign` is code whose thrown value ends it.
-/

set_option autoImplicit false

namespace Membrane

/-- Code that ends with a result or throws a host value. -/
abbrev Foreign := ExceptT Host.Value Code

namespace Foreign

variable {α : Type}

def ask (r : Request) : Foreign r.Answer := ExceptT.lift (Code.request r)

/-- Asks for something that may throw, and throws what it throws. -/
def attempt (r : Request) (h : r.Answer = Except Host.Value α) : Foreign α :=
  ExceptT.mk (h ▸ Code.request r)

def typeError (message : String) : Foreign α := ExceptT.mk (Code.throwTypeError message)

/-- A fault as a thrown value: the host's own value, or a type error with the text of the fault. -/
def ofFault : Fault → Foreign α
  | .hostException v => throw v
  | fault => typeError (fault.messageWith fun _ => "")

/-- A result of the runtime; a fault is thrown. -/
def ofResult : Except Fault α → Foreign α
  | .ok a => return a
  | .error fault => ofFault fault

/-- Asks for something that may fail, and throws the fault. -/
def askFor (r : Request) (h : r.Answer = Except Fault α) : Foreign α := do
  ofResult (h ▸ (← ask r))

def log (line : String) : Foreign Unit := ask (.log line)

/-- The text that a value is shown as. -/
def text (v : Host.Value) : Foreign String := ask (.text v)

/-- The texts of values, with a mark between them. -/
def textsJoined (mark : String) (values : List Host.Value) : Foreign String := do
  return mark.intercalate (← values.mapM text)

end Foreign

end Membrane
