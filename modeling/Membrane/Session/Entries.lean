import Membrane.Session.Realms
import Membrane.World.Entry
/-!
Steps that go through the entry points for generated code.
-/

set_option autoImplicit false

namespace Membrane.Session

inductive EntryStep where
  | version
  | features
  | retain (h : Handle)
  | release (h : Handle)
  | takeException
  | makeString (bytes : Entry.Bytes)
  | stringLength (h : Handle)
  /-- Decodes into a buffer of a size, or into none of that size. -/
  | decodeString (h : Handle) (size : Nat) (absent : Bool)
  | prepare (count : Nat)
  /-- Calls a guest function with arguments, or with none of a number, into a place for the result
  unless there is none. -/
  | callFunction (id : FunctionId) (args : Option (List Raw)) (absent : Nat) (hasPlace : Bool)
  | freeFunction (id : FunctionId)

namespace EntryStep

def perform : EntryStep → Act Answer
  | .version => return .int Entry.version
  | .features => return .int (← Entry.features)
  | .retain h => return answerHandle (← Entry.retain h)
  | .release h => return .int (← Entry.release h)
  | .takeException => return answerHandle (← Entry.takeException)
  | .makeString bytes => return answerHandle (← Entry.makeString bytes)
  | .stringLength h => return .int (← Entry.stringLength h)
  | .decodeString h size absent => do
    let (status, bytes) ← Entry.decodeString h size absent
    return .bytes status (if absent then none else some (buffer size bytes))
  | .prepare count => return .raws (Entry.prepare count)
  | .callFunction id args absent hasPlace => do
    let (status, out) ← Entry.callFunction Act.outermost id args absent hasPlace
    return .called status (out.getD .null)
  | .freeFunction id => return .int (← Entry.freeFunction id)

end EntryStep

end Membrane.Session
