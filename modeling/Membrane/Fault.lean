import Membrane.Boundary.Wire
import Membrane.Host.Value
import Membrane.Text.Quoted
/-!
What can go wrong. A `Fault` is an outcome that a caller handles. A `Misuse` is a defect of the
caller and ends what was going on.
-/

set_option autoImplicit false

namespace Membrane

/-- What was tried with a handle. -/
inductive HandleUse where
  | read
  | retain
  | release
  | lift
  | transferAcross
  | other (name : String)
deriving DecidableEq, Repr

namespace HandleUse

def name : HandleUse → String
  | .read => "read"
  | .retain => "retain"
  | .release => "release"
  | .lift => "lift"
  | .transferAcross => "transfer from a foreign realm"
  | .other name => name

end HandleUse

inductive Fault where
  /-- A handle that is not live, or not of this realm. -/
  | invalidReference (handle : Handle) (use : HandleUse)
  /-- The host threw a value. -/
  | hostException (value : Host.Value)
  /-- A value is not of the type asked for; what was found is described in the exact style. -/
  | typeMismatch (expected : String) (found : String)
  | threadUnavailable (thread : ThreadIndex)
  | transferAborted
deriving DecidableEq, Repr

namespace Fault

/-- The fault of a word of the wrong type. -/
def wireMismatch (expected : String) (found : Wire) : Fault :=
  .typeMismatch expected found.exactText

/-- The fault of a value of the wrong type, which is named in quotes. -/
def valueMismatch (expected : String) (found : String) : Fault :=
  .typeMismatch expected (Text.quoted found)

def isInvalidReference : Fault → Bool
  | .invalidReference .. => true
  | _ => false

def exception? : Fault → Option Host.Value
  | .hostException v => some v
  | _ => none

def kindName : Fault → String
  | .invalidReference .. => "InvalidReference"
  | .hostException _ => "HostException"
  | .typeMismatch .. => "TypeMismatch"
  | .threadUnavailable _ => "ThreadUnavailable"
  | .transferAborted => "TransferAborted"

/-- The text of a fault, given the text of a thrown value. -/
def messageWith (thrownText : Host.Value → String) : Fault → String
  | .invalidReference h use =>
    "attempted to " ++ use.name ++ " invalid reference " ++ toString h.raw.toNat
  | .hostException v => thrownText v
  | .typeMismatch expected found => "type mismatch: expected " ++ expected ++ ", found " ++ found
  | .threadUnavailable t => t.text ++ " is not attached to the runtime"
  | .transferAborted => "transfer aborted before the object was delivered"

/-- The exact text of a fault, given the exact text of a thrown value. -/
def exactTextWith (thrownText : Host.Value → String) : Fault → String
  | .invalidReference h use =>
    "InvalidReference \x7b handle: " ++ h.text ++ ", operation: " ++ Text.quoted use.name ++ " \x7d"
  | .hostException v => thrownText v
  | .typeMismatch expected found =>
    "TypeMismatch \x7b expected: " ++ Text.quoted expected ++ ", found: " ++ Text.quoted found ++
      " \x7d"
  | .threadUnavailable t => "ThreadUnavailable(" ++ t.exactText ++ ")"
  | .transferAborted => "TransferAborted"

end Fault

namespace Wire

def asI32 : Wire → Except Fault Int32
  | .i32 n => .ok n
  | w => .error (.wireMismatch "i32" w)

def asF64 : Wire → Except Fault Number
  | .f64 x => .ok x
  | w => .error (.wireMismatch "f64" w)

def asF32 : Wire → Except Fault Single
  | .f32 x => .ok x
  | w => .error (.wireMismatch "f32" w)

def asHandle (w : Wire) : Except Fault Handle := w.asI32.map .ofWire

end Wire

/-- A defect of the caller. -/
inductive Misuse where
  | doubleReceive (correlation : Nat)
  | alreadyFulfilled (correlation : Nat)
  | unregisteredContinuation (correlation : Nat)
  | notInstalled (thread : String)
  | foreignThreadAccess (owner : ThreadIndex)
deriving DecidableEq, Repr

namespace Misuse

def text : Misuse → String
  | .doubleReceive n =>
    "transfer #" ++ toString n ++ " is already received; receive may be called only once"
  | .alreadyFulfilled n => "transfer #" ++ toString n ++ " was already fulfilled"
  | .unregisteredContinuation n => "transfer #" ++ toString n ++ " has no registered continuation"
  | .notInstalled thread =>
    "executor for thread `" ++ thread ++ "` used before a scheduler was installed"
  | .foreignThreadAccess owner =>
    "realm owned by " ++ owner.text ++ " accessed from another thread"

def exactText : Misuse → String
  | .doubleReceive n => "DoubleReceive \x7b correlation: " ++ toString n ++ " \x7d"
  | .alreadyFulfilled n => "AlreadyFulfilled \x7b correlation: " ++ toString n ++ " \x7d"
  | .unregisteredContinuation n =>
    "UnregisteredContinuation \x7b correlation: " ++ toString n ++ " \x7d"
  | .notInstalled thread => "NotInstalled \x7b thread: " ++ Text.quoted thread ++ " \x7d"
  | .foreignThreadAccess owner =>
    "ForeignThreadAccess \x7b owner: " ++ owner.exactText ++ " \x7d"

/-- What is reported when a misuse ends what was going on. -/
def report (m : Misuse) : String := "protocol misuse: " ++ m.text

end Misuse

end Membrane
