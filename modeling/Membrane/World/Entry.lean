import Membrane.World.Call
/-!
Entry points for generated code, which knows integers and bytes only. They act on the realm attached
last on the running thread. Zero stands for no handle, and a negative status for a failure, which is
also what every one of them answers where no realm is attached.
-/

set_option autoImplicit false

namespace Membrane

namespace Entry

/-- The version of the boundary. -/
def version : Nat := 1

/-- The status of a failure. -/
def failed : Int := -1

/-- The arguments of a call before they are filled in. -/
def prepare (count : Nat) : List Raw := List.replicate count .undefined

/-- A length as a status; one that is not below `2 ^ 31` fails. -/
def lengthStatus (n : Nat) : Int := if n < 0x80000000 then n else failed

/-- Bytes that may be missing altogether. -/
inductive Bytes where
  | present (bytes : ByteArray)
  /-- No bytes, of a length. -/
  | absent (length : Nat)

namespace Bytes

/-- The text of bytes, if there is one. -/
def text? : Bytes → Option String
  | .present bytes => String.fromUTF8? bytes
  | .absent 0 => some ""
  | .absent _ => none

end Bytes

/-- Runs an action in the realm of the running thread. -/
def inRealm {α : Type} (otherwise : α) (act : RealmId → Act α) : Act α := do
  let w ← get
  match w.current.lookup w.here with
  | some c => act c.realm
  | none => return otherwise

/-- The features of the attached realm; without one, those that are offered by default. -/
def features : Act Int := do
  inRealm (Features.negotiate true).bits.toInt32.toInt fun _ => do
    return (← get).runtime.features.bits.toInt32.toInt

def retain (h : Handle) : Act Handle :=
  inRealm .invalid fun r => do
    match ← Act.retainHandle r h with
    | .ok () => return h
    | .error _ => return .invalid

def release (h : Handle) : Act Int :=
  inRealm failed fun r => do
    match ← Act.release r h with
    | .ok () => return 0
    | .error _ => return failed

/-- Takes the thrown value: a handle to it. -/
def takeException : Act Handle :=
  inRealm .invalid fun r => do
    match ← Act.takeException r with
    | some v => Act.retain r v
    | none => return .invalid

def makeString (bytes : Bytes) : Act Handle := do
  match bytes.text? with
  | none => return .invalid
  | some s => inRealm .invalid fun r => Act.makeString r s

def stringLength (h : Handle) : Act Int :=
  inRealm failed fun r => do
    match ← Act.stringLength r h with
    | .ok n => return lengthStatus n
    | .error _ => return failed

/-- Copies the bytes of a string into room of a size, if there is any room: how many were copied,
and which. -/
def decodeString (h : Handle) (size : Nat) (absent : Bool) : Act (Int × ByteArray) :=
  if absent && size != 0 then return (failed, .empty)
  else inRealm (failed, .empty) fun r => do
    match ← Act.decodeString r h size with
    | .ok bytes => return (lengthStatus bytes.size, bytes)
    | .error _ => return (failed, .empty)

/-- Calls a guest function. It answers with a status and the result: zero and the result, or one and
undefined if it threw. Nothing is written where the arguments or the place of the result are
missing. -/
def callFunction (p : Performer) (id : FunctionId) (args : Option (List Raw)) (absent : Nat)
    (hasPlace : Bool) : Act (Int × Option Raw) := do
  if !hasPlace || (args.isNone && absent != 0) then return (failed, none)
  else inRealm (failed, none) fun r => do
    match ← Act.callFunction p r id (args.getD []) with
    | .ok raw => return (0, some raw)
    | .error v =>
      Act.setException r v
      return (1, some .undefined)

def freeFunction (id : FunctionId) : Act Int :=
  inRealm failed fun r => do
    if ← Act.freeFunction r id then return 0 else return failed

end Entry

end Membrane
