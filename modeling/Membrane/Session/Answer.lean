import Membrane.Guest.Typed
import Membrane.World.Convert
/-!
What a session answers. Host values are answered as they are seen from outside: an object by its
class, its kind, its text and the first name that the session has for it.
-/

set_option autoImplicit false

namespace Membrane.Session

/-- A host value as it is seen. -/
inductive Seen where
  | undefined
  | null
  | bool (b : Bool)
  | number (x : Number)
  | string (s : String)
  | object (className : Option String) (kind : String) (name : Option String) (text : String)
deriving DecidableEq, Repr

/-- A fault as it is seen; a thrown value with its class and its message. -/
structure SeenFault where
  fault : Fault
  text : String
  className : Option String
  message : String
  value : Option Seen
deriving DecidableEq, Repr

/-- All there is to know about a host value. -/
structure Facts where
  value : Host.Value
  seen : Seen
  typeName : String
  text : String
  /-- Missing where the value contains itself. -/
  document : Option Json
  keys : Option (List String)
deriving Repr

/-- What became of a task. -/
inductive TaskOutcome where
  | running
  | finished (result : String)
  /-- No result will come of the task with a number. -/
  | lost (number : Nat)
deriving DecidableEq, Repr

inductive Answer where
  | nothing
  | flag (b : Bool)
  | int (n : Int)
  | count (n : Option Nat)
  | text (s : String)
  | texts (items : List String)
  | value (v : Seen)
  | throws (v : Seen)
  /-- What was taken out of the slot of the thrown value. -/
  | taken (v : Option Seen)
  | facts (f : Facts)
  | fault (f : SeenFault)
  | panic (message : String)
  | raw (r : Raw)
  | raws (items : List Raw)
  | word (w : Wire)
  | result (r : Guest.Result)
  /-- A guest value and the thread that it belongs to. -/
  | guest (v : Guest.Value) (thread : ThreadIndex)
  /-- The same, with its exact text. -/
  | guestFacts (v : Guest.Value) (thread : ThreadIndex) (exactText : String)
  | handles (items : List Handle)
  /-- A host value and how many references to it are held. -/
  | entry (e : Option (Seen × UInt32))
  | ref (h : Handle)
  | instance (h : Handle) (initName : String)
  | closure (c : Guest.Closure) (exactText : String)
  /-- How many bytes were written to a buffer, and what is in it. -/
  | bytes (count : Int) (buffer : Option ByteArray)
  | called (status : Int) (out : Raw)
  | promise (text : String) (outcome : Option (Except Seen Seen))
  | token (t : Token)
  | thread (t : ThreadIndex)
  | worker (t : ThreadIndex) (name : String)
  | task (number : Nat)
  | taskOutcome (o : TaskOutcome)
  | executor (e : Executor)
  | context (c : Context) (executor : Executor) (realm : String) (ownsRealm ownsLoop : Bool)
      (features : Features) (threads : Nat)
  | runtime (r : Runtime)
  | current (t : Option ThreadIndex)
  /-- How a run ended that another thread visited, and whether that thread owned the loop. -/
  | visited (panic : Option String) (owner : Bool)

/-- The text of an executor and a thread together. -/
def contextText (c : Context) (e : Executor) : String :=
  "ThreadContext \x7b thread: " ++ c.thread.exactText ++ ", executor: " ++ e.exactText ++
    ", .. \x7d"

/-- The exact text of a guest value, given the text of references. -/
def guestText (refText : Guest.Ref → String) : Guest.Value → String
  | .undefined => "Undefined"
  | .null => "Null"
  | .bool b => "Bool(" ++ (if b then "true" else "false") ++ ")"
  | .number x => "Number(" ++ x.exactText ++ ")"
  | .string s => "String(" ++ Text.quoted s ++ ")"
  | .object r => "Object(" ++ refText r ++ ")"
  | .function r => "Function(" ++ refText r ++ ")"

end Membrane.Session

namespace Membrane.Act

open Session

/-- The smaller one of two names, of which the first may be missing. -/
def leastName (least : Option String) (name : String) : Option String :=
  match least with
  | some m => if name < m then name else m
  | none => name

/-- The first of the names that an object has. Code points are in the order of their bytes. -/
def nameOf (w : World) (v : Host.Value) : Option String :=
  (w.registers.values.filterMap fun (name, u) => if u = v then some name else none).foldl
    leastName none

/-- A host value as it is seen now. -/
def see (v : Host.Value) : Act Seen := do
  let w ← get
  match v with
  | .undefined => return .undefined
  | .null => return .null
  | .bool b => return .bool b
  | .number x => return .number x
  | .string s => return .string s
  | .object id =>
    let o ← fetch (·.heap.get? id)
    return .object o.className o.kind.name (nameOf w v) o.text

def seeFault (e : Fault) : Act SeenFault := do
  let heap := (← get).heap
  let text := heap.faultText e
  match e.exception? with
  | some v => return ⟨e, text, heap.className? v, heap.thrownMessage v, some (← see v)⟩
  | none => return ⟨e, text, none, "", none⟩

def factsOf (v : Host.Value) : Act Facts := do
  let heap := (← get).heap
  let keys := do (← heap.get? (← v.object?)).keys
  return ⟨v, ← see v, heap.typeName v, heap.text v, heap.toJson? v, keys⟩

/-- Answers with a value. -/
def answerValue (v : Host.Value) : Act Answer := return .value (← see v)

/-- Answers with what is thrown or returned. -/
def answerOutcome : Except Host.Value Host.Value → Act Answer
  | .ok v => answerValue v
  | .error v => return .throws (← see v)

/-- Answers with a result or the fault that stands for it. -/
def answerWith {α : Type} (result : Except Fault α) (f : α → Act Answer) : Act Answer := do
  match result with
  | .ok a => f a
  | .error e => return .fault (← seeFault e)

/-- Answers with nothing, or with a fault. -/
def answerDone (result : Except Fault Unit) : Act Answer :=
  answerWith result fun _ => return .nothing

def answerGuest (v : Guest.Value) : Act Answer := do
  match v.ref? with
  | some ref => return .guest v (← realm ref.realm).thread
  | none => return .guest v ⟨0⟩

/-- The text of a reference. -/
def refText (ref : Guest.Ref) : Act String := do
  return ref.textIn (← realm ref.realm).thread

/-- The text of a reference to a promise. -/
def promiseText (ref : Guest.Ref) : Act String := do
  return "JsPromise \x7b object: " ++ (← refText ref) ++ " \x7d"

/-- The text of a closure. -/
def closureText (c : Guest.Closure) : Act String := do
  return "JsClosure \x7b func: " ++ c.function.exactText ++ ", object: " ++ (← refText c.ref) ++
    " \x7d"

end Membrane.Act
