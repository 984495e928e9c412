import Membrane.Config
import Membrane.Code
import Membrane.Feature
import Membrane.Loop.EventLoop
import Membrane.Transfer
/-!
What the threads of a runtime share: the settings, the imports, the executor of each thread, the
attached threads and the receivers that wait.
-/

set_option autoImplicit false

namespace Membrane

/-- An attached thread: its realm and the loop it runs. -/
structure Attachment where
  thread : ThreadIndex
  realm : RealmId
  loop : LoopId
deriving DecidableEq, Repr

structure Runtime where
  config : Config
  features : Features
  /-- Ascending by name. -/
  imports : List (String × Import)
  executors : List (ThreadId × ExecutorId)
  attached : List Attachment
  /-- Ascending by correlation. -/
  waiting : List Continuation
  nextThread : UInt32
  nextCorrelation : Nat

namespace Runtime

def create (config : Config) : Runtime :=
  { config, features := .negotiate config.weakRefs, imports := [], executors := [], attached := [],
    waiting := [], nextThread := 0, nextCorrelation := 1 }

/-- Puts an import in its place; a name has the import registered last. -/
def insertImport (name : String) (i : Import) : List (String × Import) → List (String × Import)
  | [] => [(name, i)]
  | (n, j) :: rest =>
    if name < n then (name, i) :: (n, j) :: rest
    else if name = n then (name, i) :: rest
    else (n, j) :: insertImport name i rest

def register (r : Runtime) (name : String) (i : Import) : Runtime :=
  { r with imports := insertImport name i r.imports }

def import? (r : Runtime) (name : String) : Option Import := r.imports.lookup name

def attachment? (r : Runtime) (thread : ThreadIndex) : Option Attachment :=
  r.attached.find? (·.thread == thread)

def isAttached (r : Runtime) (thread : ThreadIndex) : Bool := (r.attachment? thread).isSome

def threadCount (r : Runtime) : Nat := r.attached.length

/-- Adds a thread under the next index. -/
def attach (r : Runtime) (realm : RealmId) (loop : LoopId) : Runtime :=
  { r with
    attached := r.attached ++ [⟨⟨r.nextThread⟩, realm, loop⟩]
    nextThread := r.nextThread + 1 }

/-- Registers a receiver unless its source is gone. -/
def await? (r : Runtime) (c : Continuation) : Option Runtime :=
  if r.isAttached c.source then some { r with waiting := r.waiting ++ [c] } else none

/-- Takes the receiver with a correlation. -/
def resume? (r : Runtime) (correlation : Nat) : Option (Continuation × Runtime) :=
  (r.waiting.find? (·.correlation == correlation)).map fun c =>
    (c, { r with waiting := r.waiting.filter (·.correlation != correlation) })

/-- Whether a receiver waits for a thread or on it. -/
def involves (thread : ThreadIndex) (c : Continuation) : Bool :=
  c.source == thread || c.destination == thread

/-- Removes a thread: the receivers that wait for it or on it go with it. -/
def remove (r : Runtime) (thread : ThreadIndex) : List Continuation × Runtime :=
  (r.waiting.filter (involves thread),
    { r with
      attached := r.attached.filter (·.thread != thread)
      waiting := r.waiting.filter fun c => !involves thread c })

/-- The names of the imports. -/
def importsText (r : Runtime) : String :=
  let names := r.imports.map fun (name, _) => Text.quoted name
  "ImportTable \x7b names: [" ++ ", ".intercalate names ++ "] \x7d"

def exactText (r : Runtime) : String :=
  "BridgeRuntime \x7b features: " ++ r.features.text ++ ", threads: " ++ toString r.threadCount ++
    ", .. \x7d"

end Runtime

end Membrane
