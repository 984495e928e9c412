import Membrane.Host.Json
import Membrane.Promise
import Membrane.Realm
import Membrane.Runtime
import Membrane.Task.Sleep
import Membrane.Task.State
/-!
The whole state that a session moves: host objects and promises, loops with their jobs, executors
and tasks, realms, transfers, threads, and the names that the session gives to what it holds. `Act`
is an action on it. An action that is halted leaves the state as it was at that moment.
-/

set_option autoImplicit false

namespace Membrane

/-- What a thread that is attached works with. -/
structure Context where
  thread : ThreadIndex
  realm : RealmId
  executor : ExecutorId
  loop : LoopId
deriving DecidableEq, Repr

/-- Where a job is submitted. -/
inductive Target where
  | executor (id : ExecutorId)
  | loop (id : LoopId)
deriving DecidableEq, Repr

/-- When a submitted job is to run. -/
inductive Moment where
  | soon
  | after (delay : Time)
  | deadline (time : Time)
  /-- After a delay in milliseconds. -/
  | timeout (delay : Number)
deriving DecidableEq, Repr

/-- A job of the session: it logs a line, and then settles a promise, shuts a loop down, submits
more jobs where it was submitted itself, and panics, each if asked for. -/
inductive Script where
  | mk (log : String) (settle : Option (PromiseId × Outcome)) (shutdown : Option LoopId)
      (jobs : List (Moment × Script)) (panic : Option String)

/-- What is to be done when a promise is settled. -/
inductive Reaction where
  /-- Logs the outcome under a tag; with a second tag, registers a reaction that logs that one. -/
  | log (promise : PromiseId) (tag : String) (next : Option String)
  /-- Logs a line. -/
  | line (text : String)
  /-- Sends the outcome to a task that waits for it. -/
  | resume (channel : Nat)
deriving DecidableEq, Repr

inductive Job where
  | script (target : Target) (script : Script)
  | line (text : String)
  | poll (task : TaskId)
  | fireSleeper (sleeper : Nat)
  /-- Gives back what waits in a realm. -/
  | collect (realm : RealmId)
  | react (reaction : Reaction) (outcome : Outcome)
  | settle (promise : PromiseId) (outcome : Outcome)
  /-- Serves a request for the object of a token, on the thread of its source. -/
  | serve (token : TokenId)
  /-- Retains a served value, on the thread of its destination. -/
  | deliver (token : TokenId) (realm : RealmId) (reply : ReplyId)
      (outcome : Except Fault Host.Value)

/-- What a task does next. -/
inductive TaskStep where
  | log (line : String)
  | sleep (delay : Time)
  /-- Waits for one more poll, after the number of wakes given. -/
  | yield (wakes : Nat)
  | join (task : TaskId)
  | pending
  | panic (message : String)
  | finish (result : String)
  /-- Waits for the promise that a reference stands for. -/
  | await (ref : Guest.Ref)
  /-- Receives the object of a token and names the reference. -/
  | receive (token : TokenId) (context : Context) (name : String)
deriving DecidableEq, Repr

/-- What a task waits for in the middle of a step. -/
inductive Wait where
  | sleeping (sleeper : Nat)
  | yielded
  | joining (task : TaskId)
  | awaiting (promise : PromiseId) (channel : Nat) (ref : Guest.Ref)
  | receiving (token : TokenId) (receive : ReceiveId) (name : String)
deriving DecidableEq, Repr

structure Task where
  executor : ExecutorId
  /-- Its number among the tasks of its executor. -/
  number : Nat
  name : String
  state : TaskState
  wait : Option Wait
  steps : List TaskStep
  result : Channel String

/-- Which clock a loop reads. -/
inductive Clock where
  /-- The clock of the machine, which moves when nothing else does, as it runs since a time. -/
  | machine (since : Time)
  /-- A clock of its own, moved by hand. -/
  | manual (time : Time)
deriving DecidableEq, Repr

/-- A loop with its clock and every delay it was ever asked for. -/
structure LoopCell where
  queue : EventLoop Job
  clock : Clock
  asked : List Number

/-- How a worker ended. -/
inductive WorkerEnd where
  | finished
  | died (message : String)
deriving DecidableEq, Repr

/-- A thread that attaches itself and runs its loop until it is shut down. -/
structure Worker where
  thread : ThreadId
  context : Context
  ended : Option WorkerEnd

/-- What a visiting thread does to a loop that waits for it. -/
inductive VisitKind where
  | microtasks
  | timers
  /-- Posts microtasks and then shuts the loop down. -/
  | shutdown
deriving DecidableEq, Repr

/-- A thread that posts jobs to a loop and lets go of its guard. -/
structure Visit where
  loop : LoopId
  thread : ThreadId
  count : Nat
  kind : VisitKind
deriving DecidableEq, Repr

/-- Things under their names, in the order in which they were first named. -/
abbrev Names (α : Type) := List (String × α)

namespace Names

variable {α : Type}

def put (names : Names α) (name : String) (a : α) : Names α :=
  if (names.lookup name).isSome then names.map fun (n, b) => (n, if n = name then a else b)
  else names ++ [(name, a)]

def erase (names : Names α) (name : String) : Names α := names.filter (·.1 != name)

end Names

/-- What a session holds, each kind under names of its own. -/
structure Registers where
  values : Names Host.Value
  contexts : Names Context
  loops : Names LoopId
  executors : Names ExecutorId
  refs : Names Guest.Ref
  dynamics : Names Guest.Value
  closures : Names Guest.Closure
  instances : Names Guest.Ref
  tokens : Names TokenId
  receives : Names ReceiveId
  tasks : Names TaskId
  promises : Names PromiseId
  guards : Names LoopId
  workers : Names Nat

namespace Registers

def empty : Registers := ⟨[], [], [], [], [], [], [], [], [], [], [], [], [], []⟩

end Registers

structure World where
  heap : Host.Heap
  promises : Array (Promise Reaction)
  loops : Array LoopCell
  executors : Array Executor
  tasks : Array Task
  sleepers : Array Sleeper
  awaits : Array (Channel Outcome)
  realms : Array Realm
  tokens : Array Token
  replies : Array (Channel (Except Fault Handle))
  receives : Array (Option Receive)
  runtime : Runtime
  /-- The names of the threads of the machine. -/
  threads : Array String
  /-- The thread that is running. -/
  here : ThreadId
  /-- The context attached last on each thread. -/
  current : List (ThreadId × Context)
  workers : Array Worker
  /-- A thread that acts as soon as a loop waits. -/
  visit : Option Visit
  time : Time
  log : List (ThreadId × String)
  /-- Values in the hands of calls that are not over. -/
  pins : List Host.Value
  registers : Registers

/-- Why an action does not go on. -/
inductive Halt where
  | misuse (m : Misuse)
  /-- A panic that was asked for. -/
  | panic (message : String)
  /-- There is no room for the slots of a table. -/
  | noRoom
  /-- A thread is to have a name with a zero byte in it. -/
  | badThreadName (name : String)
  /-- Calls inside one another go too deep. -/
  | tooDeep
  /-- A loop does not come to an end. -/
  | endless
  /-- A loop waits for something that never comes. -/
  | asleep
  /-- Something that is not there. -/
  | missing
deriving DecidableEq, Repr

namespace Halt

/-- What is reported of a name with a zero byte: where the first one is, and all bytes. -/
def threadNameReport (name : String) : String :=
  let bytes := name.toUTF8.toList
  "thread name may not contain interior null bytes: NulError(" ++ toString (bytes.idxOf 0) ++
    ", [" ++ ", ".intercalate (bytes.map fun b => toString b.toNat) ++ "])"

def report : Halt → String
  | .misuse m => m.report
  | .panic message => message
  | .noRoom => "capacity overflow"
  | .badThreadName name => threadNameReport name
  | .tooDeep => "calls are nested too deep"
  | .endless => "the loop does not end"
  | .asleep => "the loop sleeps for good"
  | .missing => "no such thing"

end Halt

/-- An action on the world. -/
abbrev Act := ExceptT Halt (StateM World)

namespace World

/-- The name of the first thread. -/
def mainThread : String := "main"

/-- A world with one thread and nothing in it. -/
def create (config : Config) : World :=
  { heap := .empty, promises := #[], loops := #[], executors := #[], tasks := #[], sleepers := #[],
    awaits := #[], realms := #[], tokens := #[], replies := #[], receives := #[]
    runtime := .create config
    threads := #[mainThread], here := 0, current := [], workers := #[]
    visit := none, time := 0, log := []
    pins := [], registers := .empty }

end World

namespace Act

def misuse {α : Type} (m : Misuse) : Act α := throw (.misuse m)

/-- Slots of a capacity are made only where there is room for them. -/
def assertRoom (layout : Layout) (capacity : Nat) : Act Unit :=
  if layout.hasRoom capacity then return () else throw .noRoom

/-- Looks something up that is there. -/
def fetch {α : Type} (find : World → Option α) : Act α := do
  match find (← get) with
  | some a => return a
  | none => throw .missing

/-- Runs an action; if it is halted, runs another one before the halt goes on. -/
def onHalt {α : Type} (act : Act α) (cleanup : Act Unit) : Act α :=
  tryCatch act fun halt => do
    cleanup
    throw halt

/-- Runs an action and reports a halt as a result. -/
def attempt {α : Type} (act : Act α) : Act (Except Halt α) :=
  tryCatch (return .ok (← act)) fun halt => return .error halt

/-- Runs an action as another thread. -/
def asThread {α : Type} (thread : ThreadId) (act : Act α) : Act α := do
  let here := (← get).here
  modify fun w => { w with here := thread }
  let result ← attempt act
  modify fun w => { w with here }
  match result with
  | .ok a => return a
  | .error halt => throw halt

def log (line : String) : Act Unit :=
  modify fun w => { w with log := w.log ++ [(w.here, line)] }

/-- Applies a change of the heap that has a result. -/
def onHeap {α : Type} (f : Host.Heap → α × Host.Heap) : Act α :=
  modifyGet fun w => let (a, heap) := f w.heap; (a, { w with heap })

def typeName (v : Host.Value) : Act String := return (← get).heap.typeName v

def text (v : Host.Value) : Act String := return (← get).heap.text v

def faultText (e : Fault) : Act String := return (← get).heap.faultText e

def newObject (o : Host.Object) : Act ObjectId := onHeap (·.alloc o)

def newError (className message : String) : Act Host.Value := onHeap (·.newError className message)

/-- Throws a type error. -/
def throwTypeError {α : Type} (message : String) : Act (Except Host.Value α) :=
  return .error (← newError "TypeError" message)

/-- A fault as a thrown type error. -/
def throwFault {α : Type} (e : Fault) : Act (Except Host.Value α) := do
  throwTypeError (← faultText e)

def realm (r : RealmId) : Act Realm := fetch (·.realms[r]?)

def setRealm (r : RealmId) (x : Realm) : Act Unit :=
  modify fun w => { w with realms := w.realms.setIfInBounds r x }

/-- Applies a change of a realm that has a result. -/
def onRealm {α : Type} (r : RealmId) (f : Realm → α × Realm) : Act α := do
  let (a, x) := f (← realm r)
  setRealm r x
  return a

/-- Applies a change of a realm that may fail; a failure changes nothing. -/
def tryRealm (r : RealmId) (f : Realm → Except Fault Realm) : Act (Except Fault Unit) := do
  match f (← realm r) with
  | .ok x => setRealm r x; return .ok ()
  | .error e => return .error e

/-- A realm is for the thread that owns it. -/
def assertOwner (r : RealmId) : Act Unit := do
  let x ← realm r
  if x.owner = (← get).here then return () else misuse (.foreignThreadAccess x.thread)

def loop (l : LoopId) : Act LoopCell := fetch (·.loops[l]?)

def onQueue (l : LoopId) (f : EventLoop Job → EventLoop Job) : Act Unit :=
  modify fun w => { w with loops := w.loops.modify l fun c => { c with queue := f c.queue } }

/-- The time by which the timers of a loop are due. -/
def now (l : LoopId) : Act Time := do
  match (← loop l).clock with
  | .machine _ => return (← get).time
  | .manual t => return t

/-- The time on the clock of a loop, which deadlines are read on. -/
def clockTime (l : LoopId) : Act Time := do
  match (← loop l).clock with
  | .machine since => return (← get).time - since
  | .manual t => return t

def queueMicrotask (l : LoopId) (job : Job) : Act Unit := do
  let here := (← get).here
  onQueue l (·.queueMicrotask here job)

/-- Sets a timer after a delay in milliseconds. -/
def setTimeout (l : LoopId) (delay : Number) (job : Job) : Act Unit := do
  let t ← now l
  modify fun w => { w with loops := w.loops.modify l fun c =>
    { c with queue := c.queue.setTimeout t delay job, asked := c.asked ++ [delay] } }

/-- Makes a loop with a clock, owned by the running thread. -/
def newLoopOn (clock : Clock) : Act LoopId :=
  modifyGet fun w => (w.loops.size, { w with loops := w.loops.push ⟨.empty w.here, clock, []⟩ })

/-- Makes a loop whose clock starts now. -/
def newLoop : Act LoopId := do newLoopOn (.machine (← get).time)

def executor (e : ExecutorId) : Act Executor := fetch (·.executors[e]?)

def newExecutor (name : String) : Act ExecutorId :=
  modifyGet fun w => (w.executors.size, { w with executors := w.executors.push (.create name) })

/-- Installs a loop in an executor that has none. -/
def install (e : ExecutorId) (l : LoopId) : Act Bool := do
  let (installed, x) := (← executor e).install l
  modify fun w => { w with executors := w.executors.setIfInBounds e x }
  return installed

/-- The loop of an executor; without one it is of no use. -/
def loopOf (e : ExecutorId) : Act LoopId := do
  let x ← executor e
  match x.loop with
  | some l => return l
  | none => misuse (.notInstalled x.name)

def enqueue (e : ExecutorId) (job : Job) : Act Unit := do
  queueMicrotask (← loopOf e) job

/-- The milliseconds of a length of time, as the number that a loop is asked for. -/
def milliseconds (t : Time) : Number := .ofNat (t / 1000000)

def enqueueAfter (e : ExecutorId) (delay : Time) (job : Job) : Act Unit := do
  setTimeout (← loopOf e) (milliseconds delay) job

/-- A deadline that has passed is due at once. -/
def enqueueAt (e : ExecutorId) (deadline : Time) (job : Job) : Act Unit := do
  let t ← clockTime (← loopOf e)
  enqueueAfter e (deadline - t) job

/-- Submits a job where and when it is wanted. A loop that is asked directly knows of microtasks and
timeouts only. -/
def submit (target : Target) (moment : Moment) (job : Job) : Act Unit :=
  match target, moment with
  | .executor e, .soon => enqueue e job
  | .executor e, .after delay => enqueueAfter e delay job
  | .executor e, .deadline time => enqueueAt e time job
  | .executor e, .timeout delay => do setTimeout (← loopOf e) delay job
  | .loop l, .timeout delay => setTimeout l delay job
  | .loop l, .after delay => setTimeout l (milliseconds delay) job
  | .loop l, .deadline time => do setTimeout l (milliseconds (time - (← clockTime l))) job
  | .loop l, .soon => queueMicrotask l job

def promise (p : PromiseId) : Act (Promise Reaction) := fetch (·.promises[p]?)

def setPromise (p : PromiseId) (x : Promise Reaction) : Act Unit :=
  modify fun w => { w with promises := w.promises.setIfInBounds p x }

def newPromise (l : LoopId) : Act PromiseId :=
  modifyGet fun w => (w.promises.size, { w with promises := w.promises.push (.create l) })

/-- Makes an object that stands for a promise. -/
def promiseObject (p : PromiseId) : Act ObjectId :=
  newObject ⟨some Host.Object.promiseClass, .promise p, []⟩

/-- Settles a promise and queues its reactions: whether it was pending. -/
def settle (p : PromiseId) (outcome : Outcome) : Act Bool := do
  let x ← promise p
  match x.settle? outcome with
  | none => return false
  | some (reactions, x) =>
    setPromise p x
    reactions.forM fun r => queueMicrotask x.loop (.react r outcome)
    return true

/-- Registers a reaction; on a settled promise it is queued at once. -/
def register (p : PromiseId) (reaction : Reaction) : Act Unit := do
  let (outcome?, x) := (← promise p).register reaction
  setPromise p x
  match outcome? with
  | some outcome => queueMicrotask x.loop (.react reaction outcome)
  | none => return ()

def task (t : TaskId) : Act Task := fetch (·.tasks[t]?)

def setTask (t : TaskId) (x : Task) : Act Unit :=
  modify fun w => { w with tasks := w.tasks.setIfInBounds t x }

/-- Wakes a task: if it is idle, a poll is queued. -/
def wake (t : TaskId) : Act Unit := do
  let x ← task t
  let (state, queue) := x.state.wake
  setTask t { x with state }
  if queue then enqueue x.executor (.poll t)

def wakeAny : Option TaskId → Act Unit
  | some t => wake t
  | none => return ()

end Act

end Membrane
