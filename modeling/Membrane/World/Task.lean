import Membrane.Json.Writer
import Membrane.World.Convert
import Membrane.World.Exchange
import Membrane.World.Naming
/-!
Tasks of an executor. A poll carries out the steps of a task up to one that has to wait. A task that
waits for nothing that could wake it is let go.
-/

set_option autoImplicit false

namespace Membrane

/-- The text of a result that will not come. -/
def joinErrorText (number : Nat) : String :=
  "task " ++ toString number ++ " ended without producing a result"

/-- The document of a guest value: scalars as they are, numbers with their word and text, references
by handle and thread. -/
def Guest.Value.describe (threadOf : RealmId → ThreadIndex) : Guest.Value → Json
  | .undefined => .ofFields [("u", .nat 1)]
  | .null => .null
  | .bool b => .bool b
  | .number x => .ofFields [("num", .string x.hexText), ("text", .string x.plainText)]
  | .string s => .string s
  | .object ref => refDocument "object" ref
  | .function ref => refDocument "function" ref
where
  refDocument (type : String) (ref : Guest.Ref) : Json :=
    .ofFields [("type", .string type), ("handle", .nat ref.handle.raw.toNat),
      ("thread", .nat (threadOf ref.realm).val.toNat)]

/-- What one step of a task comes to. -/
inductive StepEnd where
  | go
  /-- The task waits; the flag says whether something may wake it. -/
  | wait (wakeable : Bool)
  | finish (result : String)
deriving DecidableEq, Repr

namespace Act

/-- Makes a task; its first poll is queued. -/
def spawn (e : ExecutorId) (name : String) (steps : List TaskStep) : Act TaskId := do
  let x ← executor e
  modify fun w =>
    { w with executors := w.executors.setIfInBounds e { x with nextTask := x.nextTask + 1 } }
  let task : Task :=
    { executor := e, number := x.nextTask, name, state := .scheduled, wait := none, steps,
      result := .create }
  let t ← modifyGet fun w => (w.tasks.size, { w with tasks := w.tasks.push task })
  onHalt (enqueue e (.poll t)) (dropTask t)
  return t

def setWait (t : TaskId) (wait : Option Wait) : Act Unit := do
  setTask t { (← task t) with wait }

/-- Logs a line of a task. -/
def taskLog (t : TaskId) (line : String) : Act Unit := do
  log ((← task t).name ++ ": " ++ line)

/-- Logs what a promise that a task waited for came to. -/
def logAwaited (t : TaskId) (result : Except Fault Guest.Value) : Act Unit := do
  match result with
  | .ok v =>
    taskLog t ("value " ++ (v.describe (threadOf (← get))).write)
    releaseGuestQuietly v
  | .error e => taskLog t ("error " ++ (← faultText e))

/-- What would be said of a promise that is gone before it was settled. -/
def lostPromise : String := "promise dropped before settling"

/-- Polls a sleeper: whether its timer has fired. The timer is set by the first poll. -/
def pollSleeper (s : Nat) (waiter : TaskId) : Act Bool := do
  let x ← fetch (·.sleepers[s]?)
  let (poll, y) := x.poll waiter
  if poll = .setTimer then enqueueAfter x.executor x.delay (.fireSleeper s)
  modify fun w => { w with sleepers := w.sleepers.setIfInBounds s y }
  return poll = .ready

/-- Looks whether what a task waits for is there. -/
def resumeWait (t : TaskId) (wait : Wait) : Act StepEnd := do
  match wait with
  | .yielded =>
    setWait t none
    return .go
  | .sleeping s =>
    if ← pollSleeper s t then
      setWait t none
      return .go
    else return .wait true
  | .joining j =>
    match ← onResult j (·.poll (some t)) with
    | .pending => return .wait true
    | .value v =>
      setWait t none
      taskLog t ("joined " ++ v)
      return .go
    | .closed =>
      setWait t none
      taskLog t (joinErrorText (← task j).number)
      return .go
    | .exhausted => throw (.panic pollAfterReply)
  | .awaiting _ channel ref =>
    match ← onAwait channel (·.poll (some t)) with
    | .pending => return .wait true
    | .value outcome =>
      let result : Except Fault Guest.Value ← match outcome with
        | .ok v => adopt ref.realm v
        | .error v => pure (.error (.hostException v))
      setWait t none
      let _ ← releaseRef ref
      logAwaited t result
      return .go
    | .closed =>
      let v ← newError "Error" lostPromise
      setWait t none
      let _ ← releaseRef ref
      logAwaited t (.error (.hostException v))
      return .go
    | .exhausted => throw (.panic pollAfterReply)
  | .receiving token receive name =>
    match ← pollReceive receive (some t) with
    | none => return .wait true
    | some result =>
      setWait t none
      dropReceive receive
      match result with
      | .ok ref =>
        taskLog t ("received " ++ toString ref.handle.raw.toNat ++ " on " ++
          (← realm ref.realm).thread.text)
        nameRef name ref
      | .error e => taskLog t ("error " ++ (← faultText e))
      dropToken token
      return .go

/-- Begins to wait. -/
def beginWait (t : TaskId) (wait : Wait) : Act StepEnd := do
  setWait t (some wait)
  resumeWait t wait

/-- Carries out one step. -/
def beginStep (t : TaskId) (step : TaskStep) : Act StepEnd := do
  match step with
  | .log line =>
    taskLog t line
    return .go
  | .sleep delay =>
    let e := (← task t).executor
    let s ← modifyGet fun w =>
      (w.sleepers.size, { w with sleepers := w.sleepers.push (.create e delay) })
    beginWait t (.sleeping s)
  | .yield wakes =>
    setWait t (some .yielded)
    (List.replicate wakes t).forM wake
    return .wait false
  | .join j => beginWait t (.joining j)
  | .pending => return .wait false
  | .panic message => throw (.panic message)
  | .finish result => return .finish result
  | .await ref =>
    match ← takePromise ref with
    | .error e =>
      logAwaited t (.error e)
      return .go
    | .ok p =>
      let channel ← modifyGet fun w =>
        (w.awaits.size, { w with awaits := w.awaits.push .create })
      register p (.resume channel)
      beginWait t (.awaiting p channel ref)
  | .receive token context name =>
    let receive ← onHalt (receive token context) (dropToken token)
    beginWait t (.receiving token receive name)

/-- The result of a task that does not name one. -/
def defaultResult : String := "end"

/-- Carries out steps up to one that has to wait. -/
def runSteps (t : TaskId) : List TaskStep → Act StepEnd
  | [] => return .finish defaultResult
  | step :: rest => do
    setTask t { (← task t) with steps := rest }
    match ← beginStep t step with
    | .go => runSteps t rest
    | ended => return ended

/-- Goes on where a task was left. -/
def resumeTask (t : TaskId) : Act StepEnd := do
  let x ← task t
  match x.wait with
  | none => runSteps t x.steps
  | some wait =>
    match ← resumeWait t wait with
    | .go => runSteps t (← task t).steps
    | ended => return ended

/-- A task is done: what is left of it goes, and its result is sent. -/
def completeTask (t : TaskId) (result : String) : Act Unit := do
  let x ← task t
  setTask t { x with wait := none, steps := [] }
  x.steps.forM dropStep
  let waiter ← onResult t fun c => match c.send? result with
    | some (waiter, c) => (waiter, c)
    | none => (none, c)
  setTask t { (← task t) with state := .completed }
  wakeAny waiter

/-- Polls a task that is scheduled. A task that panics is let go. -/
def pollTask (t : TaskId) : Act Unit := do
  let x ← task t
  match x.state.start? with
  | none => return ()
  | some state =>
    setTask t { x with state }
    match ← onHalt (resumeTask t) (dropTask t) with
    | .go => return ()
    | .finish result => completeTask t result
    | .wait wakeable =>
      let x ← task t
      let (state, queue) := x.state.suspend
      setTask t { x with state }
      if queue then enqueue x.executor (.poll t)
      else if !wakeable then dropTask t

end Act

end Membrane
