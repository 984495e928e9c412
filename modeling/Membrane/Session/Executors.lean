import Membrane.Session.Schedules
/-!
Sessions that work on executors whose loops have clocks of their own. Such a loop runs jobs only
when it is told to, and its clock moves only when it is advanced.
-/

set_option autoImplicit false

namespace Membrane.Session

inductive ExecutorStep where
  /-- Makes a loop whose clock stands at a time. -/
  | newLoop (loop : String) (time : Time)
  | create (executor : String) (name : String)
  | install (executor loop : String)
  | facts (executor : String)
  | now (executor : String)
  | enqueue (executor : String) (moment : Moment) (job : JobExpr)
  | newPromise (loop : String) (name : String)
  | react (name tag : String)
  | spawn (executor : String) (name : String) (steps : List TaskExpr)
  | result (name : String)
  /-- Runs microtasks, at most as many as there is a limit. -/
  | runMicrotasks (loop : String) (limit : Option Nat)
  | advance (loop : String) (delay : Time)

/-- What is in the queues of a loop, and the delays it was ever asked for, in whole milliseconds. -/
structure QueueState where
  microtasks : Nat
  timers : Nat
  asked : List Nat
deriving DecidableEq, Repr

/-- What comes of a step on executors. -/
structure ExecutorReport where
  answer : Answer
  queues : List (String × QueueState)
  log : List String

/-- Runs at most as many microtasks as given: how many were run. -/
def runMicrotasks (l : LoopId) : Nat → Act Nat
  | 0 => return 0
  | limit + 1 => do
    match (← Act.loop l).queue.next? with
    | none => return 0
    | some (job, q) =>
      Act.onQueue l fun _ => q
      Act.performJob job
      return (← runMicrotasks l limit) + 1

/-- Runs microtasks until none is left. -/
def runAllMicrotasks (l : LoopId) : Act Unit := do
  let _ ← runMicrotasks l Act.jobLimit

/-- Sets the clock of a loop. -/
def setClock (l : LoopId) (time : Time) : Act Unit :=
  modify fun w => { w with loops := w.loops.modify l fun c => { c with clock := .manual time } }

/-- Fires the timers that are due by a time, each at its own time, and sets the clock to that
time. -/
def fireUntil (l : LoopId) (time : Time) : Nat → Act Unit
  | 0 => throw .endless
  | fuel + 1 => do
    match (← Act.loop l).queue.due? time with
    | none => setClock l time
    | some (t, q) =>
      Act.onQueue l fun _ => q
      setClock l (max t.due (← Act.now l))
      Act.performJob t.job
      runAllMicrotasks l
      fireUntil l time fuel

/-- Moves the clock of a loop forward and runs what comes due. -/
def advance (l : LoopId) (delay : Time) : Act Unit := do
  let time := (← Act.now l) + delay
  runAllMicrotasks l
  fireUntil l time Act.jobLimit

namespace ExecutorStep

def perform : ExecutorStep → Act Answer
  | .newLoop loop time => do
    Act.nameLoop loop (← Act.newLoopOn (.manual time))
    return .nothing
  | .create executor name => do
    Act.nameExecutor executor (← Act.newExecutor name)
    return .nothing
  | .install executor loop => do
    let e ← Act.named (·.executors) executor
    return .flag (← Act.install e (← Act.named (·.loops) loop))
  | .facts executor => do
    return .executor (← Act.executor (← Act.named (·.executors) executor))
  | .now executor => do
    let l ← Act.loopOf (← Act.named (·.executors) executor)
    return .int ((← Act.clockTime l) / 1000 : Nat)
  | .enqueue executor moment job => do
    submitJob (.executor (← Act.named (·.executors) executor)) moment job
    return .nothing
  | .newPromise loop name => do
    PromiseStep.perform (Act.named (·.loops) loop) (.create name)
  | .react name tag => do
    let p ← Act.named (·.promises) name
    Act.register p (.log p tag none)
    return .nothing
  | .spawn executor name steps => do
    spawnNamed (← Act.named (·.executors) executor) none name steps
  | .result name => do return .taskOutcome (← outcomeOf (← Act.named (·.tasks) name))
  | .runMicrotasks loop limit => do
    return .int (← Session.runMicrotasks (← Act.named (·.loops) loop)
      (limit.getD Act.jobLimit))
  | .advance loop delay => do
    Session.advance (← Act.named (·.loops) loop) delay
    return .nothing

/-- What is in the queues of all named loops. -/
def queueStates : Act (List (String × QueueState)) := do
  (← Act.registers).loops.mapM fun (name, l) => do
    let c ← Act.loop l
    return (name, ⟨c.queue.microtasks.length, c.queue.timers.length,
      c.asked.map Number.wholePart⟩)

/-- Performs a step. A halt is the answer of its step. -/
def report (s : ExecutorStep) : Act ExecutorReport := do
  let answer ← match ← Act.attempt s.perform with
    | .ok answer => pure answer
    | .error halt => pure (.panic halt.report)
  let log := (← get).log.map (·.2)
  modify fun w => { w with log := [] }
  return ⟨answer, ← queueStates, log⟩

end ExecutorStep

end Membrane.Session
