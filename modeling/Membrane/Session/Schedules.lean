import Membrane.Session.Values
import Membrane.World.Loop
/-!
Steps that settle promises, submit jobs, make tasks and keep loops alive.
-/

set_option autoImplicit false

namespace Membrane.Session

inductive PromiseStep where
  | create (name : String)
  | forget (name : String)
  | settle (name : String) (resolves : Bool) (v : Expr)
  /-- Registers a reaction that logs the outcome, and one that comes after it. -/
  | react (name tag : String) (next : Option String)
  | facts (name : String)

namespace PromiseStep

/-- Performs a step; new promises are made on the loop that is looked up. -/
def perform (loop : Act LoopId) : PromiseStep → Act Answer
  | .create name => do
    Act.namePromise name (← Act.newPromise (← loop))
    return .nothing
  | .forget name => do
    Act.setRegisters fun r => { r with promises := r.promises.erase name }
    return .nothing
  | .settle name resolves v => do
    let p ← Act.named (·.promises) name
    let v ← v.eval
    return .flag (← Act.settle p (if resolves then .ok v else .error v))
  | .react name tag next => do
    let p ← Act.named (·.promises) name
    Act.register p (.log p tag next)
    return .nothing
  | .facts name => do
    let x ← Act.promise (← Act.named (·.promises) name)
    let text := x.textWith (← get).heap.text
    match x.outcome? with
    | none => return .promise text none
    | some (.ok v) => return .promise text (some (.ok (← Act.see v)))
    | some (.error v) => return .promise text (some (.error (← Act.see v)))

end PromiseStep

inductive ScheduleStep where
  /-- Submits a job to the executor. -/
  | enqueue (moment : Moment) (job : JobExpr)
  /-- Submits a job to a loop. -/
  | post (loop : String) (moment : Moment) (job : JobExpr)
  | spawn (name : String) (steps : List TaskExpr)
  | result (name : String)
  | dropTask (name : String)
  | executor
  | hold (name loop : String)
  | letGo (name : String)
  | shutdown (loop : String)
  | isShutdown (loop : String)

/-- Submits a job whose outcomes are evaluated first. -/
def submitJob (target : Target) (moment : Moment) (job : JobExpr) : Act Unit := do
  let script ← job.eval
  Act.submit target moment (.script target script)

/-- Makes a task that is named after it was made. -/
def spawnNamed (e : ExecutorId) (context : Option Context) (name : String)
    (steps : List TaskExpr) : Act Answer := do
  let steps ← steps.mapM (TaskExpr.eval context)
  let t ← Act.spawn e name steps
  Act.nameTask name t
  return .task (← Act.task t).number

/-- What became of a task. Its result is read once. -/
def outcomeOf (t : TaskId) : Act TaskOutcome := do
  match ← Act.onResult t (·.tryTake) with
  | .pending => return .running
  | .value v => return .finished v
  | .closed | .exhausted => return .lost (← Act.task t).number

namespace ScheduleStep

def perform (context : Act Context) : ScheduleStep → Act Answer
  | .enqueue moment job => do
    submitJob (.executor (← context).executor) moment job
    return .nothing
  | .post loop moment job => do
    submitJob (.loop (← Act.named (·.loops) loop)) moment job
    return .nothing
  | .spawn name steps => do
    let c ← context
    spawnNamed c.executor c name steps
  | .result name => do return .taskOutcome (← outcomeOf (← Act.named (·.tasks) name))
  | .dropTask name => do
    Act.dropJoin (← Act.takeTask name)
    return .nothing
  | .executor => do return .executor (← Act.executor (← context).executor)
  | .hold name loop => do
    let l ← Act.named (·.loops) loop
    Act.onQueue l (·.hold)
    Act.nameGuard name l
    return .nothing
  | .letGo name => do
    let l ← Act.takeGuard name
    Act.onQueue l (·.letGo)
    return .nothing
  | .shutdown loop => do
    Act.onQueue (← Act.named (·.loops) loop) (·.shutdown)
    return .nothing
  | .isShutdown loop => do
    return .flag (← Act.loop (← Act.named (·.loops) loop)).queue.isShutdown

end ScheduleStep

end Membrane.Session
