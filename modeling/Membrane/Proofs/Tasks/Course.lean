import Membrane.Proofs.World.Tasks
/-!
Courses of a world with tasks. Tasks are made, woken and polled, and in between anything happens that
leaves them and their queued polls alone. A poll is a course of its own, so that a task may be woken
in the middle of it, by itself or by others.
-/

set_option autoImplicit false

namespace Membrane

/-- Whether a poll completed its task. -/
def StepEnd.isFinish : StepEnd → Bool
  | .finish _ => true
  | _ => false

namespace Act

/-- Sends the result of a task that is done: who is to be woken. -/
def sendResult (t : TaskId) (result : String) : Act (Option TaskId) := do
  let x ← task t
  setTask t { x with wait := none, steps := [] }
  x.steps.forM dropStep
  onResult t fun c => match c.send? result with
    | some (waiter, c) => (waiter, c)
    | none => (none, c)

/-- Completes a task: who is to be woken. -/
def completion (t : TaskId) (result : String) : Act (Option TaskId) := do
  let waiter ← sendResult t result
  setTask t { (← task t) with state := .completed }
  return waiter

/-- Lets go of a task: who is to be woken. -/
def abandonment (t : TaskId) : Act (Option TaskId) := do
  let x ← task t
  setTask t { x with wait := none, steps := [] }
  match x.wait with
  | some wait => dropWait wait
  | none => pure ()
  x.steps.forM dropStep
  onResult t (·.closeSender)

/-- What follows when a task has been polled: who is to be woken. -/
def endPoll (t : TaskId) : StepEnd → Act (Option TaskId)
  | .go => return none
  | .finish result => completion t result
  | .wait wakeable => do
    let x ← task t
    let (state, queue) := x.state.suspend
    setTask t { x with state }
    if queue then
      enqueue x.executor (.poll t)
      return none
    else if wakeable then return none
    else abandonment t

/-- A poll begins if the task is scheduled. In the middle of it an action is carried out. -/
def pollBy (t : TaskId) (resume : Act StepEnd) : Act Unit := do
  let x ← task t
  match x.state.start? with
  | none => return ()
  | some state =>
    setTask t { x with state }
    let r ← resume
    wakeAny (← endPoll t r)

theorem wakeAny_none : wakeAny none = pure () := rfl

theorem completeTask_eq (t : TaskId) (result : String) :
    completeTask t result = completion t result >>= wakeAny := by
  simp only [completeTask, completion, sendResult, bind_assoc, pure_bind] <;> rfl

theorem dropTask_eq (t : TaskId) : dropTask t = abandonment t >>= wakeAny := by
  simp only [dropTask, abandonment, bind_assoc]
  congr
  funext x
  congr
  funext _
  cases x.wait <;> simp

/-- In the middle of a poll a task goes on where it was left. -/
theorem pollTask_eq (t : TaskId) : pollTask t = pollBy t (onHalt (resumeTask t) (dropTask t)) := by
  rw [pollTask, pollBy]
  congr
  funext x
  cases x.state.start? with
  | none => rfl
  | some state =>
    simp only
    congr
    funext _
    congr
    funext r
    cases r with
    | go => rfl
    | finish result => exact completeTask_eq t result
    | wait wakeable =>
      simp only [endPoll, bind_assoc]
      congr
      funext x
      congr
      funext _
      cases x.state.suspend.2 <;> cases wakeable <;> simp [dropTask_eq, wakeAny_none]

end Act

namespace TaskRun

/-- What happens to tasks. -/
inductive Event where
  | spawned (t : TaskId)
  | woken (t : TaskId)
  | began (t : TaskId)
  | ended (t : TaskId) (completed : Bool)
deriving DecidableEq

open Act World

/-- What happens to the tasks on the way from one world to another. -/
inductive Course : World → List Event → World → Prop
  | start (w : World) : Course w [] w
  | calm {w u v : World} {past : List Event} (before : Course w past u) (calm : Calm u v) :
      Course w past v
  /-- Anybody may wake a task at any time. -/
  | wake {w u v : World} {past : List Event} {t : TaskId} (before : Course w past u)
      (woken : exec (wake t) u = (.ok (), v)) : Course w (past ++ [.woken t]) v
  | spawn {w u v : World} {past : List Event} {e : ExecutorId} {l : LoopId} {name : String}
      {steps : List TaskStep} {t : TaskId} (before : Course w past u)
      (installed : u.executorLoop? e = some l) (inside : l < u.loops.size)
      (spawned : exec (spawn e name steps) u = (.ok t, v)) : Course w (past ++ [.spawned t]) v
  /-- A loop runs a poll that was queued. In the middle of it the task does what it likes. -/
  | poll {w u v x y : World} {past inner : List Event} {l : LoopId} {t : TaskId} {k : Task}
      {state : TaskState} {r : StepEnd} {waiter : Option TaskId} (before : Course w past u)
      (next : u.next? l = some (.poll t, v)) (present : v.tasks[t]? = some k)
      (starts : k.state.start? = some state)
      (body : Course (v.withTask t { k with state }) inner x) (answered : r ≠ .go)
      (ended : exec (endPoll t r) x = (.ok waiter, y)) :
      Course w (past ++ .began t :: inner ++ [.ended t r.isFinish]) y
  /-- A poll is run of a task that is not scheduled. -/
  | stale {w u v : World} {past : List Event} {l : LoopId} {t : TaskId} {k : Task}
      (before : Course w past u) (next : u.next? l = some (.poll t, v))
      (present : v.tasks[t]? = some k) (idle : k.state.start? = none) : Course w past v

end TaskRun

end Membrane
