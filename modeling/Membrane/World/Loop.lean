import Membrane.World.Job
/-!
Running loops. While the loop of one thread waits, the other threads act: a visitor first, then the
workers until none of them has anything to do. Only when nobody has, the clock of the machine moves
to the next timer.
-/

set_option autoImplicit false

namespace Membrane.Act

/-- How many jobs a loop may run without coming to an end. -/
def jobLimit : Nat := 1000000

/-- A seat at a loop. -/
def seat (l : LoopId) (park : Option Time → Act Bool) : Seat Act Job :=
  { read := return (← loop l).queue
    write := fun q => onQueue l fun _ => q
    now := now l
    perform := performJob
    park }

/-- A seat at a loop that never waits. -/
def restless (l : LoopId) : Seat Act Job := seat l fun _ => return false

def worker (i : Nat) : Act Worker := fetch (·.workers[i]?)

def setWorker (i : Nat) (x : Worker) : Act Unit :=
  modify fun w => { w with workers := w.workers.setIfInBounds i x }

/-- Whether a worker has something to do. -/
def isRunnable (w : World) (x : Worker) : Bool :=
  x.ended.isNone && match w.loops[x.context.loop]? with
    | none => false
    | some c =>
      c.queue.isShutdown || !c.queue.microtasks.isEmpty || !c.queue.inbox.isEmpty ||
        (c.queue.due? w.time).isSome

/-- Lets a worker run as far as it can. One that is shut down detaches itself; one whose job panics
is gone and leaves its context attached. -/
def runWorker (i : Nat) : Act Unit := do
  let x ← worker i
  let result ← attempt <| asThread x.thread do
    match ← (restless x.context.loop).run true jobLimit jobLimit with
    | .shutdown =>
      detach x.context
      return true
    | .endless => throw .endless
    | .idle | .asleep => return false
  match result with
  | .ok false => return ()
  | .ok true => setWorker i { x with ended := some .finished }
  | .error halt =>
    setWorker i { x with ended := some (.died halt.report) }
    modify fun w => { w with current := w.current.filter (·.1 != x.thread) }

/-- Lets the workers run until none of them has anything to do. -/
def runWorkers : Nat → Act Unit
  | 0 => throw .endless
  | fuel + 1 => do
    let w ← get
    match w.workers.findIdx? (isRunnable w) with
    | none => return ()
    | some i =>
      runWorker i
      runWorkers fuel

/-- Lets all workers come to rest. -/
def settleWorkers : Act Unit := runWorkers jobLimit

/-- A visitor posts its jobs, asks whether it owns the loop, and lets go of its guard. -/
def performVisit (v : Visit) : Act Bool := do
  modify fun w => { w with visit := none }
  asThread v.thread do
    (List.range v.count).forM fun n =>
      let job := Job.line ("remote " ++ toString n)
      match v.kind with
      | .timers => setTimeout v.loop .zero job
      | .microtasks | .shutdown => queueMicrotask v.loop job
    if v.kind = .shutdown then onQueue v.loop (·.shutdown)
    let owner := (← loop v.loop).queue.owner = (← get).here
    onQueue v.loop (·.letGo)
    return owner

/-- The first timer of a worker that is not over. -/
def firstWorkerTimer (w : World) : Option Time :=
  (w.workers.toList.filterMap fun x =>
    if x.ended.isNone then (w.loops[x.context.loop]?).bind (·.queue.nextDue?) else none).min?

/-- Moves the clock of the machine forward. -/
def advanceTo (t : Time) : Act Unit := modify fun w => { w with time := max w.time t }

/-- Waits with a loop: for a visitor, for the workers, or for the next timer of anybody. -/
def park (l : LoopId) (due : Option Time) : Act Bool := do
  match (← get).visit with
  | some v =>
    let _ ← performVisit v
    return true
  | none =>
    let guards := (← loop l).queue.guards
    settleWorkers
    let q := (← loop l).queue
    if !q.inbox.isEmpty || q.isShutdown || q.guards < guards then return true
    match (due.toList ++ (firstWorkerTimer (← get)).toList).min? with
    | none => return false
    | some t =>
      advanceTo t
      return true

/-- Runs a loop on the running thread. -/
def runLoop (l : LoopId) (untilShutdown : Bool) : Act RunEnd := do
  match ← (seat l (park l)).run untilShutdown jobLimit jobLimit with
  | .endless => throw .endless
  | .asleep => throw .asleep
  | ended => return ended

/-- Runs the microtasks of a loop, also those that come meanwhile: how many were run. -/
def checkpoint (l : LoopId) : Act Nat := do
  match ← (restless l).drain jobLimit with
  | some count => return count
  | none => throw .endless

/-- Starts a worker: a thread of its own that attaches itself and runs its loop. -/
def startWorker : Act (Nat × Context) := do
  let r := (← get).runtime
  let thread ← newThread (r.config.workerStem ++ "-" ++ toString r.threadCount)
  let context ← asThread thread do attach (← newLoop)
  let x : Worker := { thread, context, ended := none }
  let i ← modifyGet fun w => (w.workers.size, { w with workers := w.workers.push x })
  return (i, context)

/-- Waits for a worker to end. As long as it has not, the clock moves to the next timer of a
worker. -/
def awaitEnd (i : Nat) : Nat → Act WorkerEnd
  | 0 => throw .endless
  | fuel + 1 => do
    settleWorkers
    match (← worker i).ended, firstWorkerTimer (← get) with
    | some ended, _ => return ended
    | none, some t =>
      advanceTo t
      awaitEnd i fuel
    | none, none => throw .asleep

/-- Waits for a worker to end, which may be told to. -/
def joinWorker (i : Nat) (terminate : Bool) : Act WorkerEnd := do
  if terminate then onQueue (← worker i).context.loop (·.shutdown)
  awaitEnd i jobLimit

end Membrane.Act
