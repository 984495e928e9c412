import Membrane.Session.Values
import Membrane.World.Loop
/-!
Steps that attach and detach threads, run loops, and start and end workers; and what the runtime
knows of all that.
-/

set_option autoImplicit false

namespace Membrane.Session

inductive ThreadStep where
  /-- Attaches the main thread on a loop, which is made if there is none of that name. -/
  | attach (name loop : String)
  | detach (name : String)
  /-- Detaches a context and forgets its name. -/
  | drop (name : String)
  | context (name : String)
  | current
  | runtime
  | isAttached (t : ThreadIndex)
  | pendingTransfers
  | newLoop (name : String)
  | run (loop : String) (untilShutdown : Bool)
  | checkpoint (loop : String)
  /-- Runs a loop while another thread posts jobs to it. -/
  | visited (loop : String) (count : Nat) (kind : VisitKind)
  | startWorker (name : String)
  | joinWorker (name : String) (terminate : Bool)
  | dropWorker (name : String)

/-- The name of a thread that comes from outside. -/
def foreignThread : String := "foreign"

/-- The loop of a name, made if there is none. -/
def loopNamed (name : String) : Act LoopId := do
  match (← Act.registers).loops.lookup name with
  | some l => return l
  | none =>
    let l ← Act.newLoop
    Act.nameLoop name l
    return l

/-- Ends a worker and waits for it. -/
def endWorker (i : Nat) : Act Unit := do
  let _ ← Act.joinWorker i true

def nameWorker (name : String) (i : Nat) : Act Unit :=
  Act.keepNamed (·.workers) (fun r n => { r with workers := n }) endWorker name i

def takeWorker (name : String) : Act Nat :=
  Act.takeNamed (·.workers) (fun r n => { r with workers := n }) name

def answerContext (c : Context) : Act Answer := do
  let x ← Act.realm c.realm
  let w ← get
  return .context c (← Act.executor c.executor) x.exactText (x.owner == w.here)
    ((← Act.loop c.loop).queue.owner == w.here) x.features w.runtime.threadCount

/-- Runs a loop that a thread visits as soon as it waits. The visit takes place in any case. -/
def runVisited (l : LoopId) (count : Nat) (kind : VisitKind) : Act Answer := do
  Act.onQueue l (·.hold)
  let thread ← Act.newThread foreignThread
  let visit : Visit := { loop := l, thread, count, kind }
  modify fun w => { w with visit := some visit }
  let ended ← Act.attempt (Act.runLoop l (kind == .shutdown))
  match (← get).visit with
  | some v =>
    let _ ← Act.performVisit v
  | none => pure ()
  let owner := (← Act.loop l).queue.owner == thread
  match ended with
  | .ok _ => return .visited none owner
  | .error halt => return .visited (some halt.report) owner

namespace ThreadStep

def perform : ThreadStep → Act Answer
  | .attach name loop => do
    let c ← Act.attach (← loopNamed loop)
    Act.nameContext name c
    return .thread c.thread
  | .detach name => do
    Act.detach (← Act.named (·.contexts) name)
    return .nothing
  | .drop name => do
    let c ← Act.takeNamed (·.contexts) (fun r n => { r with contexts := n }) name
    Act.detach c
    return .nothing
  | .context name => do answerContext (← Act.named (·.contexts) name)
  | .current => do return .current ((← Act.currentContext).map (·.thread))
  | .runtime => return .runtime (← get).runtime
  | .isAttached t => return .flag ((← get).runtime.isAttached t)
  | .pendingTransfers => return .int (← get).runtime.waiting.length
  | .newLoop name => do
    Act.nameLoop name (← Act.newLoop)
    return .nothing
  | .run loop untilShutdown => do
    let _ ← Act.runLoop (← Act.named (·.loops) loop) untilShutdown
    return .text (if untilShutdown then "shutdown" else "idle")
  | .checkpoint loop => return .int (← Act.checkpoint (← Act.named (·.loops) loop))
  | .visited loop count kind => do
    runVisited (← Act.named (·.loops) loop) count kind
  | .startWorker name => do
    let (i, c) ← Act.startWorker
    Act.nameContext name c
    Act.nameLoop name c.loop
    nameWorker name i
    let x ← Act.worker i
    return .worker c.thread ((← get).threads[x.thread]?.getD "")
  | .joinWorker name terminate => do
    match ← Act.joinWorker (← takeWorker name) terminate with
    | .finished => return .text "joined"
    | .died message => return .panic message
  | .dropWorker name => do
    endWorker (← takeWorker name)
    return .nothing

end ThreadStep

end Membrane.Session
