import Membrane.Session.Entries
import Membrane.Session.Guests
import Membrane.Session.Imports
import Membrane.Session.Schedules
import Membrane.Session.Threads
import Membrane.Session.Transfers
/-!
Steps of a session. A step names the context that it works in and the thread that it runs on: the
main thread, a thread of its own, or a worker. After every step the workers come to rest, and the
answer comes with what was logged and with what the main thread's realms hold.
-/

set_option autoImplicit false

namespace Membrane.Session

inductive Action where
  | value (s : ValueStep)
  | realm (s : RealmStep)
  | imports (s : ImportStep)
  | ref (s : RefStep)
  | guest (s : GuestStep)
  | entry (s : EntryStep)
  | promise (s : PromiseStep)
  | schedule (s : ScheduleStep)
  | transfer (s : TransferStep)
  | thread (s : ThreadStep)

namespace Action

/-- Performs an action in a context, which is looked up only by what needs one. -/
def perform (context : Act Context) : Action → Act Answer
  | .value s => s.perform
  | .realm s => do s.perform (← context).realm
  | .imports s => s.perform (return (← context).realm)
  | .ref s => s.perform (return (← context).realm)
  | .guest s => s.perform (return (← context).realm)
  | .entry s => s.perform
  | .promise s => s.perform do return (← Act.realm (← context).realm).loop
  | .schedule s => s.perform context
  | .transfer s => s.perform context
  | .thread s => s.perform

end Action

/-- Which thread a step runs on. -/
inductive Place where
  | main
  /-- A thread that is made for the step. -/
  | foreign
  | worker (name : String)
deriving DecidableEq, Repr

structure Step where
  context : String
  place : Place
  action : Action

/-- What comes of a step. -/
structure Report where
  answer : Answer
  /-- For every named context of the main thread, how many handles of its realm are live and how
  many guest functions the realm knows. -/
  live : List (String × Nat × Nat)
  log : List String

namespace Step

/-- Runs an action on a thread that the place names. -/
def onThread (place : Place) (act : Act Answer) : Act Answer := do
  match place with
  | .main => act
  | .foreign => do
    let thread ← Act.newThread foreignThread
    Act.asThread thread act
  | .worker name => do
    let x ← Act.worker (← Act.named (·.workers) name)
    Act.asThread x.thread act

/-- What the main thread's realms hold. -/
def liveCounts : Act (List (String × Nat × Nat)) := do
  let contexts := (← Act.registers).contexts
  let counts ← contexts.mapM fun (name, c) => do
    let x ← Act.realm c.realm
    if x.owner = (← get).here then
      return some (name, x.table.liveCount, ← Act.functionCount c.realm)
    else return none
  return counts.filterMap id

/-- Lines that threads logged: those of the running thread first, then those of the others with the
names of their threads, in the order of the names. -/
def logLines (w : World) : List String :=
  let own := w.log.filterMap fun (t, line) => if t = w.here then some line else none
  let others := w.log.filterMap fun (t, line) =>
    if t = w.here then none else some (w.threads[t]?.getD "", line)
  own ++ (others.mergeSort fun a b => decide (a.1 ≤ b.1)).map fun (name, line) =>
    name ++ ": " ++ line

/-- Takes the lines that were logged so far. -/
def takeLog : Act (List String) := do
  let lines := logLines (← get)
  modify fun w => { w with log := [] }
  return lines

/-- Performs a step. A halt is the answer of its step, and what was done before it stays done. Nothing
is left in the hands of a step that is over. -/
def perform (s : Step) : Act Report := do
  let act := s.action.perform (Act.named (·.contexts) s.context)
  let answer ← match ← Act.attempt (Act.pinning [] (onThread s.place act)) with
    | .ok answer => pure answer
    | .error halt => pure (.panic halt.report)
  Act.settleWorkers
  return ⟨answer, ← liveCounts, ← takeLog⟩

end Step

/-- The names of the context and of the loop that a session begins with. -/
def firstContext : String := "c0"

def firstLoop : String := "l0"

/-- Begins a session on the main thread, attached unless it is to be bare. -/
def start (attached : Bool) : Act Unit := do
  if attached then
    let l ← Act.newLoop
    Act.nameLoop firstLoop l
    Act.nameContext firstContext (← Act.attach l)

/-- What comes of an action in a world with nothing in it. -/
def evaluate {α : Type} (config : Config) (act : Act α) : Except Halt α :=
  (act.run (World.create config)).1

/-- What comes of the steps of a session under settings. -/
def run (config : Config) (attached : Bool) (steps : List Step) : Except Halt (List Report) :=
  evaluate config do
    start attached
    steps.mapM Step.perform

end Membrane.Session
