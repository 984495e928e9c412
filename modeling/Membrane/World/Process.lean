import Membrane.World.Thread
/-!
A process with several runtimes. They share the threads of the machine, and a thread has one current
context, whichever of the runtimes attached it last. Each runtime numbers its threads itself and
knows nothing of the other runtimes.
-/

set_option autoImplicit false

namespace Membrane

/-- Where a runtime stands among the runtimes of a process. -/
abbrev RuntimeId := Nat

/-- A context as a caller holds it: it knows its runtime, and its realm knows the thread it is of.
All copies of it are alike. -/
structure Member where
  runtime : RuntimeId
  owner : ThreadId
  context : Context
deriving DecidableEq, Repr

structure Process where
  /-- What the runtimes share. The runtime in it is the one that was used last. -/
  world : World
  runtimes : Array Runtime

namespace Process

/-- A process that has no runtime yet. -/
def create : Process := ⟨.create .default, #[]⟩

def newRuntime (p : Process) (config : Config) : RuntimeId × Process :=
  (p.runtimes.size, { p with runtimes := p.runtimes.push (.create config) })

/-- A thread makes a loop, which belongs to no runtime. -/
def newLoop (p : Process) (thread : ThreadId) : Process :=
  { p with world := ((Act.asThread thread Act.newLoop).run.run p.world).2 }

/-- A thread acts on one of the runtimes. -/
def within {α : Type} (p : Process) (r : RuntimeId) (thread : ThreadId) (act : Act α) :
    Except Halt α × Process :=
  match p.runtimes[r]? with
  | none => (.error .missing, p)
  | some runtime =>
    let (result, world) := (Act.asThread thread act).run.run { p.world with runtime }
    (result, { world, runtimes := p.runtimes.setIfInBounds r world.runtime })

/-- A thread attaches itself to a runtime. -/
def attach (p : Process) (thread : ThreadId) (r : RuntimeId) (l : LoopId) :
    Except Halt Member × Process :=
  let (result, p) := p.within r thread (Act.attach l)
  (result.map fun context => ⟨r, thread, context⟩, p)

/-- A thread detaches a context, its own or that of another thread. -/
def detach (p : Process) (thread : ThreadId) (m : Member) : Except Halt Unit × Process :=
  p.within m.runtime thread (Act.detach m.context)

/-- The context that the entry points act on when a thread calls them. -/
def current? (p : Process) (thread : ThreadId) : Option Context := p.world.current.lookup thread

/-- Whether the thread of a context is in the table of its runtime. -/
def isAttached (p : Process) (m : Member) : Bool :=
  (p.runtimes[m.runtime]?).any (·.isAttached m.context.thread)

end Process

end Membrane
