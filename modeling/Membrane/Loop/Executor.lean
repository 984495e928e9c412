import Membrane.Boundary.Handle
import Membrane.Text.Quoted
/-!
Executors hand jobs to the loop that is installed for their thread. The first loop that is installed
stays. Each thread has one executor, made when it is first looked up.
-/

set_option autoImplicit false

namespace Membrane

/-- Where a loop stands among the loops. -/
abbrev LoopId := Nat

/-- Where an executor stands among the executors. -/
abbrev ExecutorId := Nat

structure Executor where
  name : String
  loop : Option LoopId
  /-- The number of the next task. -/
  nextTask : Nat
deriving DecidableEq, Repr

namespace Executor

def create (name : String) : Executor := ⟨name, none, 0⟩

def isInstalled (e : Executor) : Bool := e.loop.isSome

/-- Installs a loop unless there is one: whether it was installed. -/
def install (e : Executor) (loop : LoopId) : Bool × Executor :=
  match e.loop with
  | some _ => (false, e)
  | none => (true, { e with loop := some loop })

def exactText (e : Executor) : String :=
  "Executor \x7b name: " ++ Text.quoted e.name ++ ", installed: " ++
    (if e.isInstalled then "true" else "false") ++ " \x7d"

end Executor

end Membrane
