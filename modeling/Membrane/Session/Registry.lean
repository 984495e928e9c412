import Membrane.World.Thread
/-!
Sessions that work on the registry of executors, which has one for every thread that asked for it.
-/

set_option autoImplicit false

namespace Membrane.Session

inductive RegistryStep where
  /-- Looks the executor of the main thread up. -/
  | current
  /-- Looks the executor of a fresh thread up, twice, and may take it out again. -/
  | onThread (name : String) (removes : Bool)
  /-- Takes the executor of the main thread out. -/
  | remove
deriving DecidableEq, Repr

inductive RegistryAnswer where
  /-- An executor, and whether it is the one that was looked up first. -/
  | current (e : Executor) (isFirst : Option Bool)
  /-- The name of the executor of a thread, whether it was found again, and whether it was taken
  out. -/
  | onThread (name : String) (isSame : Bool) (removed : Option Bool)
  | removed (name : Option String)
deriving DecidableEq, Repr

namespace RegistryStep

/-- Performs a step, given the executor that was looked up first: the answer, and that executor. -/
def perform (first : Option ExecutorId) :
    RegistryStep → Act (RegistryAnswer × Option ExecutorId)
  | .current => do
    let e ← Act.currentExecutor
    return (.current (← Act.executor e) (first.map (· == e)), first.getD e)
  | .onThread name removes => do
    let thread ← Act.newThread name
    Act.asThread thread do
      let e ← Act.currentExecutor
      let again ← Act.currentExecutor
      let removed ← if removes then
          pure (some ((← Act.removeExecutor) == some e))
        else pure none
      return (.onThread (← Act.executor e).name (e == again) removed, first)
  | .remove => do
    match ← Act.removeExecutor with
    | some e => return (.removed (some (← Act.executor e).name), first)
    | none => return (.removed none, first)

/-- Performs steps: for each its answer and how many executors are registered after it. -/
def performAll (first : Option ExecutorId) :
    List RegistryStep → Act (List (RegistryAnswer × Nat))
  | [] => return []
  | s :: rest => do
    let (answer, first) ← s.perform first
    let size := (← get).runtime.executors.length
    return (answer, size) :: (← performAll first rest)

end RegistryStep

end Membrane.Session
