/-!
The states of a task. A task is scheduled while a poll of it is queued. A wake during a poll is
remembered and leads to another poll; a wake of a scheduled or completed task changes nothing.
-/

set_option autoImplicit false

namespace Membrane

inductive TaskState where
  | idle
  | scheduled
  | running
  /-- Woken while it was running. -/
  | notified
  | completed
deriving DecidableEq, Repr

namespace TaskState

/-- The state after a wake, and whether a poll is to be queued. -/
def wake : TaskState → TaskState × Bool
  | .idle => (.scheduled, true)
  | .running => (.notified, false)
  | s => (s, false)

/-- The state in which a queued poll runs the task, if it does. -/
def start? : TaskState → Option TaskState
  | .scheduled => some .running
  | _ => none

/-- The state after a poll that did not complete the task, and whether a poll is to be queued. -/
def suspend : TaskState → TaskState × Bool
  | .running => (.idle, false)
  | _ => (.scheduled, true)

end TaskState

end Membrane
