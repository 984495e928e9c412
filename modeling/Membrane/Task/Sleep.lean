import Membrane.Loop.EventLoop
import Membrane.Loop.Executor
import Membrane.Task.Channel
/-!
Sleepers. A sleeper sets one timer when it is first polled and is ready once the timer has fired.
Until then it remembers who polled it last; that one is woken.
-/

set_option autoImplicit false

namespace Membrane

inductive SleepState where
  /-- Not polled yet. -/
  | fresh
  | waiting (waiter : TaskId)
  | fired
deriving DecidableEq, Repr

structure Sleeper where
  /-- The executor that the timer is set with, whoever polls the sleeper. -/
  executor : ExecutorId
  delay : Time
  state : SleepState
deriving DecidableEq, Repr

/-- What a poll of a sleeper comes to. -/
inductive SleepPoll where
  /-- Pending, and the timer is to be set. -/
  | setTimer
  | pending
  | ready
deriving DecidableEq, Repr

namespace Sleeper

def create (executor : ExecutorId) (delay : Time) : Sleeper := ⟨executor, delay, .fresh⟩

def poll (s : Sleeper) (waiter : TaskId) : SleepPoll × Sleeper :=
  match s.state with
  | .fresh => (.setTimer, { s with state := .waiting waiter })
  | .waiting _ => (.pending, { s with state := .waiting waiter })
  | .fired => (.ready, s)

/-- The timer fires: who is to be woken. -/
def fire (s : Sleeper) : Option TaskId × Sleeper :=
  match s.state with
  | .waiting waiter => (some waiter, { s with state := .fired })
  | .fresh | .fired => (none, { s with state := .fired })

end Sleeper

end Membrane
