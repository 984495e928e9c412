import Membrane.Number.Basic
/-!
Event loops. A loop keeps microtasks in the order they come, timers by the time they are due and
then in the order they were set, and an inbox for jobs posted by other threads. `drain` runs
microtasks until none is left. `run` drains before every timer it fires and comes back when nothing
is left to wait for. Both are written over any state that holds the loop, seen through a `Seat`.
-/

set_option autoImplicit false

namespace Membrane

/-- A thread of the machine. -/
abbrev ThreadId := Nat

/-- Lengths and points of time, in nanoseconds. -/
abbrev Time := Nat

structure Timer (α : Type) where
  due : Time
  seq : Nat
  job : α

structure EventLoop (α : Type) where
  owner : ThreadId
  microtasks : List α
  /-- Jobs posted by threads other than the owner. -/
  inbox : List α
  /-- Ascending by due time, then by number. -/
  timers : List (Timer α)
  /-- How many timers were ever set. -/
  submitted : Nat
  /-- How many guards keep the loop waiting for foreign work. -/
  guards : Nat
  isShutdown : Bool

namespace EventLoop

variable {α : Type}

def empty (owner : ThreadId) : EventLoop α :=
  ⟨owner, [], [], [], 0, 0, false⟩

/-- The longest delay in milliseconds, one less than `2 ^ 64`. -/
def longestDelay : Nat := 0xffffffffffffffff

/-- The time of a delay in milliseconds: its whole part, and none if it is not positive and
finite. -/
def delayTime (milliseconds : Number) : Time :=
  min milliseconds.wholePart longestDelay * 1000000

/-- Queues a microtask; from another thread it goes through the inbox. -/
def queueMicrotask (l : EventLoop α) (caller : ThreadId) (job : α) : EventLoop α :=
  if caller = l.owner then { l with microtasks := l.microtasks ++ [job] }
  else { l with inbox := l.inbox ++ [job] }

/-- Puts a timer behind all that are due no later. -/
def insertTimer (t : Timer α) : List (Timer α) → List (Timer α)
  | [] => [t]
  | u :: rest => if t.due < u.due then t :: u :: rest else u :: insertTimer t rest

/-- Sets a timer that is due after a delay in milliseconds. -/
def setTimeout (l : EventLoop α) (now : Time) (milliseconds : Number) (job : α) : EventLoop α :=
  { l with
    timers := insertTimer ⟨now + delayTime milliseconds, l.submitted, job⟩ l.timers
    submitted := l.submitted + 1 }

/-- Moves the inbox behind the microtasks. -/
def drainInbox (l : EventLoop α) : EventLoop α :=
  { l with microtasks := l.microtasks ++ l.inbox, inbox := [] }

/-- Takes the next microtask. -/
def next? (l : EventLoop α) : Option (α × EventLoop α) :=
  match l.microtasks with
  | [] => none
  | job :: rest => some (job, { l with microtasks := rest })

/-- Takes the first timer if it is due. -/
def due? (l : EventLoop α) (now : Time) : Option (Timer α × EventLoop α) :=
  match l.timers with
  | [] => none
  | t :: rest => if t.due ≤ now then some (t, { l with timers := rest }) else none

/-- All jobs that wait to be run. -/
def jobs (l : EventLoop α) : List α := l.microtasks ++ l.inbox ++ l.timers.map (·.job)

/-- When the first timer is due. -/
def nextDue? (l : EventLoop α) : Option Time := l.timers.head?.map (·.due)

def hold (l : EventLoop α) : EventLoop α := { l with guards := l.guards + 1 }

def letGo (l : EventLoop α) : EventLoop α := { l with guards := l.guards - 1 }

def shutdown (l : EventLoop α) : EventLoop α := { l with isShutdown := true }

end EventLoop

/-- How a run of a loop ended. -/
inductive RunEnd where
  | idle
  | shutdown
  /-- The run was cut off. -/
  | endless
  /-- The loop waits for something that never comes. -/
  | asleep
deriving DecidableEq, Repr

/-- What a run needs to know of the state that its loop is part of. -/
structure Seat (m : Type → Type) (α : Type) where
  read : m (EventLoop α)
  write : EventLoop α → m Unit
  now : m Time
  perform : α → m Unit
  /-- Waits for other threads, and no longer than to the time given. The answer is whether
  there is anything to wait for. -/
  park : Option Time → m Bool

namespace Seat

variable {m : Type → Type} [Monad m] {α : Type}

/-- Runs microtasks until none is left, at most `fuel` of them: how many were run. -/
def drain (s : Seat m α) : Nat → m (Option Nat)
  | 0 => pure none
  | fuel + 1 => do
    s.write (← s.read).drainInbox
    match (← s.read).next? with
    | none => pure (some 0)
    | some (job, l) =>
      s.write l
      s.perform job
      return (← s.drain fuel).map (· + 1)

/-- Fires the first timer if it is due. -/
def fireDue (s : Seat m α) : m Bool := do
  let now ← s.now
  match (← s.read).due? now with
  | none => return false
  | some (t, l) =>
    s.write l
    s.perform t.job
    return true

/-- Runs a loop until it is shut down, or, unless told to wait for that, until nothing is left to
wait for. The guards are read before the inbox, so that what was posted before a guard was let go is
seen. -/
def run (s : Seat m α) (untilShutdown : Bool) (jobs : Nat) : Nat → m RunEnd
  | 0 => return .endless
  | fuel + 1 => do
    match ← s.drain jobs with
    | none => return .endless
    | some _ =>
      if (← s.read).isShutdown then return .shutdown
      if ← s.fireDue then s.run untilShutdown jobs fuel
      else
        let held := 0 < (← s.read).guards
        if !(← s.read).inbox.isEmpty then s.run untilShutdown jobs fuel
        else
          let due := (← s.read).nextDue?
          if !untilShutdown && due.isNone && !held then return .idle
          if ← s.park due then s.run untilShutdown jobs fuel
          else return .asleep

end Seat

end Membrane
