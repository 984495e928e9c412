/-!
Channels that carry one value from a sender to a receiver. The receiver leaves behind who is to be
woken; a sender that goes away without sending closes the channel.
-/

set_option autoImplicit false

namespace Membrane

/-- Where a task stands among the tasks. -/
abbrev TaskId := Nat

inductive ChannelState (α : Type) where
  | waiting
  | sent (value : α)
  /-- The sender is gone and sent nothing. -/
  | closed
  /-- The receiver has its answer. -/
  | taken
  /-- The receiver is gone. -/
  | abandoned
deriving DecidableEq, Repr

structure Channel (α : Type) where
  state : ChannelState α
  waiter : Option TaskId
deriving DecidableEq, Repr

/-- What a receiver sees. -/
inductive Receipt (α : Type) where
  | pending
  | value (a : α)
  | closed
  /-- The answer was given before. -/
  | exhausted
deriving DecidableEq, Repr

namespace Channel

variable {α : Type}

def create : Channel α := ⟨.waiting, none⟩

/-- Sends the value: who is to be woken, or nothing if the receiver is gone. -/
def send? (c : Channel α) (a : α) : Option (Option TaskId × Channel α) :=
  match c.state with
  | .waiting => some (c.waiter, ⟨.sent a, none⟩)
  | _ => none

/-- Takes the sender away: who is to be woken. -/
def closeSender (c : Channel α) : Option TaskId × Channel α :=
  match c.state with
  | .waiting => (c.waiter, ⟨.closed, none⟩)
  | _ => (none, c)

/-- Takes the receiver away. -/
def abandon (_ : Channel α) : Channel α := ⟨.abandoned, none⟩

/-- Asks for the value and leaves behind who is to be woken. -/
def poll (c : Channel α) (waiter : Option TaskId) : Receipt α × Channel α :=
  match c.state with
  | .waiting => (.pending, { c with waiter })
  | .sent a => (.value a, ⟨.taken, none⟩)
  | .closed => (.closed, ⟨.taken, none⟩)
  | .taken | .abandoned => (.exhausted, c)

/-- Asks for the value without waiting. After the answer the channel is closed. -/
def tryTake (c : Channel α) : Receipt α × Channel α :=
  match c.state with
  | .waiting => (.pending, c)
  | .sent a => (.value a, ⟨.taken, none⟩)
  | .closed => (.closed, ⟨.taken, none⟩)
  | .taken | .abandoned => (.closed, c)

end Channel

end Membrane
