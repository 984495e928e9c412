import Membrane.Fault
import Membrane.Guest.Value
import Membrane.Loop.Executor
import Membrane.Task.Channel
/-!
Handing an object from one realm to another. A token owns one reference of the source realm. The
first receiver claims it. On the thread of the source the reference changes hands; on another one
the receiver registers a continuation and asks the source, which serves the request by giving the
reference back and sending the value to be retained at the destination.
-/

set_option autoImplicit false

namespace Membrane

/-- Where a token stands among the tokens. -/
abbrev TokenId := Nat

/-- Where a channel for a reply stands among such channels. -/
abbrev ReplyId := Nat

/-- Where a receive stands among the receives. -/
abbrev ReceiveId := Nat

inductive TransferState where
  | created
  | requested
  | fulfilled
deriving DecidableEq, Repr

namespace TransferState

def name : TransferState → String
  | .created => "Created"
  | .requested => "Requested"
  | .fulfilled => "Fulfilled"

end TransferState

structure Token where
  source : Guest.Ref
  thread : ThreadIndex
  correlation : Nat
  state : TransferState
  /-- How many copies of the token are around. -/
  copies : Nat
deriving DecidableEq, Repr

namespace Token

def exactText (t : Token) : String :=
  "Transferring \x7b source_handle: " ++ t.source.handle.text ++ ", source_thread: " ++
    t.thread.exactText ++ ", correlation: " ++ toString t.correlation ++ ", state: " ++
    t.state.name ++ " \x7d"

/-- The first receiver claims a token. -/
def claim (t : Token) : Except Misuse Token :=
  match t.state with
  | .created => .ok { t with state := .requested }
  | _ => .error (.doubleReceive t.correlation)

/-- A token is fulfilled once. -/
def fulfil (t : Token) : Except Misuse Token :=
  match t.state with
  | .fulfilled => .error (.alreadyFulfilled t.correlation)
  | _ => .ok { t with state := .fulfilled }

end Token

/-- A receiver that waits for its request to be served. -/
structure Continuation where
  correlation : Nat
  source : ThreadIndex
  destination : ThreadIndex
  reply : ReplyId
deriving DecidableEq, Repr

/-- What a receive has in hand. -/
inductive Receive where
  /-- Its answer, until it is read. -/
  | ready (answer : Option (Except Fault Guest.Ref))
  /-- A channel for the reply, and the loop that it keeps waiting. -/
  | waiting (reply : ReplyId) (realm : RealmId) (loop : LoopId)

end Membrane
