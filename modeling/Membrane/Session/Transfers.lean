import Membrane.Session.References
import Membrane.World.Exchange
/-!
Steps that hand objects from one realm to another.
-/

set_option autoImplicit false

namespace Membrane.Session

inductive TransferStep where
  | create (ref into : String)
  | token (name : String)
  | dropToken (name : String)
  | copyToken (name into : String)
  | receive (name into : String)
  /-- Looks once whether a receive has its answer. -/
  | poll (name into : String)
  | dropReceive (name : String)

namespace TransferStep

def perform (context : Act Context) : TransferStep → Act Answer
  | .create ref into => do
    let ref ← Act.named (·.refs) ref
    Act.answerWith (← Act.transfer (← context) ref) fun t => do
      Act.nameToken into t
      return .text (← Act.token t).exactText
  | .token name => do return .token (← Act.token (← Act.named (·.tokens) name))
  | .dropToken name => do
    Act.dropToken (← Act.takeToken name)
    return .nothing
  | .copyToken name into => do
    let t ← Act.named (·.tokens) name
    Act.copyToken t
    Act.nameToken into t
    return .nothing
  | .receive name into => do
    Act.nameReceive into (← Act.receive (← Act.named (·.tokens) name) (← context))
    return .nothing
  | .poll name into => do
    match (← Act.registers).receives.lookup name with
    | none => return .text "none"
    | some id =>
      match ← Act.pollReceive id none with
      | none => return .text "pending"
      | some result => Act.answerWith result (answerRef into)
  | .dropReceive name => do
    match (← Act.registers).receives.lookup name with
    | none => return .nothing
    | some id =>
      Act.setRegisters fun r => { r with receives := r.receives.erase name }
      Act.dropReceive id
      return .nothing

end TransferStep

end Membrane.Session
