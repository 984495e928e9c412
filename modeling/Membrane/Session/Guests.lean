import Membrane.Session.Values
/-!
Steps that work on guest values and on guest functions. A result that is not named is given back at
once.
-/

set_option autoImplicit false

namespace Membrane.Session

inductive GuestStep where
  | adopt (v : Expr) (into : Option String)
  | lift (raw : Raw) (into : Option String)
  | global (into : Option String)
  | functionOf (closure : String) (into : Option String)
  | property (name key : String) (into : Option String)
  | reflect (name : String) (how : Reflection) (args : List GuestExpr) (into : Option String)
  | callClosure (closure : String) (args : List GuestExpr) (into : Option String)
  | setProperty (name key : String) (v : GuestExpr)
  | facts (name : String)
  | release (name : String)
  | drop (name : String)
  | newClosure (name : String) (body : GuestBody)
  | releaseClosure (name : String)
  | dropClosure (name : String)
  /-- Names the function object of a closure. -/
  | nameFunction (closure into : String)
  | registerFunction (body : GuestBody)
  | freeFunction (id : FunctionId)
  | callFunction (id : FunctionId) (args : List Raw)

/-- Answers with a guest value, which is named or given back. -/
def answerGuest (into : Option String) (v : Guest.Value) : Act Answer := do
  let answer ← Act.answerGuest v
  match into with
  | some name => Act.nameDynamic name v
  | none => Act.releaseGuestQuietly v
  return answer

/-- Passes guest values to an action and gives them back after it. They are let go if the action is
halted. -/
def passing {α : Type} (args : List GuestExpr) (act : List Guest.Value → Act (Except Fault α)) :
    Act (Except Fault α) := do
  match ← GuestExpr.evalAll [] args with
  | .error e => return .error e
  | .ok values =>
    let result ← Act.onHalt (act values) (values.forM Act.dropGuest)
    values.forM Act.releaseGuestQuietly
    return result

namespace GuestStep

def perform (realm : Act RealmId) : GuestStep → Act Answer
  | .adopt v into => do
    let r ← realm
    let v ← v.eval
    Act.answerWith (← Act.adopt r v) (answerGuest into)
  | .lift raw into => do Act.answerWith (← Act.liftGuest (← realm) raw) (answerGuest into)
  | .global into => do
    Act.answerWith (← Act.copyRef ⟨← realm, .globalObject⟩) fun ref =>
      answerGuest into (.object ref)
  | .functionOf closure into => do
    Act.answerWith (← Act.functionOf (← Act.named (·.closures) closure)) (answerGuest into)
  | .property name key into => do
    let target ← Act.named (·.dynamics) name
    Act.answerWith (← Act.getProperty target key) (answerGuest into)
  | .reflect name how args into => do
    let target ← Act.named (·.dynamics) name
    Act.answerWith (← passing args (Act.reflectGuest Act.outermost target how)) (answerGuest into)
  | .callClosure closure args into => do
    let c ← Act.named (·.closures) closure
    Act.answerWith (← passing args (Act.callClosure Act.outermost c)) (answerGuest into)
  | .setProperty name key v => do
    let target ← Act.named (·.dynamics) name
    Act.answerDone (← passing [v] fun values =>
      match values with
      | v :: _ => Act.putProperty target key v
      | [] => return .ok ())
  | .facts name => do
    let v ← Act.named (·.dynamics) name
    let w ← get
    let text (ref : Guest.Ref) : String := ref.textIn (Act.threadOf w ref.realm)
    return .guestFacts v ((v.ref?.map fun ref => Act.threadOf w ref.realm).getD ⟨0⟩)
      (guestText text v)
  | .release name => do Act.answerDone (← Act.releaseGuest (← Act.takeDynamic name))
  | .drop name => do
    Act.dropGuest (← Act.takeDynamic name)
    return .nothing
  | .newClosure name body => do
    let r ← realm
    let f ← body.eval
    let c ← Act.newClosure r f
    let text ← Act.closureText c
    Act.nameClosure name c
    return .closure c text
  | .releaseClosure name => do Act.answerDone (← Act.releaseClosure (← Act.takeClosure name))
  | .dropClosure name => do
    Act.dropRef (← Act.takeClosure name).ref
    return .nothing
  | .nameFunction closure into => do
    let c ← Act.named (·.closures) closure
    Act.answerWith (← Act.read c.ref.realm c.ref.handle) fun v => do
      Act.nameValue into v
      Act.answerValue v
  | .registerFunction body => do
    let r ← realm
    let f ← body.eval
    return .int (← Act.registerFunction r f).raw.toNat
  | .freeFunction id => do return .flag (← Act.freeFunction (← realm) id)
  | .callFunction id args => do
    match ← Act.callFunction Act.outermost (← realm) id args with
    | .ok raw => return .raw raw
    | .error v => return .throws (← Act.see v)

end GuestStep

end Membrane.Session
