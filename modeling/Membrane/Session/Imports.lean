import Membrane.Session.Values
import Membrane.World.Member
import Membrane.World.Thread
/-!
Steps that register and call imports, convert typed values, and use a host class.
-/

set_option autoImplicit false

namespace Membrane.Session

inductive ImportStep where
  | register (name : String) (body : ImportExpr)
  | isRegistered (name : String)
  | lower (v : ArgumentExpr)
  /-- Lowers a value and reads the word as a type. -/
  | convert (v : ArgumentExpr) (type : Guest.ResultType) (name : String)
  | invoke (importName : String) (args : List ArgumentExpr)
  | call (importName : String) (args : List ArgumentExpr) (type : Guest.ResultType)
      (name : String)
  | newInstance (c : Guest.Class) (args : List ArgumentExpr) (name : String)
  | callMember (c : Guest.Class) (name member : String) (args : List ArgumentExpr)
      (type : Guest.ResultType) (into : String)
  | getMember (c : Guest.Class) (name member : String) (type : Guest.ResultType) (into : String)
  | setMember (c : Guest.Class) (name member : String) (v : Guest.Argument)
  | releaseInstance (name : String)

/-- Answers with a result; a reference is named. -/
def answerResult (name : String) (r : Guest.Result) : Act Answer := do
  match r with
  | .ref ref => Act.nameRef name ref
  | .promise ref => do
    Act.nameRef name ref
    return .text ((← Act.promiseText ref) ++ " " ++ toString ref.handle.raw.toNat)
  | _ => pure ()
  return .result r

/-- The words of arguments in the realm that is looked up for each of them. -/
def lowerAll (realm : Act RealmId) (args : List ArgumentExpr) : Act (List Wire) :=
  args.mapM fun e => do e.lower (← realm)

namespace ImportStep

def perform (realm : Act RealmId) : ImportStep → Act Answer
  | .register name body => do
    let i ← body.eval
    Act.onRuntime fun runtime => ((), runtime.register name i)
    return .flag ((← get).runtime.import? name).isSome
  | .isRegistered name => do return .flag ((← get).runtime.import? name).isSome
  | .lower v => do return .word (← v.lower (← realm))
  | .convert v type name => do
    let r ← realm
    Act.answerWith (← Act.lift r type (← v.lower r)) (answerResult name)
  | .invoke importName args => do
    let r ← realm
    let args ← lowerAll realm args
    return .word (← Act.invokeImport Act.outermost r importName args)
  | .call importName args type name => do
    let r ← realm
    let args ← lowerAll realm args
    Act.answerWith (← Act.callTyped Act.outermost r importName args type) (answerResult name)
  | .newInstance c args name => do
    let r ← realm
    let args ← lowerAll realm args
    Act.answerWith (← Act.newInstance Act.outermost r c args) fun ref => do
      Act.nameInstance name ref
      return .instance ref.handle c.initName
  | .callMember c name member args type into => do
    let this ← Act.named (·.instances) name
    let args ← lowerAll (return this.realm) args
    Act.answerWith (← Act.callMember Act.outermost c this member args type)
      (answerResult into)
  | .getMember c name member type into => do
    let this ← Act.named (·.instances) name
    Act.answerWith (← Act.getMember Act.outermost c this member type) (answerResult into)
  | .setMember c name member v => do
    let this ← Act.named (·.instances) name
    Act.answerDone (← Act.setMember Act.outermost c this member v)
  | .releaseInstance name => do
    Act.answerDone (← Act.releaseRef (← Act.takeInstance name))

end ImportStep

end Membrane.Session
