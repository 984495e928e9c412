import Membrane.Session.Values
/-!
Steps that work on owned references.
-/

set_option autoImplicit false

namespace Membrane.Session

inductive RefStep where
  | retain (v : Expr) (name : String)
  /-- Owns a handle that is not retained for it. -/
  | adopt (h : Handle) (name : String)
  | global (name : String)
  | copy (name into : String)
  | value (name : String)
  | text (name : String)
  | release (name : String)
  | drop (name : String)
  /-- Gives up a reference and answers with its handle. -/
  | disown (name : String)
  /-- Takes a reference as one to a promise. -/
  | asPromise (name into : String)

/-- Names a reference and answers with its handle. -/
def answerRef (name : String) (ref : Guest.Ref) : Act Answer := do
  Act.nameRef name ref
  return .ref ref.handle

namespace RefStep

def perform (realm : Act RealmId) : RefStep → Act Answer
  | .retain v name => do
    let r ← realm
    let v ← v.eval
    answerRef name ⟨r, ← Act.retain r v⟩
  | .adopt h name => do answerRef name ⟨← realm, h⟩
  | .global name => do
    Act.answerWith (← Act.copyRef ⟨← realm, .globalObject⟩) (answerRef name)
  | .copy name into => do
    Act.answerWith (← Act.copyRef (← Act.named (·.refs) name)) (answerRef into)
  | .value name => do
    let ref ← Act.named (·.refs) name
    Act.answerWith (← Act.read ref.realm ref.handle) Act.answerValue
  | .text name => do return .text (← Act.refText (← Act.named (·.refs) name))
  | .release name => do Act.answerDone (← Act.releaseRef (← Act.takeRef name))
  | .drop name => do
    Act.dropRef (← Act.takeRef name)
    return .nothing
  | .disown name => do return .int (← Act.takeRef name).handle.raw.toNat
  | .asPromise name into => do
    Act.answerWith (← Act.asPromise (← Act.takeRef name)) fun ref => do
      let text ← Act.promiseText ref
      Act.nameRef into ref
      return .text text

end RefStep

end Membrane.Session
