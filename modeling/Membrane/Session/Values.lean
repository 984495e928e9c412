import Membrane.Session.Answer
import Membrane.Session.Expression
/-!
Steps that work on host values and on the objects they stand for.
-/

set_option autoImplicit false

namespace Membrane.Session

inductive ValueStep where
  | assign (name : String) (v : Expr)
  | forget (name : String)
  | facts (v : Expr)
  | property (object : Expr) (name : String)
  | setProperty (object : Expr) (name : String) (v : Expr)
  | hasProperty (object : Expr) (name : String)
  | keys (object : Expr)
  | call (function : Expr) (this : Expr) (args : List Expr)
  | construct (constructor : Expr) (args : List Expr)

/-- The object that an expression stands for. -/
def Expr.evalObject (e : Expr) : Act ObjectId := do
  match ← e.eval with
  | .object o => return o
  | _ => throw .missing

namespace ValueStep

def perform : ValueStep → Act Answer
  | .assign name v => do
    let v ← v.eval
    Act.nameValue name v
    Act.answerValue v
  | .forget name => do
    Act.setRegisters fun r => { r with values := r.values.erase name }
    return .nothing
  | .facts v => do return .facts (← Act.factsOf (← v.eval))
  | .property object name => do
    Act.answerValue (← Act.property (← object.evalObject) name)
  | .setProperty object name v => do
    let o ← object.evalObject
    Act.setProperty o name (← v.eval)
    return .nothing
  | .hasProperty object name => do
    let id ← object.evalObject
    let o ← Act.fetch (·.heap.get? id)
    return .flag (o.has name)
  | .keys object => do
    let id ← object.evalObject
    let o ← Act.fetch (·.heap.get? id)
    return .texts o.keys
  | .call function this args => do
    let f ← function.evalObject
    let this ← this.eval
    let args ← args.mapM Expr.eval
    Act.answerOutcome (← Act.callObject Act.outermost f this args)
  | .construct constructor args => do
    let f ← constructor.evalObject
    let args ← args.mapM Expr.eval
    Act.answerOutcome (← Act.constructObject Act.outermost f args)

end ValueStep

end Membrane.Session
