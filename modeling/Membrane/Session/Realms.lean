import Membrane.Session.Values
/-!
Steps that work on a realm directly: on its reference table, its slot for a thrown value, its
strings and its tagged values.
-/

set_option autoImplicit false

namespace Membrane.Session

inductive RealmStep where
  | retain (v : Expr)
  | retainHandle (h : Handle)
  | release (h : Handle)
  | read (h : Handle)
  | contains (h : Handle)
  | refcount (h : Handle)
  | finalize (h : Handle)
  | collect
  | setException (v : Expr)
  | takeException
  | hasException
  | checkException
  | makeString (text : String)
  | lowerString (text : String)
  | stringLength (h : Handle)
  | decodeString (h : Handle) (size : Nat)
  | loadString (h : Handle)
  | lowerRaw (v : Expr)
  | liftRaw (raw : Raw)
  | property (h : Handle) (name : String)
  | setProperty (h : Handle) (name : String) (raw : Raw)
  | reflect (h : Handle) (how : Reflection) (args : List Raw)
  /-- Reads a property of the global object. -/
  | global (name : String)
  | setGlobal (name : String) (v : Expr)

/-- What a buffer is filled with before anything is written to it. -/
def blankByte : UInt8 := 0xee

/-- A buffer of a size with bytes written to it. -/
def buffer (size : Nat) (bytes : ByteArray) : ByteArray :=
  bytes ++ ⟨Array.replicate (size - bytes.size) blankByte⟩

/-- Answers with a handle. -/
def answerHandle (h : Handle) : Answer := .int h.raw.toNat

namespace RealmStep

def perform (r : RealmId) : RealmStep → Act Answer
  | .retain v => do
    let v ← v.eval
    return answerHandle (← Act.retain r v)
  | .retainHandle h => do
    Act.answerWith (← Act.retainHandle r h) fun _ => return answerHandle h
  | .release h => do Act.answerDone (← Act.release r h)
  | .read h => do Act.answerWith (← Act.read r h) Act.answerValue
  | .contains h => do return .flag (← Act.contains r h)
  | .refcount h => do return .count ((← Act.refcount? r h).map (·.toNat))
  | .finalize h => do
    Act.scheduleFinalizer r h
    return .nothing
  | .collect => do return .int (← Act.collectGarbage r)
  | .setException v => do
    Act.setException r (← v.eval)
    return .nothing
  | .takeException => do
    match ← Act.takeException r with
    | some v => return .taken (some (← Act.see v))
    | none => return .taken none
  | .hasException => do return .flag (← Act.hasException r)
  | .checkException => do Act.answerDone (← Act.checkException r)
  | .makeString text => do return answerHandle (← Act.makeString r text)
  | .lowerString text => do return answerHandle (← Act.lowerString r text)
  | .stringLength h => do Act.answerWith (← Act.stringLength r h) fun n => return .int n
  | .decodeString h size => do
    Act.answerWith (← Act.decodeString r h size) fun bytes =>
      return .bytes bytes.size (some (buffer size bytes))
  | .loadString h => do Act.answerWith (← Act.loadString r h) fun s => return .text s
  | .lowerRaw v => do
    let v ← v.eval
    return .raw (← Act.lowerRaw r v)
  | .liftRaw raw => do Act.answerWith (← Act.liftRaw r raw) Act.answerValue
  | .property h name => do
    Act.answerWith (← Act.getRawProperty r h name) fun raw => return .raw raw
  | .setProperty h name raw => do Act.answerDone (← Act.setRawProperty r h name raw)
  | .reflect h how args => do
    Act.answerWith (← Act.reflect Act.outermost r h how args) fun raw => return .raw raw
  | .global name => do
    Act.answerValue (← Act.property (← Act.realm r).globalObject name)
  | .setGlobal name v => do
    let v ← v.eval
    Act.setProperty (← Act.realm r).globalObject name v
    return .nothing

end RealmStep

end Membrane.Session
