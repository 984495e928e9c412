import Membrane.Foreign.Guest
import Membrane.Foreign.Host
import Membrane.Foreign.Import
import Membrane.World.Convert
import Membrane.World.Naming
/-!
What a session writes down for host values, for foreign code and for typed arguments. Every
evaluation makes fresh objects, except for values that are named.
-/

set_option autoImplicit false

namespace Membrane.Session

mutual

/-- A host value. -/
inductive Expr where
  | undefined
  | null
  | bool (b : Bool)
  | number (x : Number)
  | string (s : String)
  | named (name : String)
  | document (document : Json)
  | error (message : String)
  | typeError (message : String)
  | object (className : Option String) (properties : List (String × Expr))
  | function (body : HostBody)
  | constructor (className : String) (body : ConstructorBody)
  /-- A fresh object that stands for a named promise. -/
  | promise (name : String)

/-- A host function; what it refers to is evaluated when the function is made. -/
inductive HostBody where
  | const (v : Expr)
  | throw (v : Expr)
  | argument (place : Nat)
  | receiver
  | argumentCount
  | sum
  | types
  | display
  | callFirst
  | bump
  | setProperty (name : String)
  | callProperty (name : String)

inductive ConstructorBody where
  | const (v : Expr)
  | throw (v : Expr)
  | fields (names : List String)

end

instance : Inhabited Expr := ⟨.undefined⟩

instance : Inhabited HostBody := ⟨.receiver⟩

instance : Inhabited ConstructorBody := ⟨.fields []⟩

mutual

def Expr.eval : Expr → Act Host.Value
  | .undefined => return .undefined
  | .null => return .null
  | .bool b => return .bool b
  | .number x => return .number x
  | .string s => return .string s
  | .named name => Act.named (·.values) name
  | .document j => Act.onHeap (·.ofJson j)
  | .error message => Act.newError "Error" message
  | .typeError message => Act.newError "TypeError" message
  | .object className properties => do
    let o ← Act.newObject (.plain className)
    evalProperties o properties
    return .object o
  | .function body => do
    let f ← body.eval
    return .object (← Act.newObject ⟨some Host.Object.functionClass, .function f, []⟩)
  | .constructor className body => do
    let c ← body.eval className
    return .object (← Act.newObject ⟨some className, .constructor c, []⟩)
  | .promise name => do
    return .object (← Act.promiseObject (← Act.named (·.promises) name))

def evalProperties (o : ObjectId) : List (String × Expr) → Act Unit
  | [] => return ()
  | (name, e) :: rest => do
    Act.setProperty o name (← e.eval)
    evalProperties o rest

def HostBody.eval : HostBody → Act Host.Function
  | .const v => return .const (← v.eval)
  | .throw v => return .throwing (← v.eval)
  | .argument place => return .argument place
  | .receiver => return .receiver
  | .argumentCount => return .argumentCount
  | .sum => return .sum
  | .types => return .types
  | .display => return .display
  | .callFirst => return .callFirst
  | .bump => return .bump
  | .setProperty name => return .setProperty name
  | .callProperty name => return .callProperty name

def ConstructorBody.eval (className : String) : ConstructorBody → Act Host.Constructor
  | .const v => return .const (← v.eval)
  | .throw v => return .throwing (← v.eval)
  | .fields names => return .fields className names

end

/-- A typed argument. -/
inductive ArgumentExpr where
  | value (v : Guest.Argument)
  | ref (name : String)
  | closure (name : String)
deriving DecidableEq, Repr

namespace ArgumentExpr

def eval : ArgumentExpr → Act Guest.Argument
  | .value v => return v
  | .ref name => return .ref (← Act.named (·.refs) name)
  | .closure name => return .ref (← Act.named (·.closures) name).ref

/-- The word of an argument in a realm. -/
def lower (r : RealmId) (e : ArgumentExpr) : Act Wire := do Act.lower r (← e.eval)

end ArgumentExpr

/-- What an import answers with. -/
inductive ResultExpr where
  | argument (e : ArgumentExpr)
  | value (v : Expr)
  | taken (place : Nat)
  | handle (v : Expr)
  | throw (v : Expr)
  | join
  | set (target : Nat) (property : String) (source : Nat)
  | get (target : Nat) (property : String)
  | make (className : String) (properties : List (String × Nat))
  | nest (name : String) (strings : List String) (pass : List Nat) (catches : Bool)
  | promise (delay : Number) (v : Expr) (rejects : Bool)

namespace ResultExpr

/-- The answer with its values evaluated. A string is lowered at every call anew. -/
def eval : ResultExpr → Act ImportResult
  | .argument e => do
    match ← e.eval with
    | .string s => return .lowered s
    | .i32 n => return .word (.i32 n)
    | .u32 n => return .word (.i32 n.toInt32)
    | .bool b => return .word (.ofBool b)
    | .f64 x => return .word (.f64 x)
    | .f32 x => return .word (.f32 x)
    | .void => return .word .void
    | .handle h => return .word (.ofHandle h)
    | .ref ref => return .word (.ofHandle ref.handle)
  | .value v => return .value (← v.eval)
  | .taken place => return .taken place
  | .handle v => return .handle (← v.eval)
  | .throw v => return .throw (← v.eval)
  | .join => return .join
  | .set target property source => return .set target property source
  | .get target property => return .get target property
  | .make className properties => return .make className properties
  | .nest name strings pass catches => return .nest name strings pass catches
  | .promise delay v rejects => do
    let v ← v.eval
    return .promise delay (if rejects then .error v else .ok v)

end ResultExpr

/-- An import. -/
structure ImportExpr where
  takes : List (TakeType × Nat)
  result : ResultExpr

def ImportExpr.eval (e : ImportExpr) : Act Import := return .taking e.takes (← e.result.eval)

/-- A guest function. -/
inductive GuestBody where
  | const (v : Expr)
  | throw (v : Expr)
  | argumentCount
  | echo (place : Nat)
  | types
  | double
  | greet
  | callFirst
  | property (name : String)
  | freeing (id : FunctionId)
  | adopting (h : Handle)

namespace GuestBody

def eval : GuestBody → Act Guest.Function
  | .const v => return .const (← v.eval)
  | .throw v => return .throwing (← v.eval)
  | .argumentCount => return .argumentCount
  | .echo place => return .echo place
  | .types => return .types
  | .double => return .double
  | .greet => return .greet
  | .callFirst => return .callFirst
  | .property name => return .property name
  | .freeing id => return .freeing id
  | .adopting h => return .adopting h

end GuestBody

/-- A guest value to be passed: a scalar, or a reference that is counted once more. -/
inductive GuestExpr where
  | scalar (v : Guest.Value)
  | named (name : String)
  | closure (name : String)
deriving DecidableEq, Repr

namespace GuestExpr

def eval : GuestExpr → Act (Except Fault Guest.Value)
  | .scalar v => return .ok v
  | .named name => do Act.duplicate (← Act.named (·.dynamics) name)
  | .closure name => do Act.functionOf (← Act.named (·.closures) name)

/-- The values of several expressions; at the first that has none, or is halted, those before it
are let go. -/
def evalAll (done : List Guest.Value) : List GuestExpr → Act (Except Fault (List Guest.Value))
  | [] => return .ok done
  | e :: rest => do
    match ← Act.onHalt e.eval (done.forM Act.dropGuest) with
    | .ok v => evalAll (done ++ [v]) rest
    | .error fault =>
      done.forM Act.dropGuest
      return .error fault

end GuestExpr

/-- A job whose outcome is not evaluated yet. -/
inductive JobExpr where
  | mk (log : String) (settle : Option (String × Bool × Expr)) (shutdown : Option String)
      (jobs : List (Moment × JobExpr)) (panic : Option String)

instance : Inhabited JobExpr := ⟨.mk "" none none [] none⟩

namespace JobExpr

mutual

/-- The job with every outcome in it evaluated. -/
def eval : JobExpr → Act Script
  | .mk log settle shutdown jobs panic => do
    let settle ← match settle with
      | none => pure none
      | some (name, resolves, e) => do
        let p ← Act.named (·.promises) name
        let v ← e.eval
        pure (some (p, if resolves then .ok v else .error v))
    let shutdown ← match shutdown with
      | none => pure none
      | some name => some <$> Act.named (·.loops) name
    return .mk log settle shutdown (← evalAll jobs) panic

def evalAll : List (Moment × JobExpr) → Act (List (Moment × Script))
  | [] => return []
  | (moment, job) :: rest => do
    let script ← job.eval
    return (moment, script) :: (← evalAll rest)

end

end JobExpr

/-- A step of a task; things that it names are taken when the task is made. -/
inductive TaskExpr where
  | plain (step : TaskStep)
  | join (task : String)
  | await (ref : String)
  /-- Receives the object of a token, or of a copy of it, and names the reference. -/
  | receive (token : String) (copies : Bool) (name : String)
deriving DecidableEq, Repr

namespace TaskExpr

def eval (context : Option Context) : TaskExpr → Act TaskStep
  | .plain step => return step
  | .join name => return .join (← Act.takeTask name)
  | .await name => return .await (← Act.takeRef name)
  | .receive name copies into => do
    match context with
    | none => throw .missing
    | some c =>
      let t ← if copies then do
          let t ← Act.named (·.tokens) name
          Act.copyToken t
          pure t
        else Act.takeToken name
      return .receive t c into

end TaskExpr

end Membrane.Session
