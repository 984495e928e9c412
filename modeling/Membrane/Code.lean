import Membrane.Boundary.Wire
import Membrane.Fault
import Membrane.Guest.Value
/-!
Foreign code: host functions, imports and guest functions. The runtime sees of such code only what
it asks for. `Request` lists what can be asked, `Request.Answer` is the type of each answer, and
`Code` is a program that ends or asks for something and goes on with the answer.
-/

set_option autoImplicit false

namespace Membrane

/-- How an object is called through its handle. -/
inductive Reflection where
  | call
  | method (name : String)
  | construct
deriving DecidableEq, Repr

inductive Request where
  /-- Makes a plain object. -/
  | newObject (className : Option String)
  | property (object : ObjectId) (name : String)
  | setProperty (object : ObjectId) (name : String) (value : Host.Value)
  | typeName (value : Host.Value)
  /-- The text that a value is shown as. -/
  | text (value : Host.Value)
  | apply (function : ObjectId) (this : Host.Value) (args : List Host.Value)
  | construct (constructor : ObjectId) (args : List Host.Value)
  | log (line : String)
  /-- The realm attached last on the running thread. -/
  | currentRealm
  | retain (realm : RealmId) (value : Host.Value)
  | release (realm : RealmId) (handle : Handle)
  | read (realm : RealmId) (handle : Handle)
  | loadString (realm : RealmId) (handle : Handle)
  | lowerString (realm : RealmId) (text : String)
  | invokeImport (realm : RealmId) (name : String) (args : List Wire)
  | takeException (realm : RealmId)
  | hasException (realm : RealmId)
  /-- How many handles of a realm are live. -/
  | liveCount (realm : RealmId)
  | reflect (realm : RealmId) (target : Handle) (how : Reflection) (args : List Raw)
  | newPromise (realm : RealmId)
  /-- Makes an object that stands for a promise. -/
  | promiseObject (promise : PromiseId)
  /-- Settles a promise after a delay in milliseconds. -/
  | settleLater (realm : RealmId) (promise : PromiseId) (delay : Number)
      (outcome : Except Host.Value Host.Value)
  /-- The guest's copy of a host value. -/
  | adopt (realm : RealmId) (value : Host.Value)
  /-- A second guest value that owns a reference of its own. -/
  | duplicate (value : Guest.Value)
  | getProperty (target : Guest.Value) (name : String)
  | putProperty (target : Guest.Value) (name : String) (value : Guest.Value)
  | reflectGuest (target : Guest.Value) (how : Reflection) (args : List Guest.Value)
  | giveBack (value : Guest.Value)
  | freeFunction (realm : RealmId) (function : FunctionId)

namespace Request

/-- What a request is answered with. -/
def Answer : Request → Type
  | newObject _ => ObjectId
  | property .. => Host.Value
  | setProperty .. => Unit
  | typeName _ => String
  | text _ => String
  | apply .. => Except Host.Value Host.Value
  | construct .. => Except Host.Value Host.Value
  | log _ => Unit
  | currentRealm => Option RealmId
  | retain .. => Handle
  | release .. => Except Fault Unit
  | read .. => Except Fault Host.Value
  | loadString .. => Except Fault String
  | lowerString .. => Handle
  | invokeImport .. => Wire
  | takeException _ => Option Host.Value
  | hasException _ => Bool
  | liveCount _ => Nat
  | reflect .. => Except Fault Raw
  | newPromise _ => PromiseId
  | promiseObject _ => ObjectId
  | settleLater .. => Unit
  | adopt .. => Except Fault Guest.Value
  | duplicate _ => Except Fault Guest.Value
  | getProperty .. => Except Fault Guest.Value
  | putProperty .. => Except Fault Unit
  | reflectGuest .. => Except Fault Guest.Value
  | giveBack _ => Except Fault Unit
  | freeFunction .. => Bool

/-- The value of an outcome, returned or thrown. -/
def outcomeValues : Except Host.Value Host.Value → List Host.Value
  | .ok v | .error v => [v]

/-- The value that was thrown, if that is the fault. -/
def faultValues : Fault → List Host.Value
  | .hostException v => [v]
  | _ => []

/-- The value that was thrown instead of a result. -/
def thrownValues {α : Type} : Except Fault α → List Host.Value
  | .ok _ => []
  | .error e => faultValues e

/-- The value that was read, or the one that was thrown. -/
def readValues : Except Fault Host.Value → List Host.Value
  | .ok v => [v]
  | .error e => faultValues e

/-- The host values that an answer brings. -/
def received : (request : Request) → request.Answer → List Host.Value
  | newObject _, o => [.object o]
  | property .., v => [v]
  | apply .., outcome => outcomeValues outcome
  | construct .., outcome => outcomeValues outcome
  | release .., result => thrownValues result
  | read .., result => readValues result
  | loadString .., result => thrownValues result
  | takeException _, slot => slot.toList
  | reflect .., result => thrownValues result
  | promiseObject _, o => [.object o]
  | adopt .., result => thrownValues result
  | duplicate _, result => thrownValues result
  | getProperty .., result => thrownValues result
  | putProperty .., result => thrownValues result
  | reflectGuest .., result => thrownValues result
  | giveBack _, result => thrownValues result
  | _, _ => []

end Request

/-- A program that ends with a result or asks for something and goes on with the answer. -/
inductive Code (α : Type) where
  | done (result : α)
  | ask (request : Request) (next : request.Answer → Code α)

namespace Code

variable {α β : Type}

def bind (c : Code α) (f : α → Code β) : Code β :=
  match c with
  | .done a => f a
  | .ask request next => .ask request fun answer => (next answer).bind f

instance : Monad Code where
  pure := .done
  bind := .bind

/-- Asks for one thing. -/
def request (r : Request) : Code r.Answer := .ask r .done

/-- An error object of the class given. -/
def newError (className message : String) : Code Host.Value := do
  let object ← (request (.newObject (some className)) : Code ObjectId)
  request (.setProperty object "message" (.string message))
  return .object object

/-- Throws a type error. -/
def throwTypeError (message : String) : Code (Except Host.Value α) := do
  return .error (← newError "TypeError" message)

/-- Runs code for every item, in order. -/
def forEach {ι : Type} (items : List ι) (f : ι → Code Unit) : Code Unit :=
  match items with
  | [] => .done ()
  | i :: rest => (f i).bind fun _ => forEach rest f

/-- The results of code for every item, in order. -/
def collect {ι : Type} (items : List ι) (f : ι → Code β) : Code (List β) :=
  match items with
  | [] => .done []
  | i :: rest => (f i).bind fun b => (collect rest f).bind fun bs => .done (b :: bs)

end Code

/-- A host function: it gets the receiver and the arguments and returns or throws. `holds` are the
values that its code refers to. -/
structure Host.Function where
  holds : List Host.Value
  run : Host.Value → List Host.Value → Code (Except Host.Value Host.Value)

/-- A host constructor. -/
structure Host.Constructor where
  holds : List Host.Value
  run : List Host.Value → Code (Except Host.Value Host.Value)

/-- An import: a host function that a guest calls with words. -/
structure Import where
  holds : List Host.Value
  run : RealmId → List Wire → Code (Except Host.Value Wire)

/-- A guest function that the host calls. It borrows its arguments. -/
structure Guest.Function where
  holds : List Host.Value
  run : List Guest.Value → Code (Except Host.Value Guest.Value)

end Membrane
