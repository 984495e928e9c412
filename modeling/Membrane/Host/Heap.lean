import Membrane.Code
/-!
The heap of host objects. Objects are made at its end and stay in place, so an object is its number
there. Only properties change.
-/

set_option autoImplicit false

namespace Membrane.Host

/-- What an object can do beside holding properties. -/
inductive Kind where
  | plain
  | function (f : Function)
  /-- A function object that calls into the closure table of a realm. -/
  | guestFunction (realm : RealmId) (id : FunctionId)
  | constructor (c : Constructor)
  | promise (id : PromiseId)

namespace Kind

def isCallable : Kind → Bool
  | .function _ | .guestFunction .. => true
  | _ => false

def name : Kind → String
  | .plain => "plain"
  | .function _ | .guestFunction .. => "function"
  | .constructor _ => "constructor"
  | .promise _ => "promise"

end Kind

structure Object where
  className : Option String
  kind : Kind
  /-- Ascending by name. -/
  properties : List (String × Value)

namespace Object

def plain (className : Option String) : Object := ⟨className, .plain, []⟩

def functionClass : String := "Function"

def promiseClass : String := "Promise"

def get (o : Object) (name : String) : Value := (o.properties.lookup name).getD .undefined

def has (o : Object) (name : String) : Bool := (o.properties.lookup name).isSome

/-- Puts a property in its place. -/
def insertProperty (name : String) (value : Value) : List (String × Value) → List (String × Value)
  | [] => [(name, value)]
  | (n, v) :: rest =>
    if name < n then (name, value) :: (n, v) :: rest
    else if name = n then (name, value) :: rest
    else (n, v) :: insertProperty name value rest

def set (o : Object) (name : String) (value : Value) : Object :=
  { o with properties := insertProperty name value o.properties }

def keys (o : Object) : List String := o.properties.map (·.1)

/-- The class in brackets. -/
def describe (o : Object) : String := "[object " ++ o.className.getD "Object" ++ "]"

/-- The class and the message of an error, the class in brackets otherwise. -/
def text (o : Object) : String :=
  match o.className, o.get "message" with
  | some c, .string message => if c.endsWith "Error" then c ++ ": " ++ message else o.describe
  | _, _ => o.describe

/-- The values that an object refers to. -/
def references (o : Object) : List Value :=
  o.properties.map (·.2) ++ match o.kind with
    | .function f => f.holds
    | .constructor c => c.holds
    | _ => []

end Object

/-- All objects made so far. -/
structure Heap where
  objects : Array Object

namespace Heap

def empty : Heap := ⟨#[]⟩

def get? (heap : Heap) (id : ObjectId) : Option Object := heap.objects[id]?

/-- Makes an object. -/
def alloc (heap : Heap) (o : Object) : ObjectId × Heap :=
  (heap.objects.size, ⟨heap.objects.push o⟩)

/-- The value of a property; undefined if there is none. -/
def property (heap : Heap) (id : ObjectId) (name : String) : Value :=
  ((heap.get? id).map (·.get name)).getD .undefined

def setProperty (heap : Heap) (id : ObjectId) (name : String) (value : Value) : Heap :=
  ⟨heap.objects.modify id (·.set name value)⟩

def isCallable (heap : Heap) (id : ObjectId) : Bool :=
  ((heap.get? id).map (·.kind.isCallable)).getD false

/-- The promise that an object stands for. -/
def promise? (heap : Heap) (v : Value) : Option PromiseId := do
  match (← heap.get? (← v.object?)).kind with
  | .promise p => some p
  | _ => none

def typeName (heap : Heap) : Value → String
  | .undefined => "undefined"
  | .null => "object"
  | .bool _ => "boolean"
  | .number _ => "number"
  | .string _ => "string"
  | .object id => if heap.isCallable id then "function" else "object"

/-- The text that a value is shown as. -/
def text (heap : Heap) : Value → String
  | .undefined => "undefined"
  | .null => "null"
  | .bool b => if b then "true" else "false"
  | .number x => x.plainText
  | .string s => s
  | .object id => ((heap.get? id).map (·.text)).getD ""

def className? (heap : Heap) (v : Value) : Option String := do
  (← heap.get? (← v.object?)).className

/-- The message of a thrown value. -/
def thrownMessage (heap : Heap) (v : Value) : String :=
  match v with
  | .object id =>
    match heap.property id "message" with
    | .string message => message
    | _ => heap.text v
  | _ => heap.text v

/-- The text of a thrown value that nobody caught. -/
def thrownText (heap : Heap) (v : Value) : String :=
  (heap.className? v).getD "uncaught host exception" ++ ": " ++ heap.thrownMessage v

/-- The text of a fault. -/
def faultText (heap : Heap) (fault : Fault) : String := fault.messageWith heap.thrownText

/-- Makes an error object. -/
def newError (heap : Heap) (className message : String) : Value × Heap :=
  let (id, heap) := heap.alloc ((Object.plain (some className)).set "message" (.string message))
  (.object id, heap)

end Heap

end Membrane.Host
