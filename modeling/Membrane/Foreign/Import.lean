import Membrane.Foreign.Basic
/-!
Imports that take their arguments by type and answer with a word. What an import takes is logged.
Strings that it takes are consumed, objects stay with the caller.
-/

set_option autoImplicit false

namespace Membrane

/-- The type that an argument is taken as. -/
inductive TakeType where
  | string
  | object
  | number
  | bool
deriving DecidableEq, Repr

/-- What an import answers with. Places count the values taken. -/
inductive ImportResult where
  | word (w : Wire)
  /-- A fresh string, lowered in the realm. -/
  | lowered (text : String)
  /-- A value, in the word that fits its type. -/
  | value (v : Host.Value)
  | taken (place : Nat)
  /-- The handle of a value. -/
  | handle (v : Host.Value)
  | throw (v : Host.Value)
  /-- The texts of what was taken. -/
  | join
  /-- Stores one taken value in a property of another. -/
  | set (target : Nat) (property : String) (source : Nat)
  | get (target : Nat) (property : String)
  /-- A fresh object of a class with taken values as its properties. -/
  | make (className : String) (properties : List (String × Nat))
  /-- What another import answers that is called with fresh strings and some of the words. What it
  throws is thrown again unless it is to be caught. -/
  | nest (name : String) (strings : List String) (pass : List Nat) (catches : Bool)
  /-- A promise that is settled after a delay in milliseconds. -/
  | promise (delay : Number) (outcome : Except Host.Value Host.Value)

namespace TakeType

def name : TakeType → String
  | .string => "string"
  | .object => "object"
  | .number => "number"
  | .bool => "bool"

end TakeType

namespace Foreign

/-- One of the words that an import is called with. -/
def wordAt (args : List Wire) (place : Nat) : Foreign Wire :=
  match args[place]? with
  | some w => return w
  | none => typeError ("missing argument " ++ toString place)

def handleAt (args : List Wire) (place : Nat) : Foreign Handle := do
  ofResult (← wordAt args place).asHandle

/-- Takes an argument as a type. -/
def take (r : RealmId) (args : List Wire) (type : TakeType) (place : Nat) :
    Foreign Host.Value := do
  match type with
  | .string => return .string (← askFor (.loadString r (← handleAt args place)) rfl)
  | .object =>
    match ← askFor (α := Host.Value) (.read r (← handleAt args place)) rfl with
    | .object o => return .object o
    | v =>
      let name : String ← ask (.typeName v)
      typeError ("expected an object, got " ++ name)
  | .number =>
    match ← wordAt args place with
    | .f64 x => return .number x
    | .f32 x => return .number x.toNumber
    | .i32 n => return .number (.ofInt n.toInt)
    | .void => typeError "expected a number"
  | .bool =>
    match ← wordAt args place with
    | .i32 n => return .bool (n != 0)
    | _ => typeError "expected a boolean"

/-- Takes arguments in order and logs each. -/
def takeAll (r : RealmId) (args : List Wire) (takes : List (TakeType × Nat)) :
    Foreign (List Host.Value) :=
  takes.mapM fun (type, place) => do
    let v ← take r args type place
    log (type.name ++ " " ++ toString place ++ " = " ++ (← text v))
    return v

/-- The word of a handle that the caller receives. -/
def returnHandle (r : RealmId) (v : Host.Value) : Foreign Wire := do
  return .ofHandle (← ask (.retain r v))

/-- The word that fits the type of a value. -/
def returnValue (r : RealmId) (v : Host.Value) : Foreign Wire := do
  match v with
  | .undefined => return .void
  | .bool b => return .ofBool b
  | .number x => return .f64 x
  | .null | .string _ | .object _ => returnHandle r v

/-- Calls another import: what it answers, or what it threw. -/
def callNested (r : RealmId) (name : String) (args : List Wire) :
    Foreign (Except Host.Value Wire) := do
  let word : Wire ← ask (.invokeImport r name args)
  let live : Nat ← ask (.liveCount r)
  let thrown : Bool ← ask (.hasException r)
  log ("nested live " ++ toString live ++ " pending " ++ if thrown then "true" else "false")
  match ← (ask (.takeException r) : Foreign (Option Host.Value)) with
  | some v => return .error v
  | none => return .ok word

/-- Sets the timer of a promise and then retains its object. -/
def returnPromise (r : RealmId) (delay : Number) (outcome : Except Host.Value Host.Value) :
    Foreign Wire := do
  let p : PromiseId ← ask (.newPromise r)
  let o : ObjectId ← ask (.promiseObject p)
  ask (.settleLater r p delay outcome)
  returnHandle r (.object o)

/-- The answer of an import that has taken what it takes. -/
def answer (r : RealmId) (args : List Wire) (taken : List Host.Value) :
    ImportResult → Foreign Wire
  | .word w => return w
  | .lowered s => return .ofHandle (← ask (.lowerString r s))
  | .value v => returnValue r v
  | .taken place => returnValue r (taken.getD place .undefined)
  | .handle v => returnHandle r v
  | .throw v => throw v
  | .join => do returnHandle r (.string (← textsJoined "," taken))
  | .set target property source => do
    match taken.getD target .undefined with
    | .object o => ask (.setProperty o property (taken.getD source .undefined))
    | _ => pure ()
    return .void
  | .get target property => do
    match taken.getD target .undefined with
    | .object o => returnValue r (← ask (.property o property))
    | _ => return .void
  | .make className properties => do
    let o : ObjectId ← ask (.newObject (some className))
    properties.forM fun (name, place) =>
      ask (.setProperty o name (taken.getD place .undefined))
    returnHandle r (.object o)
  | .nest name strings pass catches => do
    let lowered ← strings.mapM fun s => do
      return Wire.ofHandle (← ask (.lowerString r s))
    match ← callNested r name (lowered ++ pass.filterMap (args[·]?)) with
    | .ok w => return w
    | .error v =>
      if catches then returnHandle r (.string ("caught " ++ (← text v)))
      else throw v
  | .promise delay outcome => returnPromise r delay outcome

end Foreign

namespace ImportResult

/-- The values that an answer refers to. -/
def holds : ImportResult → List Host.Value
  | .value v | .handle v | .throw v | .promise _ (.ok v) | .promise _ (.error v) => [v]
  | _ => []

end ImportResult

/-- The import that takes arguments and answers. -/
def Import.taking (takes : List (TakeType × Nat)) (result : ImportResult) : Import where
  holds := result.holds
  run r args := ExceptT.run (m := Code) do
    Foreign.answer r args (← Foreign.takeAll r args takes) result

end Membrane
