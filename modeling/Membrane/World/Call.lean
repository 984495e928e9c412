import Membrane.World.Ownership
/-!
Calls across the boundary, in both directions. Each function here that may run foreign code takes a
`Performer`, which answers the requests of that code; `performer` ties the knot for calls that are
nested up to a given depth.
-/

set_option autoImplicit false

namespace Membrane

/-- How the requests of foreign code are answered. -/
abbrev Performer := (request : Request) → Act request.Answer

namespace Code

variable {α : Type}

/-- Runs code, its requests answered by a performer. -/
def exec (p : Performer) : Code α → Act α
  | .done a => return a
  | .ask request next => do exec p (next (← p request))

end Code

namespace Act

/-- Calls an import. It owns the strings lowered before the call; what it does not read of them is
given back after it. A thrown value goes into the slot of the realm and the result is void. -/
def invokeImport (p : Performer) (r : RealmId) (name : String) (args : List Wire) : Act Wire := do
  assertOwner r
  onRealm r fun x => ((), x.openFrame)
  let outcome ← match (← get).runtime.import? name with
    | some i => (i.run r args).exec p
    | none => throwTypeError (name ++ " is not an imported function")
  onRealm r fun x => ((), x.closeFrame)
  match outcome with
  | .ok word => return word
  | .error v =>
    setException r v
    return .void

/-- Calls an import and takes the value that it threw. -/
def callImport (p : Performer) (r : RealmId) (name : String) (args : List Wire) :
    Act (Except Fault Wire) := do
  let word ← invokeImport p r name args
  match ← takeException r with
  | some v => return .error (.hostException v)
  | none => return .ok word

/-- The guest value of an encoding, which owns the reference that came with it. A string is read. -/
def liftGuest (r : RealmId) (raw : Raw) : Act (Except Fault Guest.Value) := do
  match raw.kind with
  | .undefined => return .ok .undefined
  | .null => return .ok .null
  | .boolean => return .ok (.bool (raw.int != 0))
  | .number => return .ok (.number raw.number)
  | .string => return (← loadString r (.ofWire raw.int)).map .string
  | .object => return .ok (.object ⟨r, .ofWire raw.int⟩)
  | .function => return .ok (.function ⟨r, .ofWire raw.int⟩)

/-- The guest's copy of a host value. -/
def adopt (r : RealmId) (v : Host.Value) : Act (Except Fault Guest.Value) := do
  liftGuest r (← lowerRaw r v)

/-- The guest values of encodings. At the first that has none, those before it are let go. -/
def liftGuests (r : RealmId) (lifted : List Guest.Value) :
    List Raw → Act (Except Fault (List Guest.Value))
  | [] => return .ok lifted
  | raw :: rest => do
    match ← liftGuest r raw with
    | .ok v => liftGuests r (lifted ++ [v]) rest
    | .error e =>
      lifted.forM dropGuest
      return .error e

/-- Encodes the result of a guest function; a reference changes hands. -/
def encodeResult (r : RealmId) (v : Guest.Value) : Act Raw := do
  match v with
  | .undefined => return .undefined
  | .null => return .null
  | .bool b => return .ofBool b
  | .number x => return .ofNumber x
  | .string s => return .ofHandle .string (← makeString r s)
  | .object ref => return .ofHandle .object ref.handle
  | .function ref => return .ofHandle .function ref.handle

/-- Calls a guest function with encodings that it owns. -/
def callFunction (p : Performer) (r : RealmId) (id : FunctionId) (args : List Raw) :
    Act (Except Host.Value Raw) := do
  assertOwner r
  sweep
  match (← realm r).closures.get? id with
  | none => throwTypeError (id.text ++ " was called after it was released")
  | some f =>
    match ← liftGuests r [] args with
    | .error e => throwFault e
    | .ok values =>
      let outcome ← onHalt (pinning f.holds ((f.run values).exec p)) (values.forM dropGuest)
      values.forM releaseGuestQuietly
      match outcome with
      | .error v => return .error v
      | .ok v => return .ok (← encodeResult r v)

/-- Calls a guest function through its function object. -/
def callThroughObject (p : Performer) (r : RealmId) (id : FunctionId) (args : List Host.Value) :
    Act (Except Host.Value Host.Value) := do
  if !(← get).holdsRealm r then
    return .error (← newError "Error" "realm is shutting down")
  let raws ← args.mapM (lowerRaw r)
  match ← callFunction p r id raws with
  | .error v => return .error v
  | .ok raw =>
    match ← liftRaw r raw with
    | .error e => throwFault e
    | .ok v =>
      match raw.handle? with
      | some h => releaseQuietly r h
      | none => pure ()
      return .ok v

/-- Calls an object. -/
def callObject (p : Performer) (f : ObjectId) (this : Host.Value) (args : List Host.Value) :
    Act (Except Host.Value Host.Value) := do
  let o ← fetch (·.heap.get? f)
  pinning (.object f :: this :: args) do
    match o.kind with
    | .function g => (g.run this args).exec p
    | .guestFunction r id => callThroughObject p r id args
    | _ => throwTypeError (o.describe ++ " is not a function")

/-- Makes an object by calling a constructor. -/
def constructObject (p : Performer) (f : ObjectId) (args : List Host.Value) :
    Act (Except Host.Value Host.Value) := do
  let o ← fetch (·.heap.get? f)
  pinning (.object f :: args) do
    match o.kind with
    | .constructor c => (c.run args).exec p
    | _ => throwTypeError (o.describe ++ " is not a constructor")

/-- Calls an object the way a reflection says. -/
def reflectObject (p : Performer) (o : ObjectId) (how : Reflection) (args : List Host.Value) :
    Act (Except Host.Value Host.Value) := do
  match how with
  | .call => callObject p o .undefined args
  | .construct => constructObject p o args
  | .method name =>
    match ← property o name with
    | .object f => callObject p f (.object o) args
    | _ => throwTypeError (name ++ " is not a function")

/-- The outcome of a reflective call: a value is encoded, a thrown value passes through the slot. -/
def finish (r : RealmId) : Except Host.Value Host.Value → Act (Except Fault Raw)
  | .ok v => return .ok (← lowerRaw r v)
  | .error v => do
    setException r v
    return (← checkException r).map fun _ => .undefined

/-- Calls the object at a handle with encodings that stay with the caller. -/
def reflect (p : Performer) (r : RealmId) (target : Handle) (how : Reflection) (args : List Raw) :
    Act (Except Fault Raw) := do
  match ← objectAt r target with
  | .error e => return .error e
  | .ok o =>
    match ← liftAll r args with
    | .error e => return .error e
    | .ok values => finish r (← reflectObject p o how values)

/-- The reference of a value that is to be called or looked into. -/
def targetOf (v : Guest.Value) : Except Fault Guest.Ref :=
  match v.ref? with
  | some ref => .ok ref
  | none => .error (.valueMismatch "object" v.typeName)

/-- Encodes a borrowed value: the encoding, and the handle of a string made for it. -/
def encodeArg (r : RealmId) (v : Guest.Value) : Act (Raw × Option Handle) := do
  match v with
  | .undefined => return (.undefined, none)
  | .null => return (.null, none)
  | .bool b => return (.ofBool b, none)
  | .number x => return (.ofNumber x, none)
  | .string s =>
    let h ← makeString r s
    return (.ofHandle .string h, some h)
  | .object ref => return (.ofHandle .object ref.handle, none)
  | .function ref => return (.ofHandle .function ref.handle, none)

/-- Gives the strings made for a call back, up to the first failure. -/
def releaseAll (r : RealmId) : List Handle → Act (Except Fault Unit)
  | [] => return .ok ()
  | h :: rest => do
    match ← release r h with
    | .error e => return .error e
    | .ok () => releaseAll r rest

/-- Runs an action on the encodings of borrowed values. -/
def withEncoded {α : Type} (r : RealmId) (args : List Guest.Value)
    (act : List Raw → Act (Except Fault α)) : Act (Except Fault α) := do
  let encoded ← args.mapM (encodeArg r)
  let result ← act (encoded.map (·.1))
  match ← releaseAll r (encoded.filterMap (·.2)) with
  | .error e => return .error e
  | .ok () => return result

/-- Reads a property of a guest value. -/
def getProperty (target : Guest.Value) (name : String) : Act (Except Fault Guest.Value) := do
  match targetOf target with
  | .error e => return .error e
  | .ok ref =>
    match ← getRawProperty ref.realm ref.handle name with
    | .error e => return .error e
    | .ok raw => liftGuest ref.realm raw

/-- Stores a value in a property of a guest value. -/
def putProperty (target : Guest.Value) (name : String) (v : Guest.Value) :
    Act (Except Fault Unit) := do
  match targetOf target with
  | .error e => return .error e
  | .ok ref =>
    withEncoded ref.realm [v] fun raws =>
      match raws with
      | raw :: _ => setRawProperty ref.realm ref.handle name raw
      | [] => return .ok ()

/-- Calls a guest value the way a reflection says. -/
def reflectGuest (p : Performer) (target : Guest.Value) (how : Reflection)
    (args : List Guest.Value) : Act (Except Fault Guest.Value) := do
  match targetOf target with
  | .error e => return .error e
  | .ok ref =>
    match ← withEncoded ref.realm args (reflect p ref.realm ref.handle how) with
    | .error e => return .error e
    | .ok raw => liftGuest ref.realm raw

/-- A function value with a reference of its own to the function object of a closure. -/
def functionOf (c : Guest.Closure) : Act (Except Fault Guest.Value) := do
  return (← copyRef c.ref).map .function

/-- Calls a closure through the host. -/
def callClosure (p : Performer) (c : Guest.Closure) (args : List Guest.Value) :
    Act (Except Fault Guest.Value) := do
  match ← functionOf c with
  | .error e => return .error e
  | .ok f =>
    let result ← onHalt (reflectGuest p f .call args) (dropGuest f)
    match ← releaseGuest f, result with
    | .ok (), result => return result
    | .error e, .ok v =>
      dropGuest v
      return .error e
    | .error e, .error _ => return .error e

/-- Makes a guest function known to the host and retains its function object. -/
def newClosure (r : RealmId) (f : Guest.Function) : Act Guest.Closure := do
  let function ← registerFunction r f
  let object ← newObject ⟨some Host.Object.functionClass, .guestFunction r function, []⟩
  return ⟨function, ⟨r, ← retain r (.object object)⟩⟩

/-- Gives a closure back. Without weak references its guest function is forgotten at once. -/
def releaseClosure (c : Guest.Closure) : Act (Except Fault Unit) := do
  if !(← realm c.ref.realm).features.weakRefs then
    let _ ← freeFunction c.ref.realm c.function
  releaseRef c.ref

/-- Answers a request; code that it runs has its own requests answered by the performer given. -/
def answer (p : Performer) : Performer
  | .newObject className => newObject (.plain className)
  | .property o name => property o name
  | .setProperty o name v => setProperty o name v
  | .typeName v => typeName v
  | .text v => text v
  | .apply f this args => callObject p f this args
  | .construct f args => constructObject p f args
  | .log line => log line
  | .currentRealm => do
    let w ← get
    return (w.current.lookup w.here).map (·.realm)
  | .retain r v => retain r v
  | .release r h => release r h
  | .read r h => read r h
  | .loadString r h => loadString r h
  | .lowerString r s => lowerString r s
  | .invokeImport r name args => invokeImport p r name args
  | .takeException r => takeException r
  | .hasException r => hasException r
  | .liveCount r => liveCount r
  | .reflect r target how args => reflect p r target how args
  | .newPromise r => do newPromise (← realm r).loop
  | .promiseObject id => promiseObject id
  | .settleLater r id delay outcome => do
    setTimeout (← realm r).loop delay (.settle id outcome)
  | .adopt r v => adopt r v
  | .duplicate v => duplicate v
  | .getProperty target name => getProperty target name
  | .putProperty target name v => putProperty target name v
  | .reflectGuest target how args => reflectGuest p target how args
  | .giveBack v => releaseGuest v
  | .freeFunction r id => freeFunction r id

/-- Answers a request. What the answer brings is in the hands of the code that asked until the call
that runs it is over. -/
def perform (p : Performer) (request : Request) : Act request.Answer :=
  handing request.received (answer p request)

/-- Answers requests whose code asks for more, up to a depth. -/
def performer : Nat → Performer
  | 0 => fun _ => throw .tooDeep
  | depth + 1 => perform (performer depth)

/-- How deep calls may be nested. -/
def depthLimit : Nat := 4000

/-- Answers the requests of code that is called from outside. -/
def outermost : Performer := performer depthLimit

end Act

end Membrane
