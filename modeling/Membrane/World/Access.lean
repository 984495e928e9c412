import Membrane.World.Existence
/-!
Working on a realm. Whatever touches the reference table is for the owner of the realm; the slot of
the thrown value and the list of what waits to be given back are open to every thread.
-/

set_option autoImplicit false

namespace Membrane.Act

/-- The thread that a realm belongs to. -/
def threadOf (w : World) (r : RealmId) : ThreadIndex := ((w.realms[r]?).map (·.thread)).getD ⟨0⟩

def retain (r : RealmId) (v : Host.Value) : Act Handle := do
  assertOwner r
  onRealm r (·.retain v)

def retainHandle (r : RealmId) (h : Handle) : Act (Except Fault Unit) := do
  assertOwner r
  tryRealm r (·.retainHandle h)

def release (r : RealmId) (h : Handle) : Act (Except Fault Unit) := do
  assertOwner r
  tryRealm r (·.release h)

/-- Gives a reference back where nobody looks at a failure. -/
def releaseQuietly (r : RealmId) (h : Handle) : Act Unit := do
  let _ ← release r h

/-- The value at a handle. -/
def read (r : RealmId) (h : Handle) : Act (Except Fault Host.Value) := do
  assertOwner r
  return (← realm r).table.get h

def contains (r : RealmId) (h : Handle) : Act Bool := do
  assertOwner r
  return (← realm r).table.contains h

def refcount? (r : RealmId) (h : Handle) : Act (Option UInt32) := do
  assertOwner r
  return (← realm r).table.refcount? h

/-- How many handles are live. -/
def liveCount (r : RealmId) : Act Nat := do
  assertOwner r
  return (← realm r).table.liveCount

/-- Notes a handle to be given back. The first one that is noted queues the collection. -/
def scheduleFinalizer (r : RealmId) (h : Handle) : Act Unit := do
  let first ← onRealm r (·.scheduleFinalizer h)
  if first then queueMicrotask (← realm r).loop (.collect r)

/-- Gives back what was noted. The list is taken before the thread is checked. -/
def collectGarbage (r : RealmId) : Act Nat := do
  let x ← realm r
  if x.finalizers.isEmpty then return 0
  setRealm r { x with finalizers := [] }
  assertOwner r
  let (count, x) := x.collect
  setRealm r x
  return count

def setException (r : RealmId) (v : Host.Value) : Act Unit :=
  onRealm r fun x => ((), x.throwValue v)

def takeException (r : RealmId) : Act (Option Host.Value) := onRealm r (·.takeException)

def hasException (r : RealmId) : Act Bool := return (← realm r).exception.isSome

/-- Takes the thrown value as a fault. -/
def checkException (r : RealmId) : Act (Except Fault Unit) := do
  match ← takeException r with
  | some v => return .error (.hostException v)
  | none => return .ok ()

def makeString (r : RealmId) (text : String) : Act Handle := retain r (.string text)

/-- Retains a string for the next import that is called. -/
def lowerString (r : RealmId) (text : String) : Act Handle := do
  assertOwner r
  onRealm r (·.lowerString text)

/-- The text at a handle. -/
def stringAt (r : RealmId) (h : Handle) : Act (Except Fault String) := do
  assertOwner r
  let names := (← get).heap.typeName
  return (← realm r).stringAt names h

def stringLength (r : RealmId) (h : Handle) : Act (Except Fault Nat) := do
  return (← stringAt r h).map (·.utf8ByteSize)

/-- The first bytes of the text at a handle, as many as there is room for. -/
def decodeString (r : RealmId) (h : Handle) (room : Nat) : Act (Except Fault ByteArray) := do
  return (← stringAt r h).map fun s => s.toUTF8.extract 0 (min room s.utf8ByteSize)

/-- Reads the text at a handle and gives the handle back. The claim on a lowered string goes before
the thread is checked. -/
def loadString (r : RealmId) (h : Handle) : Act (Except Fault String) := do
  onRealm r fun x => ((), x.claimLowered h)
  assertOwner r
  let names := (← get).heap.typeName
  onRealm r (·.takeString names h)

/-- Encodes a value for the other side; a string or an object is retained. -/
def lowerRaw (r : RealmId) (v : Host.Value) : Act Raw := do
  match v with
  | .undefined => return .undefined
  | .null => return .null
  | .bool b => return .ofBool b
  | .number x => return .ofNumber x
  | .string _ => return .ofHandle .string (← retain r v)
  | .object id =>
    let kind := if (← get).heap.isCallable id then RawKind.function else .object
    return .ofHandle kind (← retain r v)

/-- The value that an encoding stands for. -/
def liftRaw (r : RealmId) (raw : Raw) : Act (Except Fault Host.Value) := do
  match raw.kind with
  | .undefined => return .ok .undefined
  | .null => return .ok .null
  | .boolean => return .ok (.bool (raw.int != 0))
  | .number => return .ok (.number raw.number)
  | .string | .object | .function => read r (.ofWire raw.int)

/-- The values of encodings, up to the first that has none. -/
def liftAll (r : RealmId) : List Raw → Act (Except Fault (List Host.Value))
  | [] => return .ok []
  | raw :: rest => do
    match ← liftRaw r raw with
    | .error e => return .error e
    | .ok v => return (← liftAll r rest).map (v :: ·)

/-- The object at a handle. -/
def objectAt (r : RealmId) (h : Handle) : Act (Except Fault ObjectId) := do
  match ← read r h with
  | .error e => return .error e
  | .ok (.object id) => return .ok id
  | .ok v => return .error (.valueMismatch "object" (← typeName v))

def property (o : ObjectId) (name : String) : Act Host.Value := return (← get).heap.property o name

def setProperty (o : ObjectId) (name : String) (v : Host.Value) : Act Unit :=
  modify fun w => { w with heap := w.heap.setProperty o name v }

/-- Encodes a property of the object at a handle. -/
def getRawProperty (r : RealmId) (h : Handle) (name : String) : Act (Except Fault Raw) := do
  match ← objectAt r h with
  | .error e => return .error e
  | .ok o => return .ok (← lowerRaw r (← property o name))

/-- Stores an encoded value in a property of the object at a handle. -/
def setRawProperty (r : RealmId) (h : Handle) (name : String) (raw : Raw) :
    Act (Except Fault Unit) := do
  match ← objectAt r h with
  | .error e => return .error e
  | .ok o =>
    match ← liftRaw r raw with
    | .error e => return .error e
    | .ok v =>
      setProperty o name v
      return .ok ()

/-- Registers a guest function. -/
def registerFunction (r : RealmId) (f : Guest.Function) : Act FunctionId :=
  onRealm r fun x =>
    let (id, closures) := x.closures.insert f
    (id, { x with closures })

/-- Forgets a guest function: whether it was known. -/
def freeFunction (r : RealmId) (id : FunctionId) : Act Bool := do
  sweep
  onRealm r fun x =>
    let (known, closures) := x.closures.remove id
    (known, { x with closures })

/-- The guest functions that a realm knows. -/
def functionCount (r : RealmId) : Act Nat := do
  sweep
  return (← realm r).closures.size

end Membrane.Act
