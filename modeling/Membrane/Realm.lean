import Membrane.Code
import Membrane.Feature
import Membrane.Loop.Executor
import Membrane.Loop.EventLoop
import Membrane.Table.RefTable
/-!
A realm is the host environment of one thread: its reference table, the slot for a thrown value, the
guest functions known to the host, and the references that wait to be given back. Strings that are
lowered for a call belong to the next import that is called; it opens a frame that owns them, and
what is left in the frame when the import is done is given back.
-/

set_option autoImplicit false

namespace Membrane

/-- The guest functions known to the host. Numbers are never used twice. -/
structure ClosureTable where
  next : UInt32
  entries : List (FunctionId × Guest.Function)

namespace ClosureTable

def empty : ClosureTable := ⟨1, []⟩

def get? (t : ClosureTable) (id : FunctionId) : Option Guest.Function := t.entries.lookup id

def without (id : FunctionId) (entries : List (FunctionId × Guest.Function)) :
    List (FunctionId × Guest.Function) :=
  entries.filter fun (i, _) => i != id

/-- Registers a function under the next number. -/
def insert (t : ClosureTable) (f : Guest.Function) : FunctionId × ClosureTable :=
  (⟨t.next⟩, ⟨t.next + 1, without ⟨t.next⟩ t.entries ++ [(⟨t.next⟩, f)]⟩)

/-- Forgets a function: whether it was known. -/
def remove (t : ClosureTable) (id : FunctionId) : Bool × ClosureTable :=
  ((t.get? id).isSome, { t with entries := without id t.entries })

def size (t : ClosureTable) : Nat := t.entries.length

end ClosureTable

structure Realm where
  thread : ThreadIndex
  owner : ThreadId
  loop : LoopId
  features : Features
  globalObject : ObjectId
  table : RefTable
  exception : Option Host.Value
  /-- Handles to be given back by the next collection. -/
  finalizers : List Handle
  /-- Strings lowered for the next import that is called. -/
  lowered : List Handle
  /-- The strings owned by the imports that are running, the innermost first. -/
  frames : List (List Handle)
  closures : ClosureTable

namespace Realm

/-- A realm that holds nothing but its global object. -/
def create (thread : ThreadIndex) (owner : ThreadId) (loop : LoopId) (features : Features)
    (layout : Layout) (globalObject : ObjectId) : Realm :=
  { thread, owner, loop, features, globalObject
    table := .create layout (.object globalObject)
    exception := none, finalizers := [], lowered := [], frames := [], closures := .empty }

def retain (r : Realm) (v : Host.Value) : Handle × Realm :=
  let (h, table) := r.table.retain v
  (h, { r with table })

def retainHandle (r : Realm) (h : Handle) : Except Fault Realm :=
  (r.table.retainHandle h).map fun table => { r with table }

def release (r : Realm) (h : Handle) : Except Fault Realm :=
  (r.table.release h).map fun table => { r with table }

/-- Gives a reference back where nobody looks at a failure. -/
def releaseQuietly (r : Realm) (h : Handle) : Realm :=
  match r.release h with
  | .ok r => r
  | .error _ => r

/-- Notes a handle for the next collection: whether it is the first one. -/
def scheduleFinalizer (r : Realm) (h : Handle) : Bool × Realm :=
  (r.finalizers.isEmpty, { r with finalizers := r.finalizers ++ [h] })

/-- Gives back every handle that was noted: how many of them were live. -/
def collect (r : Realm) : Nat × Realm :=
  r.finalizers.foldl
    (fun (n, r) h =>
      match r.release h with
      | .ok r => (n + 1, r)
      | .error _ => (n, r))
    (0, { r with finalizers := [] })

/-- Retains a string for the next import that is called. -/
def lowerString (r : Realm) (text : String) : Handle × Realm :=
  let (h, r) := r.retain (.string text)
  (h, { r with lowered := r.lowered ++ [h] })

/-- Removes the item at a place and puts the last item there. -/
def swapRemove (items : List Handle) (place : Nat) : List Handle :=
  match items.getLast? with
  | none => []
  | some last => (items.set place last).dropLast

/-- Removes the first occurrence of a handle. -/
def claimFrom (items : List Handle) (h : Handle) : List Handle :=
  match items.idxOf? h with
  | some place => swapRemove items place
  | none => items

/-- A string that is read is no longer to be given back by the import it was lowered for: the
innermost one if it owns the string, otherwise the next one. -/
def claimLowered (r : Realm) (h : Handle) : Realm :=
  match r.frames with
  | frame :: outer =>
    if h ∈ frame then { r with frames := claimFrom frame h :: outer }
    else { r with lowered := claimFrom r.lowered h }
  | [] => { r with lowered := claimFrom r.lowered h }

/-- The text at a handle, given the names of types. -/
def stringAt (r : Realm) (typeName : Host.Value → String) (h : Handle) : Except Fault String :=
  match r.table.get h with
  | .ok (.string s) => .ok s
  | .ok v => .error (.valueMismatch "string" (typeName v))
  | .error e => .error e

/-- Reads the text at a handle and gives the handle back, whatever it holds. -/
def takeString (r : Realm) (typeName : Host.Value → String) (h : Handle) :
    Except Fault String × Realm :=
  (r.stringAt typeName h, if r.table.contains h then r.releaseQuietly h else r)

/-- An import begins: it owns the strings lowered so far. -/
def openFrame (r : Realm) : Realm :=
  { r with frames := r.lowered :: r.frames, lowered := [] }

/-- An import is done: what it owns is given back. -/
def closeFrame (r : Realm) : Realm :=
  match r.frames with
  | [] => r
  | frame :: outer => frame.foldl releaseQuietly { r with frames := outer }

def throwValue (r : Realm) (v : Host.Value) : Realm := { r with exception := some v }

def takeException (r : Realm) : Option Host.Value × Realm :=
  (r.exception, { r with exception := none })

def exactText (r : Realm) : String :=
  "Realm \x7b thread: " ++ r.thread.exactText ++ ", features: " ++ r.features.text ++ ", .. \x7d"

end Realm

end Membrane
