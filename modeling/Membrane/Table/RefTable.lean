import Membrane.Config
import Membrane.Fault
import Membrane.Table.Slots
/-!
The table of host values that a guest refers to. A value has at most one live handle, found through
its key, and a count of the references that are held to it. The global object stands at handle 1 and
the table itself holds one reference to it, so it never leaves.
-/

set_option autoImplicit false

namespace Membrane

structure RefTable where
  slots : Slots
  index : Std.HashMap Host.Key Handle
  layout : Layout

namespace RefTable

/-- A table that holds the global object alone. -/
def create (layout : Layout) (globalObject : Host.Value) : RefTable :=
  let slots := match layout with
    | .dense => Slots.dense .empty
    | .sparse => Slots.sparse .empty
  { slots := slots.install .globalObject ⟨globalObject, 1⟩
    index := (∅ : Std.HashMap Host.Key Handle).insert globalObject.key .globalObject
    layout }

def find? (t : RefTable) (h : Handle) : Option Entry := t.slots.get? h

/-- Adds a reference to a live handle. -/
private def increment (t : RefTable) (h : Handle) (e : Entry) : RefTable :=
  { t with slots := t.slots.setRefcount h (e.refcount + 1) }

/-- The handle of a value with one reference more: the one it has, or a fresh one. -/
def retain (t : RefTable) (v : Host.Value) : Handle × RefTable :=
  match t.index[v.key]?.bind fun h => (t.find? h).map (h, ·) with
  | some (h, e) => (h, t.increment h e)
  | none =>
    let (h, slots) := t.slots.allocate ⟨v, 1⟩
    (h, { t with slots, index := t.index.insert v.key h })

/-- Adds a reference to a handle. -/
def retainHandle (t : RefTable) (h : Handle) : Except Fault RefTable :=
  match t.find? h with
  | some e => .ok (t.increment h e)
  | none => .error (.invalidReference h .retain)

/-- Gives a reference back. The last one takes the handle out of use; the global object keeps
one. -/
def release (t : RefTable) (h : Handle) : Except Fault RefTable :=
  match t.find? h with
  | none => .error (.invalidReference h .release)
  | some e =>
    if 1 < e.refcount ∨ h = .globalObject then
      .ok { t with slots := t.slots.setRefcount h (if 1 < e.refcount then e.refcount - 1 else 1) }
    else
      .ok { t with
        slots := t.slots.remove h
        index := if t.index[e.value.key]? = some h then t.index.erase e.value.key else t.index }

/-- The value of a handle. -/
def get (t : RefTable) (h : Handle) : Except Fault Host.Value :=
  match t.find? h with
  | some e => .ok e.value
  | none => .error (.invalidReference h .read)

def refcount? (t : RefTable) (h : Handle) : Option UInt32 := (t.find? h).map (·.refcount)

def contains (t : RefTable) (h : Handle) : Bool := (t.find? h).isSome

/-- The handle of a value, if it has one. -/
def lookup? (t : RefTable) (v : Host.Value) : Option Handle := t.index[v.key]?

/-- How many handles are live. -/
def liveCount (t : RefTable) : Nat := t.slots.size

def exactText (t : RefTable) : String :=
  "ObjectSpace \x7b repr: " ++ t.layout.exactText ++ ", live: " ++ toString t.liveCount ++ " \x7d"

/-- The values that the table holds. -/
def values (t : RefTable) : List Host.Value :=
  match t.slots with
  | .dense s => s.slots.toList.filterMap fun e => e.map (·.value)
  | .sparse s => s.entries.toList.map fun (_, e) => e.value

end RefTable

end Membrane
