import Membrane.Host.Heap
import Membrane.Json.Basic
/-!
Documents as host values and back. An array becomes an object with index keys and a length. The way
back unfolds the objects that are reached, so it has a result only where none of them is reached
from itself.
-/

set_option autoImplicit false

namespace Membrane.Host.Heap

def arrayClass : String := "Array"

mutual

/-- The host value of a document; every object of it is a fresh one. -/
def ofJson (heap : Heap) : Json → Value × Heap
  | .null => (.null, heap)
  | .bool b => (.bool b, heap)
  | .number n => (.number n.toNumber, heap)
  | .string s => (.string s, heap)
  | .array items =>
    let (id, heap) := heap.alloc (.plain (some arrayClass))
    let heap := ofItems heap id 0 items
    (.object id, heap.setProperty id "length" (.number (.ofNat items.length)))
  | .object fields =>
    let (id, heap) := heap.alloc (.plain none)
    (.object id, ofFields heap id fields)

/-- Stores the items of an array under their places. -/
def ofItems (heap : Heap) (id : ObjectId) (place : Nat) : List Json → Heap
  | [] => heap
  | item :: rest =>
    let (v, heap) := ofJson heap item
    ofItems (heap.setProperty id (toString place) v) id (place + 1) rest

/-- Stores the fields of an object. -/
def ofFields (heap : Heap) (id : ObjectId) : List (String × Json) → Heap
  | [] => heap
  | (key, value) :: rest =>
    let (v, heap) := ofJson heap value
    ofFields (heap.setProperty id key v) id rest

end

/-- The document of a value whose objects are nested at most `depth` deep. Functions and what is
undefined or no finite number become null. -/
def unfold (heap : Heap) : Nat → Value → Option Json
  | _, .undefined | _, .null => some .null
  | _, .bool b => some (.bool b)
  | _, .number x => some (if x.isFinite then .number (.real x) else .null)
  | _, .string s => some (.string s)
  | depth, .object id =>
    match heap.get? id with
    | none => some .null
    | some o =>
      if o.kind.isCallable then some .null
      else match depth with
        | 0 => none
        | depth + 1 =>
          let field (p : String × Value) : Option (String × Json) :=
            (heap.unfold depth p.2).map fun j => (p.1, j)
          (o.properties.mapM field).map .object

/-- The document of a value, if its unfolding ends. Objects that are nested deeper than there are
objects contain themselves. -/
def toJson? (heap : Heap) (v : Value) : Option Json := heap.unfold heap.objects.size v

end Membrane.Host.Heap
