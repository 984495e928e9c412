import Membrane.Boundary.Handle
import Membrane.Host.Value
import Std.Data.HashMap
/-!
Slots hold the entries of a reference table under their handles. Dense slots are an array whose
freed places are given out again, the last freed first. Sparse slots are a map whose handles go up
and are skipped while they are taken.
-/

set_option autoImplicit false

namespace Membrane

/-- A host value and how many references to it are held. -/
structure Entry where
  value : Host.Value
  refcount : UInt32
deriving DecidableEq, Repr

structure DenseSlots where
  slots : Array (Option Entry)
  free : List UInt32
  live : Nat

structure SparseSlots where
  entries : Std.HashMap UInt32 Entry
  next : UInt32

namespace DenseSlots

/-- No entries; the reserved places are there and never free. -/
def empty : DenseSlots := ⟨Array.replicate Handle.firstDynamic.toNat none, [], 0⟩

def get? (s : DenseSlots) (h : Handle) : Option Entry := (s.slots[h.raw.toNat]?).join

/-- Puts an entry in the place freed last, or behind the last place. -/
def allocate (s : DenseSlots) (e : Entry) : Handle × DenseSlots :=
  match s.free with
  | place :: rest =>
    (⟨place⟩,
      { slots := s.slots.setIfInBounds place.toNat (some e), free := rest, live := s.live + 1 })
  | [] =>
    (⟨.ofNat s.slots.size⟩, { s with slots := s.slots.push (some e), live := s.live + 1 })

/-- Puts an entry in a place of the caller's choice. -/
def install (s : DenseSlots) (h : Handle) (e : Entry) : DenseSlots :=
  let place := h.raw.toNat
  let slots := s.slots ++ Array.replicate (place + 1 - s.slots.size) none
  { s with
    slots := slots.setIfInBounds place (some e)
    live := if (s.get? h).isNone then s.live + 1 else s.live }

def set (s : DenseSlots) (h : Handle) (e : Entry) : DenseSlots :=
  { s with slots := s.slots.setIfInBounds h.raw.toNat (some e) }

/-- Takes the entry of a handle out; its place is free again unless it is reserved. -/
def remove (s : DenseSlots) (h : Handle) : DenseSlots :=
  match s.get? h with
  | none => s
  | some _ =>
    { slots := s.slots.setIfInBounds h.raw.toNat none
      free := if Handle.firstDynamic ≤ h.raw then h.raw :: s.free else s.free
      live := s.live - 1 }

end DenseSlots

namespace SparseSlots

def empty : SparseSlots := ⟨∅, Handle.firstDynamic⟩

def get? (s : SparseSlots) (h : Handle) : Option Entry := s.entries[h.raw]?

/-- The counter after a handle: past the greatest word the reserved handles are left out. -/
def successor (n : UInt32) : UInt32 := max (n + 1) Handle.firstDynamic

/-- The first handle behind one that is not taken, tried for at most `fuel` handles. -/
def nextFree (entries : Std.HashMap UInt32 Entry) : Nat → UInt32 → UInt32
  | 0, n => n
  | fuel + 1, n =>
    let m := successor n
    if entries.contains m then nextFree entries fuel m else m

/-- Puts an entry under the counter. One handle more than there are entries is tried for the next
counter, so one of them is not taken. -/
def allocate (s : SparseSlots) (e : Entry) : Handle × SparseSlots :=
  let next := nextFree s.entries (s.entries.size + 1) s.next
  (⟨s.next⟩, { entries := s.entries.insert s.next e, next })

def install (s : SparseSlots) (h : Handle) (e : Entry) : SparseSlots :=
  { s with entries := s.entries.insert h.raw e }

def remove (s : SparseSlots) (h : Handle) : SparseSlots :=
  { s with entries := s.entries.erase h.raw }

end SparseSlots

/-- Slots in one of the layouts. -/
inductive Slots where
  | dense (s : DenseSlots)
  | sparse (s : SparseSlots)

namespace Slots

def get? (s : Slots) (h : Handle) : Option Entry :=
  match s with
  | .dense s => s.get? h
  | .sparse s => s.get? h

/-- Stores an entry under a handle that was not taken. -/
def allocate (s : Slots) (e : Entry) : Handle × Slots :=
  match s with
  | .dense s => let (h, s) := s.allocate e; (h, .dense s)
  | .sparse s => let (h, s) := s.allocate e; (h, .sparse s)

/-- Stores an entry under a handle of the caller's choice. -/
def install (s : Slots) (h : Handle) (e : Entry) : Slots :=
  match s with
  | .dense s => .dense (s.install h e)
  | .sparse s => .sparse (s.install h e)

/-- Takes an entry out. -/
def remove (s : Slots) (h : Handle) : Slots :=
  match s with
  | .dense s => .dense (s.remove h)
  | .sparse s => .sparse (s.remove h)

/-- Replaces the refcount of the entry of a handle, if there is one. -/
def setRefcount (s : Slots) (h : Handle) (refcount : UInt32) : Slots :=
  match s.get? h with
  | none => s
  | some e =>
    match s with
    | .dense s => .dense (s.set h { e with refcount })
    | .sparse s => .sparse (s.install h { e with refcount })

/-- How many entries there are. -/
def size (s : Slots) : Nat :=
  match s with
  | .dense s => s.live
  | .sparse s => s.entries.size

end Slots

end Membrane
