import Membrane.Session.Realms
import Membrane.World.Thread
/-!
Sessions that work on one reference table, or on bare slots, without a runtime around them.
-/

set_option autoImplicit false

namespace Membrane.Session

inductive TableStep where
  | assign (name : String) (v : Expr)
  | retain (v : Expr)
  | retainHandle (h : Handle)
  | release (h : Handle)
  | read (h : Handle)
  | refcount (h : Handle)
  | contains (h : Handle)
  | lookup (v : Expr)
  /-- Retains a number of fresh objects. -/
  | fill (count : Nat)
  | text

namespace TableStep

/-- Retains fresh objects one after the other. -/
def retainFresh : Nat → RefTable → Act (List Handle × RefTable)
  | 0, t => return ([], t)
  | count + 1, t => do
    let (h, t) := t.retain (.object (← Act.newObject (.plain none)))
    let (rest, t) ← retainFresh count t
    return (h :: rest, t)

/-- Answers with the table that a change leads to; a fault leaves the table as it is. -/
def change (t : RefTable) (result : Except Fault RefTable) (answer : Answer) :
    Act (Answer × RefTable) := do
  match result with
  | .ok t => return (answer, t)
  | .error e => return (.fault (← Act.seeFault e), t)

def perform (t : RefTable) : TableStep → Act (Answer × RefTable)
  | .assign name v => do
    Act.nameValue name (← v.eval)
    return (.nothing, t)
  | .retain v => do
    let (h, t) := t.retain (← v.eval)
    return (answerHandle h, t)
  | .retainHandle h => change t (t.retainHandle h) (answerHandle h)
  | .release h => change t (t.release h) .nothing
  | .read h => do return (← Act.answerWith (t.get h) Act.answerValue, t)
  | .refcount h => return (.count ((t.refcount? h).map (·.toNat)), t)
  | .contains h => return (.flag (t.contains h), t)
  | .lookup v => do return (.count ((t.lookup? (← v.eval)).map (·.raw.toNat)), t)
  | .fill count => do
    let (handles, t) ← retainFresh count t
    return (.handles handles, t)
  | .text => return (.text (t.exactText ++ " " ++ t.layout.name), t)

/-- Performs steps: for each its answer and how many handles are live after it. -/
def performAll (t : RefTable) : List TableStep → Act (List (Answer × Nat))
  | [] => return []
  | s :: rest => do
    let (answer, t) ← s.perform t
    return (answer, t.liveCount) :: (← performAll t rest)

/-- What comes of steps on a table whose global object is given or a plain one. -/
def run (layout : Layout) (capacity : Nat) (globalObject : Option Expr) (steps : List TableStep) :
    Act (List (Answer × Nat)) := do
  Act.assertRoom layout capacity
  let v ← match globalObject with
    | some e => e.eval
    | none => pure (.object (← Act.newObject (.plain (some Act.globalClass))))
  performAll (.create layout v) steps

end TableStep

inductive SlotStep where
  | allocate (v : Expr) (refcount : UInt32)
  | install (h : Handle) (v : Expr) (refcount : UInt32)
  | get (h : Handle)
  /-- Counts one more reference to an entry. -/
  | bump (h : Handle)
  | remove (h : Handle)

namespace SlotStep

/-- Answers with the entry of a handle. -/
def answerEntry (e : Option Entry) : Act Answer := do
  match e with
  | some e => return .entry (some (← Act.see e.value, e.refcount))
  | none => return .entry none

def perform (s : Slots) : SlotStep → Act (Answer × Slots)
  | .allocate v refcount => do
    let (h, s) := s.allocate ⟨← v.eval, refcount⟩
    return (answerHandle h, s)
  | .install h v refcount => do return (.nothing, s.install h ⟨← v.eval, refcount⟩)
  | .get h => do return (← answerEntry (s.get? h), s)
  | .bump h =>
    match s.get? h with
    | some e => return (.count (some (e.refcount + 1).toNat), s.setRefcount h (e.refcount + 1))
    | none => return (.count none, s)
  | .remove h => do return (← answerEntry (s.get? h), s.remove h)

/-- Performs steps: for each its answer and how many entries there are after it. -/
def performAll (s : Slots) : List SlotStep → Act (List (Answer × Nat))
  | [] => return []
  | step :: rest => do
    let (answer, s) ← step.perform s
    return (answer, s.size) :: (← performAll s rest)

/-- What comes of steps on empty slots. -/
def run (layout : Layout) (capacity : Nat) (steps : List SlotStep) :
    Act (List (Answer × Nat)) := do
  Act.assertRoom layout capacity
  performAll (match layout with
    | .dense => .dense .empty
    | .sparse => .sparse .empty) steps

end SlotStep

end Membrane.Session
