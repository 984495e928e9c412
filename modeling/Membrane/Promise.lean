import Membrane.Host.Heap
import Membrane.Loop.Executor
/-!
Promises of the host. A promise is settled once. Reactions never run inside a call: those that wait
are handed over in order when the promise is settled, later ones at once, each to be queued as a
microtask of the promise's loop.
-/

set_option autoImplicit false

namespace Membrane

/-- What a promise is settled with: a reason or a value. -/
abbrev Outcome := Except Host.Value Host.Value

inductive PromiseState (ρ : Type) where
  /-- Not settled; the reactions in the order they were registered. -/
  | pending (reactions : List ρ)
  | settled (outcome : Outcome)

structure Promise (ρ : Type) where
  loop : LoopId
  state : PromiseState ρ

namespace Promise

variable {ρ : Type}

def create (loop : LoopId) : Promise ρ := ⟨loop, .pending []⟩

/-- Settles a promise: the reactions that are to be queued, or nothing if it was settled before. -/
def settle? (p : Promise ρ) (outcome : Outcome) : Option (List ρ × Promise ρ) :=
  match p.state with
  | .pending reactions => some (reactions, { p with state := .settled outcome })
  | .settled _ => none

/-- Registers a reaction: the outcome it is to be queued with, if there is one already. -/
def register (p : Promise ρ) (reaction : ρ) : Option Outcome × Promise ρ :=
  match p.state with
  | .pending reactions => (none, { p with state := .pending (reactions ++ [reaction]) })
  | .settled outcome => (some outcome, p)

def outcome? (p : Promise ρ) : Option Outcome :=
  match p.state with
  | .pending _ => none
  | .settled outcome => some outcome

/-- The reactions that wait. -/
def reactions (p : Promise ρ) : List ρ :=
  match p.state with
  | .pending reactions => reactions
  | .settled _ => []

/-- The text of a promise, given the text of values. -/
def textWith (valueText : Host.Value → String) (p : Promise ρ) : String :=
  match p.state with
  | .pending _ => "HostPromise(<pending>)"
  | .settled (.ok v) => "HostPromise(fulfilled: " ++ valueText v ++ ")"
  | .settled (.error v) => "HostPromise(rejected: " ++ valueText v ++ ")"

end Promise

end Membrane
