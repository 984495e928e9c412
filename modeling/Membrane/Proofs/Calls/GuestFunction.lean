import Membrane.Proofs.Calls.Keeps
/-!
Calls of guest functions: how a number is looked up, and what is run of the function it stands for.
-/

set_option autoImplicit false

namespace Membrane

namespace World

variable (w : World)

/-- The guest function that a number stands for, when those without a function object are gone. -/
def guestFunction? (r : RealmId) (id : FunctionId) : Option Guest.Function :=
  (w.sweep.realms[r]?).bind (·.closures.get? id)

end World

namespace Act

open World

theorem exec_throwTypeError {α : Type} (message : String) (w : World) :
    ∃ v w', exec (throwTypeError message : Act (Except Host.Value α)) w = (.ok (.error v), w') ∧
      w'.realms = w.realms := ⟨_, _, rfl, rfl⟩

theorem exec_throwFault {α : Type} (e : Fault) (w : World) :
    ∃ v w', exec (throwFault e : Act (Except Host.Value α)) w = (.ok (.error v), w') ∧
      w'.realms = w.realms := ⟨_, _, rfl, rfl⟩

variable (p : Performer) (r : RealmId)

/-- What is run of a guest function, given its arguments. -/
def runBody (f : Guest.Function) (values : List Guest.Value) :
    Act (Except Host.Value Guest.Value) :=
  onHalt (pinning f.holds ((f.run values).exec p)) (values.forM dropGuest)

variable {p r}

/-- A call from the lookup of its function. -/
theorem exec_callFunction (id : FunctionId) (raws : List Raw) (w : World) (x : Realm)
    (present : w.realms[r]? = some x) (owner : x.owner = w.here) :
    exec (callFunction p r id raws) w =
      match w.guestFunction? r id with
      | none => exec (throwTypeError (id.text ++ " was called after it was released")) w.sweep
      | some f =>
        goOn (exec (liftGuests r [] raws) w.sweep) fun
          | .error e => throwFault e
          | .ok values => do
            let outcome ← runBody p f values
            values.forM releaseGuestQuietly
            match outcome with
            | .error v => return .error v
            | .ok v => return .ok (← encodeResult r v) := by
  obtain ⟨closures, swept⟩ := w.realms_sweep r x present
  have found : w.guestFunction? r id = closures.get? id := by
    rw [guestFunction?, swept, Option.bind_some]
  have ran : exec sweep w = (.ok (), w.sweep) := rfl
  rw [callFunction, exec_bind, exec_assertOwner w r x present owner, goOn_ok, exec_bind, ran,
    goOn_ok, exec_bind, exec_realm _ r _ swept, goOn_ok, found]
  cases closures.get? id with
  | none => rfl
  | some f =>
    rw [exec_bind]
    rfl

end Act

end Membrane
