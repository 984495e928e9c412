import Membrane.Proofs.Strings.Course
import Membrane.World.Call
/-!
Lowering a string, reading one and calling an import, as changes of the realm. What an import runs
is set apart from the frame that is opened before it and closed after it.
-/

set_option autoImplicit false

namespace Membrane

/-- A realm after an import answered: a thrown value is in its slot. -/
def Realm.answered (x : Realm) : Except Host.Value Wire → Realm
  | .ok _ => x
  | .error v => x.throwValue v

theorem Realm.holdings_answered (x : Realm) (outcome : Except Host.Value Wire) :
    (x.answered outcome).holdings = x.holdings := by
  cases outcome <;> rfl

/-- The word that the caller of an import gets. -/
def Wire.answer : Except Host.Value Wire → Wire
  | .ok word => word
  | .error _ => .void

namespace Act

/-- What is run while the frame of an import is open. -/
def runImport (p : Performer) (r : RealmId) (name : String) (args : List Wire) :
    Act (Except Host.Value Wire) := do
  match (← get).runtime.import? name with
  | some i => (i.run r args).exec p
  | none => throwTypeError (name ++ " is not an imported function")

/-- What is done when an import has come to its end. -/
def endImport (r : RealmId) (outcome : Except Host.Value Wire) : Act Wire := do
  onRealm r fun x => ((), x.closeFrame)
  match outcome with
  | .ok word => return word
  | .error v =>
    setException r v
    return .void

variable (w : World)

theorem exec_lowerString (r : RealmId) (x : Realm) (present : w.realms[r]? = some x)
    (owner : x.owner = w.here) (text : String) :
    exec (lowerString r text) w =
      (.ok (x.lowerString text).1, w.withRealm r (x.lowerString text).2) := by
  simp only [lowerString, exec_bind, exec_assertOwner w r x present owner, goOn_ok,
    exec_onRealm w r x present]

theorem realm_withRealm (r : RealmId) (x y : Realm) (present : w.realms[r]? = some x) :
    (w.withRealm r y).realms[r]? = some y := by
  rw [World.realms_withRealm w r x y present, if_pos rfl]

theorem stringAt_claimLowered (x : Realm) (names : Host.Value → String) (h k : Handle) :
    (x.claimLowered h).stringAt names k = x.stringAt names k := by
  rw [Realm.stringAt, (x.claimLowered_kept h).1, Realm.stringAt]

theorem exec_loadString (r : RealmId) (x : Realm) (present : w.realms[r]? = some x)
    (owner : x.owner = w.here) (h : Handle) :
    exec (loadString r h) w =
      (.ok (x.stringAt w.heap.typeName h), w.withRealm r (x.read h)) := by
  have claimed := realm_withRealm w r x (x.claimLowered h) present
  have stays : (x.claimLowered h).owner = (w.withRealm r (x.claimLowered h)).here :=
    (x.claimLowered_kept h).2.trans owner
  simp only [loadString, exec_bind, exec_onRealm w r x present, goOn_ok,
    exec_assertOwner _ r _ claimed stays, exec_get, exec_onRealm _ r _ claimed,
    World.withRealm_withRealm, Realm.takeString_realm]
  rw [Realm.takeString, stringAt_claimLowered]
  rfl

/-- A read that comes to its end was one by the owner of the realm. -/
theorem exec_loadString_eq_ok (r : RealmId) (h : Handle) (w' : World) (a : Except Fault String)
    (done : exec (loadString r h) w = (.ok a, w')) :
    ∃ x, w.realms[r]? = some x ∧ x.owner = w.here ∧ w' = w.withRealm r (x.read h) := by
  obtain ⟨_, _, claimed, rest⟩ := exec_bind_eq_ok _ _ _ _ _ done
  obtain ⟨x, present, _, rfl⟩ := exec_onRealm_eq_ok w r _ _ _ claimed
  obtain ⟨_, _, asserted, _⟩ := exec_bind_eq_ok _ _ _ _ _ rest
  obtain ⟨_, y, there, owner⟩ := exec_assertOwner_eq_ok _ _ _ asserted
  obtain rfl := Option.some.inj ((realm_withRealm w r x _ present).symm.trans there)
  have owner : x.owner = w.here := (x.claimLowered_kept h).2.symm.trans owner
  rw [exec_loadString w r x present owner h] at done
  cases done
  exact ⟨x, present, owner, rfl⟩

theorem invokeImport_eq (p : Performer) (r : RealmId) (name : String) (args : List Wire) :
    invokeImport p r name args = (do
      assertOwner r
      onRealm r fun x => ((), x.openFrame)
      let outcome ← runImport p r name args
      endImport r outcome) := by
  unfold invokeImport runImport endImport
  simp only [bind_assoc]
  congr
  funext _
  congr
  funext _
  congr
  funext v
  cases v.runtime.import? name <;> rfl

theorem exec_endImport (r : RealmId) (x : Realm) (present : w.realms[r]? = some x)
    (outcome : Except Host.Value Wire) :
    exec (endImport r outcome) w =
      (.ok (.answer outcome), w.withRealm r (x.closeFrame.answered outcome)) := by
  have closed := realm_withRealm w r x x.closeFrame present
  simp only [endImport, exec_bind, exec_onRealm w r x present, goOn_ok]
  cases outcome with
  | ok word => rfl
  | error v =>
    simp only [exec_bind, setException, exec_onRealm _ r _ closed, goOn_ok,
      World.withRealm_withRealm, exec_pure]
    rfl

/-- A call runs its import in a frame with all that was pending. -/
theorem exec_invokeImport (p : Performer) (r : RealmId) (x : Realm)
    (present : w.realms[r]? = some x) (owner : x.owner = w.here) (name : String)
    (args : List Wire) :
    exec (invokeImport p r name args) w =
      goOn (exec (runImport p r name args) (w.withRealm r x.openFrame)) (endImport r) := by
  rw [invokeImport_eq]
  simp only [exec_bind, exec_assertOwner w r x present owner, goOn_ok, exec_onRealm w r x present]

theorem exec_invokeImport_eq_ok (p : Performer) (r : RealmId) (name : String) (args : List Wire)
    (w' : World) (word : Wire) (done : exec (invokeImport p r name args) w = (.ok word, w')) :
    ∃ x outcome u, w.realms[r]? = some x ∧ x.owner = w.here ∧
      exec (runImport p r name args) (w.withRealm r x.openFrame) = (.ok outcome, u) ∧
      exec (endImport r outcome) u = (.ok word, w') := by
  rw [invokeImport_eq] at done
  obtain ⟨_, _, asserted, rest⟩ := exec_bind_eq_ok _ _ _ _ _ done
  obtain ⟨rfl, x, present, owner⟩ := exec_assertOwner_eq_ok _ _ _ asserted
  obtain ⟨_, v, opened, rest⟩ := exec_bind_eq_ok _ _ _ _ _ rest
  rw [exec_onRealm _ r x present] at opened
  cases opened
  obtain ⟨outcome, u, run, last⟩ := exec_bind_eq_ok _ _ _ _ _ rest
  exact ⟨x, outcome, u, present, owner, run, last⟩

end Act

end Membrane
