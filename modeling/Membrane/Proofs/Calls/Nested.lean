import Membrane.Proofs.Calls.Keeps
/-!
Calls across the boundary, and the code that they run. Beside what runs no foreign code, a call changes
the slot of what was thrown and opens a frame around each import. So calls keep to every relation
between worlds that these keep to, however deep they are nested: each call does because the code that
it runs does, by induction on the depth.
-/

set_option autoImplicit false

namespace Membrane

/-- A relation between a world and later ones that calls keep to as well. -/
class World.Enduring (R : World → World → Prop) : Prop extends World.Lasting R where
  slot {w : World} {r : RealmId} {x : Realm} (present : w.realms[r]? = some x)
    (thrown : Option Host.Value) : R w (w.withRealm r { x with exception := thrown })
  /-- The frame of an import is open while the import runs. -/
  framed {p : Performer} {r : RealmId} {name : String} {args : List Wire}
    (inside : Act.Keeps R (Act.runImport p r name args)) :
    Act.Keeps R (Act.invokeImport p r name args)

namespace Act.Keeps

open World

variable {α : Type} {R : World → World → Prop} [Enduring R]

/-! The slot of what was thrown -/

theorem setException (r : RealmId) (v : Host.Value) : Keeps R (setException r v) := by
  intro w w' a done
  obtain ⟨x, present, _, rfl⟩ := exec_onRealm_eq_ok w r _ w' a done
  exact Enduring.slot present (some v)

theorem takeException (r : RealmId) : Keeps R (takeException r) := by
  intro w w' a done
  obtain ⟨x, present, _, rfl⟩ := exec_onRealm_eq_ok w r _ w' a done
  exact Enduring.slot present none

theorem checkException (r : RealmId) : Keeps R (checkException r) := by
  refine .bind (.takeException r) fun thrown => ?_
  split <;> exact .pure _

theorem finish (r : RealmId) (outcome : Except Host.Value Host.Value) :
    Keeps R (finish r outcome) := by
  cases outcome with
  | ok v => exact .bind (.lowerRaw r v) fun _ => .pure _
  | error v =>
    refine .bind (.setException r v) fun _ => ?_
    exact .bind (.checkException r) fun _ => .pure _

/-! Foreign code, its requests answered by a performer that keeps to the relation -/

section

variable {p : Performer} (answers : ∀ request, Keeps R (p request))

include answers

theorem code (c : Code α) : Keeps R (c.exec p) := by
  induction c with
  | done a => exact .pure a
  | ask request next ih => exact .bind (answers request) ih

theorem runImport (r : RealmId) (name : String) (args : List Wire) :
    Keeps R (runImport p r name args) := by
  refine .bind .get fun w => ?_
  split
  · exact .code answers _
  · exact .throwTypeError _

theorem callFunction (r : RealmId) (id : FunctionId) (args : List Raw) :
    Keeps R (callFunction p r id args) := by
  refine .bind (.assertOwner r) fun _ => .bind .sweep fun _ => .bind (.realm r) fun x => ?_
  cases x.closures.get? id with
  | none => exact .throwTypeError _
  | some f =>
    refine .bind (.liftGuests r args []) fun lifted => ?_
    cases lifted with
    | error e => exact .throwFault e
    | ok values =>
      refine .bind (.onHalt (.pinning _ (.code answers _))) fun outcome => ?_
      refine .bind (.forM _ Keeps.releaseGuestQuietly values) fun _ => ?_
      cases outcome with
      | error v => exact .pure _
      | ok v => exact .bind (.encodeResult r v) fun _ => .pure _

theorem callThroughObject (r : RealmId) (id : FunctionId) (args : List Host.Value) :
    Keeps R (callThroughObject p r id args) := by
  refine .bind .get fun w => ?_
  split
  · exact .bind (.onHeap _) fun _ => .pure _
  · refine .bind (.mapM _ (Keeps.lowerRaw r) args) fun raws => ?_
    refine .bind (.callFunction answers r id raws) fun outcome => ?_
    cases outcome with
    | error v => exact .pure _
    | ok raw =>
      refine .bind (.liftRaw r raw) fun lifted => ?_
      cases lifted with
      | error e => exact .throwFault e
      | ok v =>
        cases raw.handle? with
        | none => exact .pure _
        | some h => exact .bind (.releaseQuietly r h) fun _ => .pure _

theorem callObject (f : ObjectId) (this : Host.Value) (args : List Host.Value) :
    Keeps R (callObject p f this args) := by
  refine .bind (.fetch _) fun o => .pinning _ ?_
  split
  · exact .code answers _
  · exact .callThroughObject answers _ _ _
  · exact .throwTypeError _

theorem constructObject (f : ObjectId) (args : List Host.Value) :
    Keeps R (constructObject p f args) := by
  refine .bind (.fetch _) fun o => .pinning _ ?_
  split
  · exact .code answers _
  · exact .throwTypeError _

theorem reflectObject (o : ObjectId) (how : Reflection) (args : List Host.Value) :
    Keeps R (reflectObject p o how args) := by
  cases how with
  | call => exact .callObject answers o _ args
  | construct => exact .constructObject answers o args
  | method name =>
    refine .bind (.property o name) fun v => ?_
    cases v with
    | object f => exact .callObject answers f _ args
    | undefined | null | bool | number | string => exact .throwTypeError _

theorem reflect (r : RealmId) (target : Handle) (how : Reflection) (args : List Raw) :
    Keeps R (reflect p r target how args) := by
  refine .bind (.objectAt r target) fun found => ?_
  cases found with
  | error e => exact .pure _
  | ok o =>
    refine .bind (.liftAll r args) fun lifted => ?_
    cases lifted with
    | error e => exact .pure _
    | ok values => exact .bind (.reflectObject answers o how values) fun outcome => .finish r outcome

theorem reflectGuest (target : Guest.Value) (how : Reflection) (args : List Guest.Value) :
    Keeps R (reflectGuest p target how args) := by
  unfold Act.reflectGuest
  cases targetOf target with
  | error e => exact .pure _
  | ok ref =>
    refine .bind (.withEncoded ref.realm args _ fun raws => .reflect answers _ _ how raws)
      fun result => ?_
    cases result with
    | error e => exact .pure _
    | ok raw => exact .liftGuest ref.realm raw

theorem perform (request : Request) : Keeps R (perform p request) := by
  refine .handing _ ?_
  cases request with
  | apply f this args => exact .callObject answers f this args
  | construct f args => exact .constructObject answers f args
  | invokeImport r name args => exact Enduring.framed (.runImport answers r name args)
  | takeException r => exact .takeException r
  | reflect r target how args => exact .reflect answers r target how args
  | reflectGuest target how args => exact .reflectGuest answers target how args
  | _ => exact Keeps.answer p _ rfl

end

/-- Calls inside one another go as deep as they may. -/
theorem performer (depth : Nat) (request : Request) : Keeps R (performer depth request) := by
  induction depth generalizing request with
  | zero => exact .throw _
  | succ depth ih => exact .perform ih request

end Act.Keeps

end Membrane
