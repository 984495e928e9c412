import Membrane.Proofs.Calls.Nested
/-!
Whatever foreign code asks for, every realm goes through some course meanwhile, and the thread that
runs stays the same. Each action keeps to that because the actions it is made of do.
-/

set_option autoImplicit false

namespace Membrane

open Realm (Course)

/-- From one world to a later one on the same thread every realm has gone through a course. -/
structure World.Along (w w' : World) : Prop where
  here : w'.here = w.here
  course : ∀ (r : RealmId) (x : Realm), w.realms[r]? = some x →
    ∃ t y, w'.realms[r]? = some y ∧ Course x t y

namespace World.Along

variable {w w' w'' : World}

theorem of_realms (here : w'.here = w.here) (same : w'.realms = w.realms) : w.Along w' :=
  ⟨here, fun _ x present => ⟨.none, x, same ▸ present, .aside rfl⟩⟩

theorem refl (w : World) : w.Along w := of_realms rfl rfl

theorem trans (first : w.Along w') (rest : w'.Along w'') : w.Along w'' := by
  refine ⟨rest.here.trans first.here, fun r x present => ?_⟩
  obtain ⟨s, y, between, before⟩ := first.course r x present
  obtain ⟨t, z, last, after⟩ := rest.course r y between
  exact ⟨_, z, last, before.andThen after⟩

theorem withRealm (r : RealmId) (x y : Realm) (t : Tally) (present : w.realms[r]? = some x)
    (course : Course x t y) : w.Along (w.withRealm r y) := by
  refine ⟨rfl, fun s z there => ?_⟩
  rw [World.realms_withRealm w r x y present]
  split
  · next same =>
    subst same
    obtain rfl := Option.some.inj (present.symm.trans there)
    exact ⟨t, y, rfl, course⟩
  · exact ⟨.none, z, there, .aside rfl⟩

end World.Along

/-- Whatever runs no foreign code takes every realm through a course. -/
instance : World.Lasting World.Along where
  refl := World.Along.refl
  trans := World.Along.trans
  aside same := World.Along.of_realms same.here same.realms
  move := by
    intro w r x y present moves
    cases moves with
    | retain v => exact .withRealm r x _ _ present (.retain x v)
    | copy _ h done =>
      obtain ⟨t, retained, rfl⟩ := x.retainHandle_eq_ok y h done
      exact .withRealm r x _ _ present (.copy x h retained)
    | release h =>
      rw [Realm.releaseQuietly_eq]
      exact .withRealm r x _ _ present (.release x h)
    | lower text => exact .withRealm r x _ _ present (.lower x text)
    | read h => exact .withRealm r x _ _ present (.read x h)
    | note finalizers => exact .withRealm r x _ .none present (.aside rfl)
    | forget id => exact .withRealm r x _ .none present (.aside rfl)
  sweep := by
    intro w
    refine ⟨w.here_sweep, fun r x present => ?_⟩
    obtain ⟨closures, swept⟩ := w.realms_sweep r x present
    exact ⟨.none, _, swept, .aside rfl⟩

namespace Act

variable {α β : Type}

/-- While an action is carried out, every realm goes through a course. -/
def OnCourse (act : Act α) : Prop := Keeps World.Along act

/-- A call goes through the course of its import, inside a frame. -/
theorem along_framed {p : Performer} {r : RealmId} {name : String} {args : List Wire}
    (runs : OnCourse (runImport p r name args)) : OnCourse (invokeImport p r name args) := by
  intro w w' word done
  obtain ⟨x, outcome, u, present, owner, run, last⟩ :=
    exec_invokeImport_eq_ok w p r name args w' word done
  have opened := realm_withRealm w r x x.openFrame present
  have inside := runs _ u outcome run
  obtain ⟨t, z, there, course⟩ := inside.course r _ opened
  rw [exec_endImport u r z there] at last
  cases last
  refine ⟨inside.here, fun s y before => ?_⟩
  rw [World.realms_withRealm u r z _ there]
  split
  · next same =>
    subst same
    obtain rfl := Option.some.inj (present.symm.trans before)
    exact ⟨_, _, rfl, course.call.andThen (.aside (z.closeFrame.holdings_answered outcome))⟩
  · next other =>
    apply inside.course s y
    rw [World.realms_withRealm w r x _ present, if_neg other]
    exact before

/-- Calls take every realm through a course. -/
instance : World.Enduring World.Along where
  slot {_ r x} present _ := .withRealm r x _ .none present (.aside rfl)
  framed := along_framed

namespace OnCourse

theorem code {p : Performer} (answers : ∀ request, OnCourse (p request)) (c : Code α) :
    OnCourse (c.exec p) := Keeps.code answers c

theorem runImport {p : Performer} (answers : ∀ request, OnCourse (p request)) (r : RealmId)
    (name : String) (args : List Wire) : OnCourse (runImport p r name args) :=
  Keeps.runImport answers r name args

theorem performer (depth : Nat) (request : Request) : OnCourse (performer depth request) :=
  Keeps.performer depth request

end OnCourse

/-- When a call is over, those that were running before it own what they owned. What its import did
not read of the strings that were pending when it began is given back. -/
theorem frames_of_call (depth : Nat) (r : RealmId) (name : String) (args : List Wire)
    (w w' : World) (word : Wire) (x : Realm) (present : w.realms[r]? = some x)
    (called : exec (invokeImport (performer depth) r name args) w = (.ok word, w')) :
    ∃ outcome u z y,
      exec (runImport (performer depth) r name args) (w.withRealm r x.openFrame) =
        (.ok outcome, u) ∧
      u.realms[r]? = some z ∧ z.frames = z.innermost :: x.frames ∧
      z.innermost.Subperm x.lowered ∧ w'.realms[r]? = some y ∧ y.frames = x.frames ∧
      y.holdings = z.closeFrame.holdings := by
  obtain ⟨x', outcome, u, there, _, run, last⟩ :=
    exec_invokeImport_eq_ok w (performer depth) r name args w' word called
  obtain rfl := Option.some.inj (present.symm.trans there)
  have opened := realm_withRealm w r x x.openFrame present
  obtain ⟨t, z, final, course⟩ :=
    (OnCourse.runImport (OnCourse.performer depth) r name args _ u outcome run).course r _ opened
  obtain ⟨frames, less, closed⟩ := course.frames_call
  rw [exec_endImport u r z final] at last
  cases last
  have same := z.closeFrame.holdings_answered outcome
  exact ⟨outcome, u, z, _, run, final, frames, less, realm_withRealm u r z _ final,
    (congrArg Holdings.frames same).trans closed, same⟩

end Act

end Membrane
