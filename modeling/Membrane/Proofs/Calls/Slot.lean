import Membrane.Proofs.Calls.GuestFunction
import Membrane.World.Convert
/-!
The slot of a realm that holds what was thrown. Code that the runtime calls is the only thing that
can leave something in it: each call here leaves the slot of a realm empty when the code that it
begins to run does.
-/

set_option autoImplicit false

namespace Membrane

namespace World

/-- What was thrown in a realm and not taken. -/
def slot (w : World) (r : RealmId) : Option Host.Value := (w.realms[r]?).bind (·.exception)

theorem slot_of_realm (w : World) (r : RealmId) (x : Realm) (present : w.realms[r]? = some x) :
    w.slot r = x.exception := by
  rw [slot, present, Option.bind_some]

theorem slot_withRealm (w : World) (s : RealmId) (x y : Realm) (present : w.realms[s]? = some x)
    (r : RealmId) : (w.withRealm s y).slot r = if r = s then y.exception else w.slot r := by
  rw [slot, realms_withRealm w s x y present]
  split
  · rfl
  · rfl

theorem slot_sweep (w : World) (r : RealmId) : w.sweep.slot r = w.slot r := by
  cases present : w.realms[r]? with
  | some x =>
    obtain ⟨closures, swept⟩ := w.realms_sweep r x present
    rw [slot, swept, slot, present]
    rfl
  | none =>
    have gone : w.sweep.realms[r]? = none := by
      unfold sweep
      split
      · exact present
      · simp only [Array.getElem?_mapIdx, present, Option.map_none]
    rw [slot, gone, slot, present]

/-- An empty slot stays empty. -/
def Spares (r : RealmId) (w w' : World) : Prop := w.slot r = none → w'.slot r = none

/-- Whatever runs no foreign code leaves an empty slot empty. -/
instance (r : RealmId) : Lasting (Spares r) where
  refl _ := id
  trans first rest := rest ∘ first
  aside := by
    intro w w' same empty
    rwa [slot, same.realms]
  move := by
    intro w s x y present moves empty
    have same : y.exception = x.exception := by
      cases moves with
      | copy _ h done =>
        obtain ⟨t, _, rfl⟩ := x.retainHandle_eq_ok y h done
        rfl
      | release h => rw [Realm.releaseQuietly_eq]
      | read h =>
        obtain ⟨lowered, frames, claimed⟩ := x.claimLowered_eq h
        rw [Realm.read, claimed, Realm.releaseQuietly_eq]
      | retain | lower | note | forget => rfl
    rw [slot_withRealm w s x y present]
    split
    · next here => rw [same, ← slot_of_realm w s x present, ← here, empty]
    · exact empty
  sweep := by
    intro w empty
    rwa [slot_sweep]

end World

/-- Code that is about to be run. -/
structure Frame where
  {α : Type}
  code : Code α
  world : World

/-- A frame that leaves an empty slot empty. -/
def Frame.Clean (p : Performer) (r : RealmId) (f : Frame) : Prop :=
  ∀ (a : f.α) (w' : World), Act.exec (f.code.exec p) f.world = (.ok a, w') →
    World.Spares r f.world w'

namespace Act

open World

/-- What a call of a guest function begins to run: nothing where it was forgotten or its arguments
cannot be lifted. -/
inductive FunctionBegins (s : RealmId) (id : FunctionId) (raws : List Raw) (w : World) : Frame → Prop
  | run {f : Guest.Function} {values : List Guest.Value} {u : World}
      (known : w.guestFunction? s id = some f)
      (lifted : exec (liftGuests s [] raws) w.sweep = (.ok (.ok values), u)) :
      FunctionBegins s id raws w ⟨f.run values, u.pinned f.holds⟩

/-- What a call of an object begins to run. -/
inductive ObjectBegins (o : ObjectId) (this : Host.Value) (args : List Host.Value) (w : World) :
    Frame → Prop
  | host {x : Host.Object} {g : Host.Function} (there : w.heap.get? o = some x)
      (kind : x.kind = .function g) :
      ObjectBegins o this args w ⟨g.run this args, w.pinned (.object o :: this :: args)⟩
  | guest {x : Host.Object} {s : RealmId} {id : FunctionId} {raws : List Raw} {v : World} {f : Frame}
      (there : w.heap.get? o = some x) (kind : x.kind = .guestFunction s id)
      (held : (w.pinned (.object o :: this :: args)).holdsRealm s)
      (lowered : exec (args.mapM (lowerRaw s)) (w.pinned (.object o :: this :: args)) = (.ok raws, v))
      (begins : FunctionBegins s id raws v f) : ObjectBegins o this args w f

/-- What a constructor begins to run. -/
inductive ConstructorBegins (o : ObjectId) (args : List Host.Value) (w : World) : Frame → Prop
  | run {x : Host.Object} {c : Host.Constructor} (there : w.heap.get? o = some x)
      (kind : x.kind = .constructor c) :
      ConstructorBegins o args w ⟨c.run args, w.pinned (.object o :: args)⟩

/-- What a reflective call of an object begins to run. -/
inductive ReflectionBegins (o : ObjectId) (args : List Host.Value) (w : World) :
    Reflection → Frame → Prop
  | call {f : Frame} (begins : ObjectBegins o .undefined args w f) :
      ReflectionBegins o args w .call f
  | construct {f : Frame} (begins : ConstructorBegins o args w f) :
      ReflectionBegins o args w .construct f
  | method {name : String} {m : ObjectId} {f : Frame}
      (found : w.heap.property o name = .object m) (begins : ObjectBegins m (.object o) args w f) :
      ReflectionBegins o args w (.method name) f

variable {p : Performer} {r : RealmId}

theorem slot_of_keeps {α : Type} {act : Act α} (keeps : Keeps (Spares r) act) {w w' : World} {a : α}
    (done : exec act w = (.ok a, w')) (empty : w.slot r = none) : w'.slot r = none :=
  keeps w w' a done empty

/-- A call of a guest function leaves an empty slot empty if its code does. -/
theorem spares_callFunction (s : RealmId) (id : FunctionId) (raws : List Raw) (w w' : World)
    (answer : Except Host.Value Raw) (frames : ∀ f, FunctionBegins s id raws w f → f.Clean p r)
    (done : exec (callFunction p s id raws) w = (.ok answer, w')) : Spares r w w' := by
  intro empty
  obtain ⟨_, _, asserted, _⟩ := exec_bind_eq_ok _ _ _ _ _ done
  obtain ⟨rfl, x, present, owner⟩ := exec_assertOwner_eq_ok _ _ _ asserted
  rw [exec_callFunction id raws _ x present owner] at done
  have swept := Lasting.sweep (R := Spares r) _ empty
  cases known : World.guestFunction? _ s id with
  | none =>
    rw [known] at done
    exact slot_of_keeps (.throwTypeError _) done swept
  | some f =>
    rw [known] at done
    simp only at done
    rcases lifted : exec (liftGuests s [] raws) (World.sweep _) with ⟨halt | result, u⟩
    · rw [lifted] at done
      cases done
    · rw [lifted, goOn_ok] at done
      have reached := slot_of_keeps (.liftGuests s raws []) lifted swept
      cases result with
      | error e => exact slot_of_keeps (.throwFault e) done reached
      | ok values =>
        obtain ⟨outcome, v, body, rest⟩ := exec_bind_eq_ok _ _ _ _ _ done
        obtain ⟨v', inside, rfl⟩ := exec_pinning_eq_ok _ _ _ _ _
          (exec_onHalt_eq_ok _ _ _ _ _ body)
        have ran : v'.slot r = none := frames _ (.run known lifted) outcome v' inside reached
        refine slot_of_keeps (.bind (.forM _ Keeps.releaseGuestQuietly values) fun _ => ?_) rest ran
        cases outcome with
        | error thrown => exact .pure _
        | ok result => exact .bind (.encodeResult s result) fun _ => .pure _

/-- So does a call through a function object. -/
theorem spares_callThroughObject (s : RealmId) (id : FunctionId) (args : List Host.Value)
    (w w' : World) (outcome : Except Host.Value Host.Value)
    (frames : ∀ raws v f, w.holdsRealm s → exec (args.mapM (lowerRaw s)) w = (.ok raws, v) →
      FunctionBegins s id raws v f → f.Clean p r)
    (done : exec (callThroughObject p s id args) w = (.ok outcome, w')) : Spares r w w' := by
  intro empty
  rw [callThroughObject, exec_bind, exec_get, goOn_ok, exec_ite] at done
  split at done
  · exact slot_of_keeps (.bind (.onHeap _) fun _ => .pure _) done empty
  · next held =>
    have held : w.holdsRealm s := by simpa using held
    obtain ⟨raws, v, lowered, rest⟩ := exec_bind_eq_ok _ _ _ _ _ done
    have reached := slot_of_keeps (.mapM _ (Keeps.lowerRaw s) args) lowered empty
    obtain ⟨answer, u, called, rest⟩ := exec_bind_eq_ok _ _ _ _ _ rest
    have ran := spares_callFunction s id raws v u answer (fun f => frames raws v f held lowered)
      called reached
    cases answer with
    | error thrown =>
      cases rest
      exact ran
    | ok raw =>
      refine slot_of_keeps (.bind (.liftRaw s raw) fun lifted => ?_) rest ran
      cases lifted with
      | error e => exact .throwFault e
      | ok value =>
        cases raw.handle? with
        | none => exact .pure _
        | some h => exact .bind (.releaseQuietly s h) fun _ => .pure _

/-- So does a call of an object. -/
theorem spares_callObject (o : ObjectId) (this : Host.Value) (args : List Host.Value) (w w' : World)
    (outcome : Except Host.Value Host.Value)
    (frames : ∀ f, ObjectBegins o this args w f → f.Clean p r)
    (done : exec (callObject p o this args) w = (.ok outcome, w')) : Spares r w w' := by
  intro empty
  obtain ⟨x, there, rest⟩ := exec_fetch_bind_eq_ok _ _ _ _ _ done
  obtain ⟨u, inside, rfl⟩ := exec_pinning_eq_ok _ _ _ _ _ rest
  show u.slot r = none
  cases kind : x.kind with
  | function g =>
    rw [kind] at inside
    exact frames _ (.host there kind) outcome u inside empty
  | guestFunction s id =>
    rw [kind] at inside
    refine spares_callThroughObject s id args _ u outcome (fun raws v f held lowered begins => ?_)
      inside empty
    exact frames f (.guest there kind held lowered begins)
  | constructor | plain | promise =>
    rw [kind] at inside
    exact slot_of_keeps (.throwTypeError _) inside empty

theorem spares_constructObject (o : ObjectId) (args : List Host.Value) (w w' : World)
    (outcome : Except Host.Value Host.Value)
    (frames : ∀ f, ConstructorBegins o args w f → f.Clean p r)
    (done : exec (constructObject p o args) w = (.ok outcome, w')) : Spares r w w' := by
  intro empty
  obtain ⟨x, there, rest⟩ := exec_fetch_bind_eq_ok _ _ _ _ _ done
  obtain ⟨u, inside, rfl⟩ := exec_pinning_eq_ok _ _ _ _ _ rest
  show u.slot r = none
  cases kind : x.kind with
  | constructor c =>
    rw [kind] at inside
    exact frames _ (.run there kind) outcome u inside empty
  | function | guestFunction | plain | promise =>
    rw [kind] at inside
    exact slot_of_keeps (.throwTypeError _) inside empty

theorem spares_reflectObject (o : ObjectId) (how : Reflection) (args : List Host.Value)
    (w w' : World) (outcome : Except Host.Value Host.Value)
    (frames : ∀ f, ReflectionBegins o args w how f → f.Clean p r)
    (done : exec (reflectObject p o how args) w = (.ok outcome, w')) : Spares r w w' := by
  intro empty
  cases how with
  | call =>
    exact spares_callObject o .undefined args w w' outcome (fun f begins => frames f (.call begins))
      done empty
  | construct =>
    exact spares_constructObject o args w w' outcome (fun f begins => frames f (.construct begins))
      done empty
  | method name =>
    obtain ⟨v, u, read, rest⟩ := exec_bind_eq_ok _ _ _ _ _ done
    cases read
    cases found : w.heap.property o name with
    | object m =>
      rw [found] at rest
      exact spares_callObject m (.object o) args w w' outcome
        (fun f begins => frames f (.method found begins)) rest empty
    | undefined | null | bool | number | string =>
      rw [found] at rest
      exact slot_of_keeps (.throwTypeError _) rest empty

/-- The ways in which a reflective call of the object at a handle comes to its end. -/
inductive Reflected (p : Performer) (s : RealmId) (target : Handle) (how : Reflection)
    (args : List Raw) (w : World) : Except Fault Raw → World → Prop
  /-- There is no object at the handle. -/
  | noObject {e : Fault} {u : World} (found : exec (objectAt s target) w = (.ok (.error e), u)) :
      Reflected p s target how args w (.error e) u
  /-- An argument has no value. -/
  | noValue {o : ObjectId} {e : Fault} {u v : World}
      (found : exec (objectAt s target) w = (.ok (.ok o), u))
      (lifted : exec (liftAll s args) u = (.ok (.error e), v)) :
      Reflected p s target how args w (.error e) v
  /-- The object is called. -/
  | called {o : ObjectId} {values : List Host.Value} {outcome : Except Host.Value Host.Value}
      {result : Except Fault Raw} {u v z w' : World}
      (found : exec (objectAt s target) w = (.ok (.ok o), u))
      (lifted : exec (liftAll s args) u = (.ok (.ok values), v))
      (ran : exec (reflectObject p o how values) v = (.ok outcome, z))
      (finished : exec (finish s outcome) z = (.ok result, w')) :
      Reflected p s target how args w result w'

theorem reflected (s : RealmId) (target : Handle) (how : Reflection) (args : List Raw)
    (w w' : World) (result : Except Fault Raw)
    (done : exec (reflect p s target how args) w = (.ok result, w')) :
    Reflected p s target how args w result w' := by
  obtain ⟨target', u, found, rest⟩ := exec_bind_eq_ok _ _ _ _ _ done
  cases target' with
  | error e =>
    cases rest
    exact .noObject found
  | ok o =>
    obtain ⟨lifted', v, lifted, rest⟩ := exec_bind_eq_ok _ _ _ _ _ rest
    cases lifted' with
    | error e =>
      cases rest
      exact .noValue found lifted
    | ok values =>
      obtain ⟨outcome, z, ran, finished⟩ := exec_bind_eq_ok _ _ _ _ _ rest
      exact .called found lifted ran finished

/-- A reflective call from what it runs. -/
theorem exec_reflect (s : RealmId) (target : Handle) (how : Reflection) (args : List Raw)
    {w u v z : World} {o : ObjectId} {values : List Host.Value}
    {outcome : Except Host.Value Host.Value}
    (found : exec (objectAt s target) w = (.ok (.ok o), u))
    (lifted : exec (liftAll s args) u = (.ok (.ok values), v))
    (ran : exec (reflectObject p o how values) v = (.ok outcome, z)) :
    exec (reflect p s target how args) w = exec (finish s outcome) z := by
  rw [reflect, exec_bind, found, goOn_ok, exec_bind, lifted, goOn_ok, exec_bind, ran, goOn_ok]

/-- The ways in which a reflective call of a guest value comes to its end. -/
inductive GuestReflected (p : Performer) (target : Guest.Value) (how : Reflection)
    (args : List Guest.Value) (w : World) : Except Fault Guest.Value → World → Prop
  /-- The value has no reference. -/
  | noTarget {e : Fault} (found : targetOf target = .error e) :
      GuestReflected p target how args w (.error e) w
  /-- A string made for the call cannot be given back. -/
  | stray {ref : Guest.Ref} {encoded : List (Raw × Option Handle)} {result : Except Fault Raw}
      {e : Fault} {u v w' : World} (found : targetOf target = .ok ref)
      (made : exec (args.mapM (encodeArg ref.realm)) w = (.ok encoded, u))
      (called : exec (reflect p ref.realm ref.handle how (encoded.map (·.1))) u = (.ok result, v))
      (released : exec (releaseAll ref.realm (encoded.filterMap (·.2))) v = (.ok (.error e), w')) :
      GuestReflected p target how args w (.error e) w'
  | failed {ref : Guest.Ref} {encoded : List (Raw × Option Handle)} {e : Fault} {u v w' : World}
      (found : targetOf target = .ok ref)
      (made : exec (args.mapM (encodeArg ref.realm)) w = (.ok encoded, u))
      (called : exec (reflect p ref.realm ref.handle how (encoded.map (·.1))) u =
        (.ok (.error e), v))
      (released : exec (releaseAll ref.realm (encoded.filterMap (·.2))) v = (.ok (.ok ()), w')) :
      GuestReflected p target how args w (.error e) w'
  | returned {ref : Guest.Ref} {encoded : List (Raw × Option Handle)} {raw : Raw}
      {result : Except Fault Guest.Value} {u v z w' : World} (found : targetOf target = .ok ref)
      (made : exec (args.mapM (encodeArg ref.realm)) w = (.ok encoded, u))
      (called : exec (reflect p ref.realm ref.handle how (encoded.map (·.1))) u = (.ok (.ok raw), v))
      (released : exec (releaseAll ref.realm (encoded.filterMap (·.2))) v = (.ok (.ok ()), z))
      (lifted : exec (liftGuest ref.realm raw) z = (.ok result, w')) :
      GuestReflected p target how args w result w'

theorem guestReflected (target : Guest.Value) (how : Reflection) (args : List Guest.Value)
    (w w' : World) (result : Except Fault Guest.Value)
    (done : exec (reflectGuest p target how args) w = (.ok result, w')) :
    GuestReflected p target how args w result w' := by
  unfold reflectGuest at done
  cases found : targetOf target with
  | error e =>
    rw [found] at done
    cases done
    exact .noTarget found
  | ok ref =>
    rw [found] at done
    obtain ⟨answer, z, inside, rest⟩ := exec_bind_eq_ok _ _ _ _ _ done
    obtain ⟨encoded, u, made, inside⟩ := exec_bind_eq_ok _ _ _ _ _ inside
    obtain ⟨raw, v, called, inside⟩ := exec_bind_eq_ok _ _ _ _ _ inside
    obtain ⟨released', z', released, inside⟩ := exec_bind_eq_ok _ _ _ _ _ inside
    cases released' with
    | error e =>
      cases inside
      cases rest
      exact .stray found made called released
    | ok done' =>
      cases inside
      cases answer with
      | error e =>
        cases rest
        exact .failed found made called released
      | ok raw => exact .returned found made called released rest

/-- What was thrown goes through the slot and leaves it empty. -/
theorem finish_error_eq_ok (s : RealmId) (thrown : Host.Value) (w w' : World)
    (result : Except Fault Raw) (done : exec (finish s (.error thrown)) w = (.ok result, w')) :
    result = .error (.hostException thrown) ∧
      ∃ x, w.realms[s]? = some x ∧ w' = w.withRealm s { x with exception := none } := by
  obtain ⟨_, u, set, rest⟩ := exec_bind_eq_ok _ _ _ _ _ done
  obtain ⟨x, present, _, rfl⟩ := exec_onRealm_eq_ok _ _ _ _ _ set
  have there := realm_withRealm w s x (x.throwValue thrown) present
  simp only [checkException, takeException, exec_bind, exec_onRealm _ s _ there, goOn_ok,
    withRealm_withRealm] at rest
  cases rest
  exact ⟨rfl, x, present, rfl⟩

theorem finish_ok_eq_ok (s : RealmId) (v : Host.Value) (w w' : World) (result : Except Fault Raw)
    (done : exec (finish s (.ok v)) w = (.ok result, w')) :
    ∃ raw, result = .ok raw ∧ exec (lowerRaw s v) w = (.ok raw, w') := by
  obtain ⟨raw, u, lowered, rest⟩ := exec_bind_eq_ok _ _ _ _ _ done
  cases rest
  exact ⟨raw, rfl, lowered⟩

theorem spares_finish (s : RealmId) (outcome : Except Host.Value Host.Value) :
    Keeps (Spares r) (finish s outcome) := by
  intro w w' result done empty
  cases outcome with
  | ok v =>
    obtain ⟨raw, _, lowered⟩ := finish_ok_eq_ok s v w w' result done
    exact slot_of_keeps (.lowerRaw s v) lowered empty
  | error thrown =>
    obtain ⟨_, x, present, rfl⟩ := finish_error_eq_ok s thrown w w' result done
    rw [slot_withRealm w s x _ present]
    split
    · rfl
    · exact empty

/-- What an import begins to run, in a frame with what was lowered for it. -/
inductive ImportBegins (s : RealmId) (name : String) (args : List Wire) (w : World) : Frame → Prop
  | run {x : Realm} {i : Import} (present : w.realms[s]? = some x)
      (known : w.runtime.import? name = some i) :
      ImportBegins s name args w ⟨i.run s args, w.withRealm s x.openFrame⟩

/-- What is begun to be run as a request is answered. -/
inductive Begins : Request → World → Frame → Prop
  | invokeImport {s : RealmId} {name : String} {args : List Wire} {w : World} {f : Frame}
      (begins : ImportBegins s name args w f) : Begins (.invokeImport s name args) w f
  | apply {o : ObjectId} {this : Host.Value} {args : List Host.Value} {w : World} {f : Frame}
      (begins : ObjectBegins o this args w f) : Begins (.apply o this args) w f
  | construct {o : ObjectId} {args : List Host.Value} {w : World} {f : Frame}
      (begins : ConstructorBegins o args w f) : Begins (.construct o args) w f
  | reflect {s : RealmId} {target : Handle} {how : Reflection} {args : List Raw} {w u v : World}
      {o : ObjectId} {values : List Host.Value} {f : Frame}
      (found : exec (objectAt s target) w = (.ok (.ok o), u))
      (lifted : exec (liftAll s args) u = (.ok (.ok values), v))
      (begins : ReflectionBegins o values v how f) : Begins (.reflect s target how args) w f
  | reflectGuest {target : Guest.Value} {how : Reflection} {args : List Guest.Value} {w u : World}
      {ref : Guest.Ref} {encoded : List (Raw × Option Handle)} {f : Frame}
      (found : targetOf target = .ok ref)
      (made : exec (args.mapM (encodeArg ref.realm)) w = (.ok encoded, u))
      (begins : Begins (.reflect ref.realm ref.handle how (encoded.map (·.1))) u f) :
      Begins (.reflectGuest target how args) w f

theorem spares_reflect (s : RealmId) (target : Handle) (how : Reflection) (args : List Raw)
    (w w' : World) (result : Except Fault Raw)
    (frames : ∀ f, Begins (.reflect s target how args) w f → f.Clean p r)
    (done : exec (reflect p s target how args) w = (.ok result, w')) : Spares r w w' := by
  intro empty
  cases reflected s target how args w w' result done with
  | noObject found => exact slot_of_keeps (.objectAt s target) found empty
  | noValue found lifted =>
    exact slot_of_keeps (.liftAll s args) lifted (slot_of_keeps (.objectAt s target) found empty)
  | @called o values outcome _ u v z _ found lifted ran finished =>
    have reached : v.slot r = none :=
      slot_of_keeps (.liftAll s args) lifted (slot_of_keeps (.objectAt s target) found empty)
    have back := spares_reflectObject o how values v z outcome
      (fun f begins => frames f (.reflect found lifted begins)) ran reached
    exact slot_of_keeps (spares_finish s outcome) finished back

theorem spares_reflectGuest (target : Guest.Value) (how : Reflection) (args : List Guest.Value)
    (w w' : World) (result : Except Fault Guest.Value)
    (frames : ∀ f, Begins (.reflectGuest target how args) w f → f.Clean p r)
    (done : exec (reflectGuest p target how args) w = (.ok result, w')) : Spares r w w' := by
  intro empty
  have inside {ref : Guest.Ref} {encoded : List (Raw × Option Handle)} {answer : Except Fault Raw}
      {u v : World} (found : targetOf target = .ok ref)
      (made : exec (args.mapM (encodeArg ref.realm)) w = (.ok encoded, u))
      (called : exec (reflect p ref.realm ref.handle how (encoded.map (·.1))) u = (.ok answer, v)) :
      v.slot r = none := by
    have reached := slot_of_keeps (.mapM _ (Keeps.encodeArg ref.realm) args) made empty
    exact spares_reflect ref.realm ref.handle how _ u v answer
      (fun f begins => frames f (.reflectGuest found made begins)) called reached
  cases guestReflected target how args w w' result done with
  | noTarget => exact empty
  | stray found made called released =>
    exact slot_of_keeps (.releaseAll _ _) released (inside found made called)
  | failed found made called released =>
    exact slot_of_keeps (.releaseAll _ _) released (inside found made called)
  | returned found made called released lifted =>
    have back := slot_of_keeps (.releaseAll _ _) released (inside found made called)
    exact slot_of_keeps (.liftGuest _ _) lifted back

theorem spares_openFrame (s : RealmId) (w : World) (x : Realm) (present : w.realms[s]? = some x) :
    Spares r w (w.withRealm s x.openFrame) := by
  intro empty
  rw [slot_withRealm w s x _ present]
  split
  · next here =>
    have same : x.openFrame.exception = x.exception := rfl
    rw [same, ← slot_of_realm w s x present, ← here, empty]
  · exact empty

/-- An import leaves an empty slot empty; only after it what it threw is put into its realm's. -/
theorem spares_runImport (s : RealmId) (name : String) (args : List Wire) (w u : World) (x : Realm)
    (present : w.realms[s]? = some x) (outcome : Except Host.Value Wire)
    (frames : ∀ f, ImportBegins s name args w f → f.Clean p r)
    (run : exec (runImport p s name args) (w.withRealm s x.openFrame) = (.ok outcome, u)) :
    Spares r w u := by
  intro empty
  have opened := spares_openFrame s w x present empty
  rw [runImport, exec_bind, exec_get, goOn_ok] at run
  cases known : w.runtime.import? name with
  | none =>
    have unknown : (w.withRealm s x.openFrame).runtime.import? name = none := known
    rw [unknown] at run
    exact slot_of_keeps (.throwTypeError _) run opened
  | some i =>
    have there : (w.withRealm s x.openFrame).runtime.import? name = some i := known
    rw [there] at run
    exact frames _ (.run present known) outcome u run opened

theorem invokeImport_eq_ok (s : RealmId) (name : String) (args : List Wire) (w w' : World)
    (word : Wire) (done : exec (invokeImport p s name args) w = (.ok word, w')) :
    ∃ x outcome u z, w.realms[s]? = some x ∧ x.owner = w.here ∧
      exec (runImport p s name args) (w.withRealm s x.openFrame) = (.ok outcome, u) ∧
      u.realms[s]? = some z ∧ word = .answer outcome ∧
      w' = u.withRealm s (z.closeFrame.answered outcome) := by
  obtain ⟨x, outcome, u, present, owner, run, last⟩ :=
    exec_invokeImport_eq_ok w p s name args w' word done
  obtain ⟨_, _, closed, _⟩ := exec_bind_eq_ok _ _ _ _ _ last
  obtain ⟨z, there, _⟩ := exec_onRealm_eq_ok _ _ _ _ _ closed
  rw [exec_endImport u s z there] at last
  cases last
  exact ⟨x, outcome, u, z, present, owner, run, there, rfl, rfl⟩

theorem spares_invokeImport (s : RealmId) (name : String) (args : List Wire) (w w' : World)
    (word : Wire) (other : s ≠ r) (frames : ∀ f, ImportBegins s name args w f → f.Clean p r)
    (done : exec (invokeImport p s name args) w = (.ok word, w')) : Spares r w w' := by
  intro empty
  obtain ⟨x, outcome, u, z, present, _, run, there, _, rfl⟩ :=
    invokeImport_eq_ok s name args w w' word done
  rw [slot_withRealm u s z _ there, if_neg (Ne.symm other)]
  exact spares_runImport s name args w u x present outcome frames run empty

theorem takeException_eq_ok (s : RealmId) (w w' : World) (slot : Option Host.Value)
    (done : exec (takeException s) w = (.ok slot, w')) :
    ∃ x, w.realms[s]? = some x ∧ slot = x.exception ∧
      w' = w.withRealm s { x with exception := none } :=
  exec_onRealm_eq_ok w s Realm.takeException w' slot done

theorem spares_takeException (s : RealmId) : Keeps (Spares r) (takeException s) := by
  intro w w' slot done empty
  obtain ⟨x, present, _, rfl⟩ := takeException_eq_ok s w w' slot done
  rw [slot_withRealm w s x _ present]
  split
  · rfl
  · exact empty

/-- Everything that is asked for but an import leaves an empty slot empty. -/
theorem spares_perform (request : Request) (w w' : World) (answer : request.Answer)
    (plain : ∀ s name args, request ≠ .invokeImport s name args)
    (frames : ∀ f, Begins request w f → f.Clean p r)
    (done : exec (perform p request) w = (.ok answer, w')) : Spares r w w' := by
  obtain ⟨u, answered, rfl⟩ := exec_perform_eq_ok p request w w' answer done
  suffices Spares r w u from this
  cases request with
  | invokeImport s name args => exact absurd rfl (plain s name args)
  | apply o this args =>
    exact spares_callObject o this args w u answer (fun f begins => frames f (.apply begins)) answered
  | construct o args =>
    exact spares_constructObject o args w u answer (fun f begins => frames f (.construct begins))
      answered
  | reflect s target how args => exact spares_reflect s target how args w u answer frames answered
  | reflectGuest target how args =>
    exact spares_reflectGuest target how args w u answer frames answered
  | takeException s => exact spares_takeException s w u answer answered
  | _ => exact Keeps.answer p _ rfl w u answer answered

end Act

end Membrane
