import Membrane.Proofs.Calls.Slot
import Membrane.Proofs.Strings.Answer
/-!
What a call reports. A fault is either the runtime's own or tells of a value that was thrown. All
that a call does around the code that it runs has faults of its own only, so a call reports a thrown
value exactly when the code that it ran threw it.
-/

set_option autoImplicit false

namespace Membrane

/-- The thrown value that a result tells of. -/
def reported {α : Type} : Except Fault α → Option Host.Value
  | .ok _ => none
  | .error e => e.exception?

section

variable {α β : Type}

@[simp] theorem reported_ok (a : α) : reported (.ok a : Except Fault α) = none := rfl

@[simp] theorem reported_error (e : Fault) :
    reported (.error e : Except Fault α) = e.exception? := rfl

theorem reported_map (f : α → β) (result : Except Fault α) :
    reported (result.map f) = reported result := by
  cases result <;> rfl

theorem reported_eq_some_iff (result : Except Fault α) (v : Host.Value) :
    reported result = some v ↔ result = .error (.hostException v) := by
  rcases result with e | a
  · cases e <;> simp [Fault.exception?]
  · simp

theorem reported_get (t : RefTable) (h : Handle) : reported (t.get h) = none := by
  rw [RefTable.get]
  cases t.find? h <;> rfl

theorem reported_release (x : Realm) (h : Handle) : reported (x.release h) = none := by
  rw [Realm.release, reported_map, RefTable.release]
  cases x.table.find? h with
  | none => rfl
  | some e =>
    simp only
    split <;> rfl

theorem reported_retainHandle (x : Realm) (h : Handle) : reported (x.retainHandle h) = none := by
  rw [Realm.retainHandle, reported_map, RefTable.retainHandle]
  cases x.table.find? h <;> rfl

theorem reported_stringAt (x : Realm) (names : Host.Value → String) (h : Handle) :
    reported (x.stringAt names h) = none := by
  have own := reported_get x.table h
  rw [Realm.stringAt]
  cases got : x.table.get h with
  | error e =>
    rw [got] at own
    exact own
  | ok v => cases v <;> rfl

end

namespace Act

open World

variable {α β : Type}

/-- An action whose faults are the runtime's own: none tells of a thrown value. -/
def Unthrown (act : Act (Except Fault α)) : Prop :=
  ∀ (w w' : World) (result : Except Fault α), exec act w = (.ok result, w') → reported result = none

namespace Unthrown

theorem not_told {act : Act (Except Fault α)} (own : Unthrown act) {w w' : World} {e : Fault}
    (done : exec act w = (.ok (.error e), w')) (v : Host.Value) :
    reported (.error e : Except Fault β) ≠ some v := by
  intro told
  have none := own w w' (.error e) done
  rw [reported_error] at none told
  rw [none] at told
  cases told

theorem pure (result : Except Fault α) (own : reported result = none) :
    Unthrown (pure result : Act (Except Fault α)) := by
  rintro w w' _ done
  cases done
  exact own

theorem after {act : Act β} {rest : β → Act (Except Fault α)} (next : ∀ b, Unthrown (rest b)) :
    Unthrown (act >>= rest) := by
  intro w w' result done
  obtain ⟨b, u, _, last⟩ := exec_bind_eq_ok act rest w w' result done
  exact next b u w' result last

/-- What goes on with a result may hand on its fault. -/
theorem bind {act : Act (Except Fault β)} {rest : Except Fault β → Act (Except Fault α)}
    (first : Unthrown act) (next : ∀ result, reported result = none → Unthrown (rest result)) :
    Unthrown (act >>= rest) := by
  intro w w' result done
  obtain ⟨answer, u, before, last⟩ := exec_bind_eq_ok act rest w w' result done
  exact next answer (first w u answer before) u w' result last

theorem map {act : Act (Except Fault α)} (f : α → β) (first : Unthrown act) :
    Unthrown (do return (← act).map f) :=
  first.bind fun result own => .pure _ ((reported_map f result).trans own)

theorem onHalt {act : Act (Except Fault α)} {cleanup : Act Unit} (first : Unthrown act) :
    Unthrown (onHalt act cleanup) :=
  fun w w' result done => first w w' result (exec_onHalt_eq_ok act cleanup w w' result done)

theorem read (r : RealmId) (h : Handle) : Unthrown (read r h) :=
  .after fun _ => .after fun x => .pure _ (reported_get x.table h)

theorem tryRealm (r : RealmId) (f : Realm → Except Fault Realm)
    (own : ∀ x, reported (f x) = none) : Unthrown (tryRealm r f) := by
  refine .after fun x => ?_
  have same := own x
  cases changed : f x with
  | error e =>
    rw [changed] at same
    exact .pure _ same
  | ok y => exact .after fun _ => .pure _ rfl

theorem release (r : RealmId) (h : Handle) : Unthrown (release r h) :=
  .after fun _ => .tryRealm r _ fun x => reported_release x h

theorem releaseAll (r : RealmId) (hs : List Handle) : Unthrown (releaseAll r hs) := by
  induction hs with
  | nil => exact .pure _ rfl
  | cons h rest ih =>
    refine .bind (.release r h) fun result own => ?_
    cases result with
    | error e => exact .pure _ own
    | ok done => exact ih

theorem releaseGuest (v : Guest.Value) : Unthrown (releaseGuest v) := by
  unfold Act.releaseGuest
  split
  · exact .release _ _
  · exact .pure _ rfl

theorem functionOf (c : Guest.Closure) : Unthrown (functionOf c) :=
  .map _ (.map _ (.after fun _ => .tryRealm _ _ fun x => reported_retainHandle x _))

theorem objectAt (r : RealmId) (h : Handle) : Unthrown (objectAt r h) := by
  refine .bind (.read r h) fun result own => ?_
  split
  · exact .pure _ own
  · exact .pure _ rfl
  · exact .after fun _ => .pure _ rfl

theorem liftRaw (r : RealmId) (raw : Raw) : Unthrown (liftRaw r raw) := by
  unfold Act.liftRaw
  cases raw.kind with
  | undefined | null | boolean | number => exact .pure _ rfl
  | string | object | function => exact .read r _

theorem liftAll (r : RealmId) (raws : List Raw) : Unthrown (liftAll r raws) := by
  induction raws with
  | nil => exact .pure _ rfl
  | cons raw rest ih =>
    refine .bind (.liftRaw r raw) fun result own => ?_
    cases result with
    | error e => exact .pure _ own
    | ok v => exact .map _ ih

theorem loadString (r : RealmId) (h : Handle) : Unthrown (loadString r h) := by
  intro w w' result done
  obtain ⟨x, present, owner, _⟩ := exec_loadString_eq_ok w r h w' result done
  rw [exec_loadString w r x present owner h] at done
  cases done
  exact reported_stringAt x _ h

theorem liftGuest (r : RealmId) (raw : Raw) : Unthrown (liftGuest r raw) := by
  unfold Act.liftGuest
  cases raw.kind with
  | undefined | null | boolean | number | object | function => exact .pure _ rfl
  | string => exact .map _ (.loadString r _)

theorem liftHandle (r : RealmId) (word : Wire) : Unthrown (liftHandle r word) := by
  unfold Act.liftHandle
  cases word with
  | i32 n =>
    refine .after fun live => ?_
    split <;> exact .pure _ rfl
  | f64 | f32 | void => exact .pure _ rfl

theorem promiseOf (ref : Guest.Ref) : Unthrown (promiseOf ref) := by
  refine .bind (.read ref.realm ref.handle) fun result own => ?_
  cases result with
  | error e => exact .pure _ own
  | ok v =>
    refine .after fun w => ?_
    split
    · exact .pure _ rfl
    · exact .after fun _ => .pure _ rfl

theorem asPromise (ref : Guest.Ref) : Unthrown (asPromise ref) := by
  refine .map _ (.bind (.onHalt (.promiseOf ref)) fun result own => ?_)
  cases result with
  | ok p => exact .pure _ rfl
  | error e => exact .after fun _ => .pure _ own

/-- Whatever an answer is read as, it is not taken for a thrown value. -/
theorem lift (r : RealmId) (type : Guest.ResultType) (word : Wire) :
    Unthrown (lift r type word) := by
  cases type with
  | unit => exact .pure _ rfl
  | bool | i32 | u32 | f64 | f32 => cases word <;> exact .pure _ rfl
  | string =>
    cases word with
    | i32 n => exact .map _ (.loadString r _)
    | f64 | f32 | void => exact .pure _ rfl
  | handle => exact .map _ (.liftHandle r word)
  | ref => exact .map _ (.liftHandle r word)
  | promise =>
    refine .bind (.liftHandle r word) fun result own => ?_
    cases result with
    | error e => exact .pure _ own
    | ok h => exact .map _ (.asPromise ⟨r, h⟩)

end Unthrown

variable {p : Performer}

/-- The code that a reflective call runs throws a value. -/
def ReflectThrows (p : Performer) (s : RealmId) (target : Handle) (how : Reflection)
    (args : List Raw) (w : World) (v : Host.Value) : Prop :=
  ∃ o values u u' z, exec (objectAt s target) w = (.ok (.ok o), u) ∧
    exec (liftAll s args) u = (.ok (.ok values), u') ∧
    exec (reflectObject p o how values) u' = (.ok (.error v), z)

/-- A reflective call reports what the code threw that it ran. -/
theorem reported_reflect (s : RealmId) (target : Handle) (how : Reflection) (args : List Raw)
    (w w' : World) (result : Except Fault Raw)
    (done : exec (reflect p s target how args) w = (.ok result, w')) (v : Host.Value) :
    reported result = some v ↔ ReflectThrows p s target how args w v := by
  constructor
  · intro told
    cases reflected s target how args w w' result done with
    | noObject found => exact absurd told ((Unthrown.objectAt s target).not_told found v)
    | noValue found lifted => exact absurd told ((Unthrown.liftAll s args).not_told lifted v)
    | @called o values outcome _ u u' z _ found lifted ran finished =>
      cases outcome with
      | ok value =>
        obtain ⟨raw, rfl, _⟩ := finish_ok_eq_ok s value z w' result finished
        cases told
      | error thrown =>
        obtain ⟨rfl, _⟩ := finish_error_eq_ok s thrown z w' result finished
        obtain rfl := Option.some.inj told
        exact ⟨o, values, u, u', z, found, lifted, ran⟩
  · rintro ⟨o, values, u, u', z, found, lifted, ran⟩
    cases reflected s target how args w w' result done with
    | noObject found' => cases found.symm.trans found'
    | noValue found' lifted' =>
      cases found.symm.trans found'
      cases lifted.symm.trans lifted'
    | called found' lifted' ran' finished =>
      cases found.symm.trans found'
      cases lifted.symm.trans lifted'
      cases ran.symm.trans ran'
      obtain ⟨rfl, _⟩ := finish_error_eq_ok s v z w' result finished
      rfl

/-- The code that a reflective call of a guest value runs throws a value. -/
def GuestThrows (p : Performer) (target : Guest.Value) (how : Reflection) (args : List Guest.Value)
    (w : World) (v : Host.Value) : Prop :=
  ∃ ref encoded u, targetOf target = .ok ref ∧
    exec (args.mapM (encodeArg ref.realm)) w = (.ok encoded, u) ∧
    ReflectThrows p ref.realm ref.handle how (encoded.map (·.1)) u v

/-- What a reflective call of a guest value makes for its code can be given back after it. -/
def GuestGivesBack (p : Performer) (target : Guest.Value) (how : Reflection)
    (args : List Guest.Value) (w : World) : Prop :=
  ∀ ref encoded u result v, targetOf target = .ok ref →
    exec (args.mapM (encodeArg ref.realm)) w = (.ok encoded, u) →
    exec (reflect p ref.realm ref.handle how (encoded.map (·.1))) u = (.ok result, v) →
    ∃ v', exec (releaseAll ref.realm (encoded.filterMap (·.2))) v = (.ok (.ok ()), v')

/-- A reflective call of a guest value reports what the code threw that it ran, if it can give back
what it made for that code. -/
theorem reported_reflectGuest (target : Guest.Value) (how : Reflection) (args : List Guest.Value)
    (w w' : World) (result : Except Fault Guest.Value)
    (done : exec (reflectGuest p target how args) w = (.ok result, w')) (v : Host.Value) :
    reported result = some v ↔
      GuestThrows p target how args w v ∧ GuestGivesBack p target how args w := by
  constructor
  · intro told
    cases guestReflected target how args w w' result done with
    | noTarget found =>
      cases target <;> cases found <;> cases told
    | stray found made called released =>
      exact absurd told ((Unthrown.releaseAll _ _).not_told released v)
    | @failed ref encoded e u z _ found made called released =>
      have thrown := (reported_reflect ref.realm ref.handle how _ u z (.error e) called v).mp told
      refine ⟨⟨ref, encoded, u, found, made, thrown⟩, ?_⟩
      intro ref' encoded' u' result' z' found' made' called'
      cases found.symm.trans found'
      cases made.symm.trans made'
      cases called.symm.trans called'
      exact ⟨w', released⟩
    | returned found made called released lifted =>
      rw [Unthrown.liftGuest _ _ _ _ _ lifted] at told
      cases told
  · intro ⟨⟨ref, encoded, u, found, made, thrown⟩, back⟩
    cases guestReflected target how args w w' result done with
    | noTarget found' => cases found.symm.trans found'
    | stray found' made' called released =>
      cases found.symm.trans found'
      cases made.symm.trans made'
      obtain ⟨z, even⟩ := back ref encoded u _ _ found made called
      cases released.symm.trans even
    | failed found' made' called released =>
      cases found.symm.trans found'
      cases made.symm.trans made'
      exact (reported_reflect ref.realm ref.handle how _ u _ _ called v).mpr thrown
    | returned found' made' called released lifted =>
      cases found.symm.trans found'
      cases made.symm.trans made'
      cases (reported_reflect ref.realm ref.handle how _ u _ _ called v).mpr thrown

/-- The code of an import throws a value; one that is missing throws a type error. -/
def ImportThrows (p : Performer) (s : RealmId) (name : String) (args : List Wire) (w : World)
    (v : Host.Value) : Prop :=
  ∃ x u, w.realms[s]? = some x ∧
    exec (runImport p s name args) (w.withRealm s x.openFrame) = (.ok (.error v), u)

/-- A call of an import from the run of its code. -/
theorem callImport_eq_ok (s : RealmId) (name : String) (args : List Wire) (w w' : World)
    (result : Except Fault Wire) (done : exec (callImport p s name args) w = (.ok result, w')) :
    ∃ x outcome u z, w.realms[s]? = some x ∧
      exec (runImport p s name args) (w.withRealm s x.openFrame) = (.ok outcome, u) ∧
      u.realms[s]? = some z ∧ result = received outcome z.exception ∧
      w' = u.withRealm s z.closed := by
  obtain ⟨word, v, invoked, _⟩ := exec_bind_eq_ok _ _ _ _ _ done
  obtain ⟨x, outcome, u, z, present, owner, run, there, _⟩ :=
    invokeImport_eq_ok s name args w v word invoked
  rw [exec_callImport w p s name args x z present owner outcome u run there] at done
  cases done
  exact ⟨x, outcome, u, z, present, run, there, rfl, rfl⟩

theorem reported_received (outcome : Except Host.Value Wire) (v : Host.Value) :
    reported (received outcome none) = some v ↔ outcome = .error v := by
  cases outcome <;> simp [received, Fault.exception?]

variable {r : RealmId}

theorem spares_callImport (s : RealmId) (name : String) (args : List Wire) (w w' : World)
    (result : Except Fault Wire) (frames : ∀ f, ImportBegins s name args w f → f.Clean p r)
    (done : exec (callImport p s name args) w = (.ok result, w')) : Spares r w w' := by
  intro empty
  obtain ⟨x, outcome, u, z, present, run, there, _, rfl⟩ :=
    callImport_eq_ok s name args w w' result done
  rw [slot_withRealm u s z _ there]
  split
  · rfl
  · exact spares_runImport s name args w u x present outcome frames run empty

/-- Where nothing else is in the slot, the call of an import reports what it threw. -/
theorem reported_callImport (name : String) (args : List Wire) (w w' : World)
    (result : Except Fault Wire) (frames : ∀ f, ImportBegins r name args w f → f.Clean p r)
    (empty : w.slot r = none) (done : exec (callImport p r name args) w = (.ok result, w'))
    (v : Host.Value) : reported result = some v ↔ ImportThrows p r name args w v := by
  obtain ⟨x, outcome, u, z, present, run, there, rfl, _⟩ :=
    callImport_eq_ok r name args w w' result done
  have left := spares_runImport r name args w u x present outcome frames run empty
  rw [slot_of_realm u r z there] at left
  rw [left, reported_received]
  constructor
  · rintro rfl
    exact ⟨x, u, present, run⟩
  · rintro ⟨x', u', present', run'⟩
    cases present.symm.trans present'
    cases run.symm.trans run'
    rfl

/-- A call whose answer is read as a type, from the call of its import. -/
theorem callTyped_eq_ok (s : RealmId) (name : String) (args : List Wire)
    (type : Guest.ResultType) (w w' : World) (result : Except Fault Guest.Result)
    (done : exec (callTyped p s name args type) w = (.ok result, w')) :
    ∃ answer u, exec (callImport p s name args) w = (.ok answer, u) ∧
      reported result = reported answer ∧ Spares r u w' := by
  obtain ⟨answer, u, called, rest⟩ := exec_bind_eq_ok _ _ _ _ _ done
  refine ⟨answer, u, called, ?_⟩
  cases answer with
  | error e =>
    cases rest
    exact ⟨rfl, id⟩
  | ok word =>
    exact ⟨Unthrown.lift s type word u w' result rest, Keeps.lift s type word u w' result rest⟩

/-- The code that a call of a closure runs throws a value. -/
def ClosureThrows (p : Performer) (c : Guest.Closure) (args : List Guest.Value) (w : World)
    (v : Host.Value) : Prop :=
  ∃ f u, exec (functionOf c) w = (.ok (.ok f), u) ∧ GuestThrows p f .call args u v

/-- What a call of a closure makes for its code can be given back after it: the reference to its
function object as well. -/
def ClosureGivesBack (p : Performer) (c : Guest.Closure) (args : List Guest.Value) (w : World) :
    Prop :=
  ∀ f u, exec (functionOf c) w = (.ok (.ok f), u) → GuestGivesBack p f .call args u ∧
    ∀ result v, exec (reflectGuest p f .call args) u = (.ok result, v) →
      ∃ v', exec (releaseGuest f) v = (.ok (.ok ()), v')

/-- The ways in which a call of a closure comes to its end. -/
inductive ClosureCalled (p : Performer) (c : Guest.Closure) (args : List Guest.Value) (w : World) :
    Except Fault Guest.Value → World → Prop
  /-- There is no reference to be had to the function object. -/
  | refused {e : Fault} {u : World} (made : exec (functionOf c) w = (.ok (.error e), u)) :
      ClosureCalled p c args w (.error e) u
  /-- The reference cannot be given back, and the result is let go. -/
  | stray {f : Guest.Value} {result : Except Fault Guest.Value} {e : Fault} {u v z w' : World}
      (made : exec (functionOf c) w = (.ok (.ok f), u))
      (called : exec (reflectGuest p f .call args) u = (.ok result, v))
      (released : exec (releaseGuest f) v = (.ok (.error e), z))
      (dropped : ∀ {r : RealmId}, Spares r z w') : ClosureCalled p c args w (.error e) w'
  | returned {f : Guest.Value} {result : Except Fault Guest.Value} {u v w' : World}
      (made : exec (functionOf c) w = (.ok (.ok f), u))
      (called : exec (reflectGuest p f .call args) u = (.ok result, v))
      (released : exec (releaseGuest f) v = (.ok (.ok ()), w')) : ClosureCalled p c args w result w'

theorem closureCalled (c : Guest.Closure) (args : List Guest.Value) (w w' : World)
    (result : Except Fault Guest.Value)
    (done : exec (callClosure p c args) w = (.ok result, w')) :
    ClosureCalled p c args w result w' := by
  obtain ⟨function, u, made, rest⟩ := exec_bind_eq_ok _ _ _ _ _ done
  cases function with
  | error e =>
    cases rest
    exact .refused made
  | ok f =>
    obtain ⟨answer, v, halted, rest⟩ := exec_bind_eq_ok _ _ _ _ _ rest
    have called := exec_onHalt_eq_ok _ _ _ _ _ halted
    obtain ⟨released', z, released, rest⟩ := exec_bind_eq_ok _ _ _ _ _ rest
    cases released' with
    | ok done' =>
      cases rest
      exact .returned made called released
    | error e =>
      cases answer with
      | error thrown =>
        cases rest
        exact .stray made called released id
      | ok value =>
        obtain ⟨_, z', dropped, rest⟩ := exec_bind_eq_ok _ _ _ _ _ rest
        cases rest
        exact .stray made called released fun {r} => Keeps.dropGuest value z w' () dropped

theorem spares_callClosure (c : Guest.Closure) (args : List Guest.Value) (w w' : World)
    (result : Except Fault Guest.Value)
    (frames : ∀ f u g, exec (functionOf c) w = (.ok (.ok f), u) →
      Begins (.reflectGuest f .call args) u g → g.Clean p r)
    (done : exec (callClosure p c args) w = (.ok result, w')) : Spares r w w' := by
  intro empty
  have inside {f : Guest.Value} {answer : Except Fault Guest.Value} {u v : World}
      (made : exec (functionOf c) w = (.ok (.ok f), u))
      (called : exec (reflectGuest p f .call args) u = (.ok answer, v)) : v.slot r = none :=
    spares_reflectGuest f .call args u v answer (fun g => frames f u g made) called
      (slot_of_keeps (.functionOf c) made empty)
  cases closureCalled c args w w' result done with
  | refused made => exact slot_of_keeps (.functionOf c) made empty
  | stray made called released dropped =>
    exact dropped (slot_of_keeps (.releaseGuest _) released (inside made called))
  | returned made called released =>
    exact slot_of_keeps (.releaseGuest _) released (inside made called)

/-- A call of a closure reports what its function threw, if it can give back what it made for it. -/
theorem reported_callClosure (c : Guest.Closure) (args : List Guest.Value) (w w' : World)
    (result : Except Fault Guest.Value)
    (done : exec (callClosure p c args) w = (.ok result, w')) (v : Host.Value) :
    reported result = some v ↔ ClosureThrows p c args w v ∧ ClosureGivesBack p c args w := by
  constructor
  · intro told
    cases closureCalled c args w w' result done with
    | refused made => exact absurd told ((Unthrown.functionOf c).not_told made v)
    | stray made called released =>
      exact absurd told ((Unthrown.releaseGuest _).not_told released v)
    | @returned f _ u z _ made called released =>
      obtain ⟨thrown, back⟩ := (reported_reflectGuest f .call args u z result called v).mp told
      refine ⟨⟨f, u, made, thrown⟩, ?_⟩
      intro f' u' made'
      cases made.symm.trans made'
      refine ⟨back, ?_⟩
      intro result' z' called'
      cases called.symm.trans called'
      exact ⟨w', released⟩
  · intro ⟨⟨f, u, made, thrown⟩, back⟩
    obtain ⟨inner, outer⟩ := back f u made
    cases closureCalled c args w w' result done with
    | refused made' => cases made.symm.trans made'
    | stray made' called released =>
      cases made.symm.trans made'
      obtain ⟨z, even⟩ := outer _ _ called
      cases released.symm.trans even
    | @returned _ _ _ z _ made' called released =>
      cases made.symm.trans made'
      exact (reported_reflectGuest f .call args u z result called v).mpr ⟨thrown, inner⟩

end Act

end Membrane
