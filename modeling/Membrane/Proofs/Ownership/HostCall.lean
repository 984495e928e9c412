import Membrane.Proofs.Calls.GuestFunction
import Membrane.Proofs.Ownership.Arguments
import Membrane.Proofs.Strings.Record
/-!
What a call of a guest function leaves of the references that its arguments own. A call that comes
to the end of its function has given each of them back once. One that is refused before has not: a
function that was forgotten gives back none, and an argument that cannot be lifted leaves those after
it with nobody.
-/

set_option autoImplicit false

namespace Membrane

namespace Realm

variable (x : Realm)

/-- Reads give references back and strike strings off. -/
theorem reads_eq (hs : List Handle) (x : Realm) :
    ∃ lowered frames, hs.foldl read x =
      { x with table := hs.foldl RefTable.releaseQuietly x.table, lowered, frames } := by
  induction hs generalizing x with
  | nil => exact ⟨x.lowered, x.frames, rfl⟩
  | cons h hs ih =>
    obtain ⟨lowered, frames, claimed⟩ := x.claimLowered_eq h
    obtain ⟨lowered', frames', rest⟩ := ih (x.read h)
    refine ⟨lowered', frames', ?_⟩
    rw [List.foldl_cons, rest, read, claimed, releaseQuietly_eq]
    rfl

/-- Encodes the result of a guest function. -/
def encode : Guest.Value → Raw × Realm
  | .undefined => (.undefined, x)
  | .null => (.null, x)
  | .bool b => (.ofBool b, x)
  | .number n => (.ofNumber n, x)
  | .string s => (.ofHandle .string (x.retain (.string s)).1, (x.retain (.string s)).2)
  | .object ref => (.ofHandle .object ref.handle, x)
  | .function ref => (.ofHandle .function ref.handle, x)

/-- What a call answers, given what its function returned or threw. -/
def answer : Except Host.Value Guest.Value → Except Host.Value Raw × Realm
  | .ok v => (.ok (x.encode v).1, (x.encode v).2)
  | .error v => (.error v, x)

end Realm

namespace Act

open World

variable (p : Performer) (r : RealmId)

/-- The ways in which a call of a guest function ends: what it answers and the realm that it leaves,
given the realm at its beginning. -/
inductive Ended (id : FunctionId) (raws : List Raw) (w : World) (x : Realm) :
    Except Host.Value Raw → Realm → Prop
  /-- No function is known by the number. Nothing is given back. -/
  | forgotten {v : Host.Value} {y : Realm} (unknown : w.guestFunction? r id = none)
      (table : y.table = x.table) (noted : y.finalizers = x.finalizers) :
      Ended id raws w x (.error v) y
  /-- An argument is no text where it should be one. What was read is given back, what was adopted
  before it is dropped, and nothing is done about the rest. -/
  | refused {f : Guest.Function} {v : Host.Value} {y : Realm}
      (known : w.guestFunction? r id = some f) (partly : (x.table.lifting raws).whole = false)
      (some : ((x.table.lifting raws).read ++ (x.table.lifting raws).adopted).Subperm
        (Raw.carried raws))
      (table : y.table = (x.table.lifting raws).read.foldl RefTable.releaseQuietly x.table)
      (noted : y.finalizers =
        x.finalizers ++ if x.features.weakRefs then (x.table.lifting raws).adopted else []) :
      Ended id raws w x (.error v) y
  /-- The function is run. What was read was given back before it, all the rest is after it. -/
  | completed {f : Guest.Function} {values : List Guest.Value} {v u : World} {y z : Realm}
      {outcome : Except Host.Value Guest.Value}
      (known : w.guestFunction? r id = some f) (whole : (x.table.lifting raws).whole)
      (all : ((x.table.lifting raws).read ++ (x.table.lifting raws).adopted).Perm
        (Raw.carried raws))
      (refs : RefsAre r values (x.table.lifting raws).adopted)
      (started : v.realms[r]? = some y)
      (table : y.table = (x.table.lifting raws).read.foldl RefTable.releaseQuietly x.table)
      (run : exec (runBody p f values) v = (.ok outcome, u)) (last : u.realms[r]? = some z) :
      Ended id raws w x
        ({ z with table :=
          (x.table.lifting raws).adopted.foldl RefTable.releaseQuietly z.table }.answer outcome).1
        ({ z with table :=
          (x.table.lifting raws).adopted.foldl RefTable.releaseQuietly z.table }.answer outcome).2

variable {p r}

theorem exec_encodeResult (w : World) (x : Realm) (present : w.realms[r]? = some x)
    (owner : x.owner = w.here) (v : Guest.Value) :
    exec (encodeResult r v) w = (.ok (x.encode v).1, w.withRealm r (x.encode v).2) := by
  cases v with
  | string s =>
    simp only [encodeResult, makeString, retain, exec_bind, exec_assertOwner w r x present owner,
      goOn_ok, exec_onRealm w r x present, exec_pure, Realm.encode]
  | undefined | null | bool | number | object | function =>
    simp only [encodeResult, exec_pure, Realm.encode, withRealm_self w r x present]

/-- A call whose function is run: what the function had is given back, and its result encoded. -/
theorem exec_body (answers : ∀ request, OnCourse (p request)) (f : Guest.Function)
    (values : List Guest.Value) (hs : List Handle) (refs : RefsAre r values hs) (w w' : World)
    (answer : Except Host.Value Raw) (y : Realm) (present : w.realms[r]? = some y)
    (owner : y.owner = w.here)
    (done : exec (do
      let outcome ← runBody p f values
      values.forM releaseGuestQuietly
      match outcome with
      | .error v => return .error v
      | .ok v => return .ok (← encodeResult r v)) w = (.ok answer, w')) :
    ∃ outcome u z, exec (runBody p f values) w = (.ok outcome, u) ∧ u.realms[r]? = some z ∧
      answer = ({ z with table := hs.foldl RefTable.releaseQuietly z.table }.answer outcome).1 ∧
      w'.realms[r]? =
        some ({ z with table := hs.foldl RefTable.releaseQuietly z.table }.answer outcome).2 := by
  obtain ⟨outcome, u, run, rest⟩ := exec_bind_eq_ok _ _ _ _ _ done
  have inside : OnCourse (runBody p f values) := .onHalt (.pinning _ (OnCourse.code answers _))
  have along := inside w u outcome run
  obtain ⟨t, z, last, course⟩ := along.course r y present
  have still : z.owner = u.here := course.frames.1.trans (owner.trans along.here.symm)
  obtain ⟨_, v, released, rest⟩ := exec_bind_eq_ok _ _ _ _ _ rest
  rw [exec_releaseGuests values hs refs u z last still] at released
  cases released
  have left := realm_withRealm u r z { z with table := hs.foldl RefTable.releaseQuietly z.table } last
  refine ⟨outcome, u, z, run, last, ?_⟩
  cases outcome with
  | error thrown =>
    cases rest
    exact ⟨rfl, left⟩
  | ok v =>
    rw [exec_bind, exec_encodeResult _ _ left still, goOn_ok] at rest
    cases rest
    exact ⟨rfl, realm_withRealm _ r _ _ left⟩

/-- However a call of a guest function ends, this is what it does with its arguments. -/
theorem ended_of_call (answers : ∀ request, OnCourse (p request)) (id : FunctionId)
    (raws : List Raw) (w w' : World) (answer : Except Host.Value Raw) (x : Realm)
    (present : w.realms[r]? = some x)
    (called : exec (callFunction p r id raws) w = (.ok answer, w')) :
    ∃ y, w'.realms[r]? = some y ∧ Ended p r id raws w x answer y := by
  have owner : x.owner = w.here := by
    apply owner_of_asserted w r x present _ w' answer
    exact called
  obtain ⟨closures, swept⟩ := w.realms_sweep r x present
  have stays : x.owner = w.sweep.here := owner.trans w.here_sweep.symm
  obtain ⟨lowered, frames, read⟩ :=
    Realm.reads_eq (x.table.lifting raws).read { x with closures }
  rw [exec_callFunction id raws w x present owner] at called
  cases known : w.guestFunction? r id with
  | none =>
    rw [known] at called
    obtain ⟨v, u, thrown, realms⟩ := exec_throwTypeError (α := Raw)
      (id.text ++ " was called after it was released") w.sweep
    rw [thrown] at called
    cases called
    exact ⟨{ x with closures }, by rw [realms, swept], .forgotten known rfl rfl⟩
  | some f =>
    rw [known] at called
    simp only at called
    cases whole : (x.table.lifting raws).whole with
    | false =>
      obtain ⟨e, u, lifted, left⟩ := exec_liftGuests_partly raws x.table whole [] [] rfl w.sweep
        { x with closures } rfl swept stays
      obtain ⟨v, u', thrown, realms⟩ := exec_throwFault (α := Raw) e u
      rw [lifted, goOn_ok] at called
      simp only at called
      rw [thrown] at called
      cases called
      refine ⟨_, by rw [realms, left, read], .refused known whole (RefTable.lifting_subperm _ _) ?_ ?_⟩
      · rw [Realm.dropped]
        split <;> rfl
      · rw [Realm.dropped, List.nil_append]
        cases x.features.weakRefs
        · exact (List.append_nil _).symm
        · rfl
    | true =>
      obtain ⟨values, lifted, refs⟩ := exec_liftGuests_whole raws x.table whole [] w.sweep
        { x with closures } rfl swept stays
      rw [lifted, List.nil_append, goOn_ok] at called
      simp only at called
      have started := realm_withRealm w.sweep r { x with closures }
        ((x.table.lifting raws).read.foldl Realm.read { x with closures }) swept
      obtain ⟨outcome, u, z, run, last, rfl, left⟩ :=
        exec_body answers f values _ refs _ w' answer _ started (by rw [read]; exact stays) called
      have all := RefTable.lifting_perm raws x.table whole
      exact ⟨_, left, .completed known whole all refs started (by rw [read]) run last⟩

/-- A call of a function that nobody knows throws and leaves all references. -/
theorem Ended.of_unknown {id : FunctionId} {raws : List Raw} {w : World} {x y : Realm}
    {answer : Except Host.Value Raw} (ended : Ended p r id raws w x answer y)
    (unknown : w.guestFunction? r id = none) :
    (∃ v, answer = .error v) ∧ y.table = x.table ∧ y.finalizers = x.finalizers := by
  cases ended with
  | forgotten _ table noted => exact ⟨⟨_, rfl⟩, table, noted⟩
  | refused known | completed known =>
    rw [unknown] at known
    cases known

/-- The reference that a guest function returned. -/
def returned : Except Host.Value Guest.Value → List Handle
  | .ok v => (v.ref?.map (·.handle)).toList
  | .error _ => []

/-- The reference that comes with an answer. -/
def answered : Except Host.Value Raw → List Handle
  | .ok raw => raw.handle?.toList
  | .error _ => []

/-- A guest function that leaves as many references to every handle as there were, and one more for
what it returns. -/
def Balanced (p : Performer) (r : RealmId) (g : Host.Value) (f : Guest.Function) : Prop :=
  ∀ (values : List Guest.Value) (w w' : World) (outcome : Except Host.Value Guest.Value) (y : Realm),
    w.realms[r]? = some y → y.table.Sound g → y.table.RoomFor 1 →
      exec (runBody p f values) w = (.ok outcome, w') →
      ∃ z, w'.realms[r]? = some z ∧ z.table.Sound g ∧ z.table.RoomFor 1 ∧
        ∀ h, z.table.lent h = y.table.lent h + (returned outcome).count h

variable {g : Host.Value}

/-- A text that is returned gets a reference, any other reference changes hands. -/
theorem lent_answer (z : Realm) (sound : z.table.Sound g) (room : z.table.RoomFor 1)
    (outcome : Except Host.Value Guest.Value) :
    (z.answer outcome).2.table.Sound g ∧
      ∀ h, (z.answer outcome).2.table.lent h + (returned outcome).count h =
        z.table.lent h + (answered (z.answer outcome).1).count h := by
  cases outcome with
  | error v => exact ⟨sound, fun h => rfl⟩
  | ok v =>
    cases v with
    | undefined | null | bool | number | object | function => exact ⟨sound, fun h => rfl⟩
    | string s =>
      obtain ⟨kept, _, more⟩ := sound.retain_lent (.string s) room
      refine ⟨kept, fun h => ?_⟩
      show (z.table.retain (.string s)).2.lent h + 0 =
        z.table.lent h + [(z.table.retain (.string s)).1].count h
      rw [more h, Handle.count_cons, List.count_nil]
      omega

/-- A function that is run gives its arguments back. -/
theorem lent_of_ended (id : FunctionId) (raws : List Raw) (w : World) (x y : Realm)
    (answer : Except Host.Value Raw) (ended : Ended p r id raws w x answer y)
    (sound : x.table.Sound g) (room : x.table.RoomFor 1) (f : Guest.Function)
    (known : w.guestFunction? r id = some f) (whole : (x.table.lifting raws).whole)
    (balanced : Balanced p r g f)
    (enough : ∀ h, (Raw.carried raws).count h ≤ x.table.lent h) :
    y.table.Sound g ∧
      ∀ h, y.table.lent h + (Raw.carried raws).count h =
        x.table.lent h + (answered answer).count h := by
  cases ended with
  | forgotten unknown =>
    rw [known] at unknown
    cases unknown
  | refused _ partly =>
    rw [whole] at partly
    cases partly
  | @completed f' values v u y z outcome known' _ all refs started table run last =>
    obtain rfl := Option.some.inj (known.symm.trans known')
    obtain ⟨opened, first⟩ := sound.releaseAll (x.table.lifting raws).read
    have still := room.releaseAll sound (x.table.lifting raws).read
    rw [← table] at opened first still
    obtain ⟨z', same, kept, left, more⟩ := balanced values v u outcome y started opened still run
    obtain rfl := Option.some.inj (last.symm.trans same)
    obtain ⟨closed, second⟩ := kept.releaseAll (x.table.lifting raws).adopted
    obtain ⟨done, third⟩ := lent_answer
      { z with table := (x.table.lifting raws).adopted.foldl RefTable.releaseQuietly z.table }
      closed (left.releaseAll kept _) outcome
    refine ⟨done, fun h => ?_⟩
    have once := all.count_eq h
    rw [List.count_append] at once
    have first := first h
    have more := more h
    have second := second h
    have third := third h
    have enough := enough h
    simp only at third
    omega

theorem exec_liftRaw (w : World) (y : Realm) (present : w.realms[r]? = some y)
    (owner : y.owner = w.here) (sound : y.table.Sound g) (raw : Raw)
    (live : ∀ h, raw.handle? = some h → 0 < y.table.count h) :
    ∃ v, exec (liftRaw r raw) w = (.ok (.ok v), w) := by
  have there (known : raw.handle? = some (.ofWire raw.int)) :
      ∃ v, exec (read r (.ofWire raw.int)) w = (.ok (.ok v), w) := by
    have taken := (sound.count_pos_iff _).mp (live _ known)
    obtain ⟨e, found⟩ := Option.isSome_iff_exists.mp taken
    refine ⟨e.value, ?_⟩
    have value : y.table.get (.ofWire raw.int) = .ok e.value := by
      rw [RefTable.get_eq_ok_iff, RefTable.value?, found, Option.map_some]
    rw [exec_read w r y present owner, value]
  unfold liftRaw
  unfold Raw.handle? at there
  cases kind : raw.kind with
  | undefined | null | boolean | number => exact ⟨_, rfl⟩
  | string | object | function =>
    rw [kind] at there
    exact there rfl

/-- A call through a function object, from the answer of the function. -/
theorem exec_answered (w w' : World) (y : Realm) (present : w.realms[r]? = some y)
    (owner : y.owner = w.here) (sound : y.table.Sound g) (answer : Except Host.Value Raw)
    (outcome : Except Host.Value Host.Value)
    (live : ∀ h, (answered answer).count h ≤ y.table.lent h)
    (done : exec (match answer with
      | .error v => return .error v
      | .ok raw => do
        match ← liftRaw r raw with
        | .error e => throwFault e
        | .ok v =>
          match raw.handle? with
          | some h => releaseQuietly r h
          | none => pure ()
          return .ok v) w = (.ok outcome, w')) :
    ∃ z, w'.realms[r]? = some z ∧
      ∀ h, z.table.lent h + (answered answer).count h = y.table.lent h := by
  cases answer with
  | error v =>
    cases done
    exact ⟨y, present, fun h => rfl⟩
  | ok raw =>
    have held : ∀ h, raw.handle? = some h → 0 < y.table.count h := by
      intro h carried
      have one := live h
      rw [answered, carried] at one
      have whole := y.table.lent_le_count h
      have count : (some h).toList.count h = 1 := List.count_singleton_self
      omega
    obtain ⟨v, lifted⟩ := exec_liftRaw w y present owner sound raw held
    simp only at done
    rw [exec_bind, lifted, goOn_ok] at done
    simp only [answered]
    cases carried : raw.handle? with
    | none =>
      rw [carried] at done
      cases done
      exact ⟨y, present, fun h => rfl⟩
    | some h =>
      rw [carried] at done
      simp only at done
      rw [exec_bind, exec_releaseQuietly w r y present owner h, goOn_ok] at done
      cases done
      refine ⟨_, realm_withRealm w r y _ present, fun k => ?_⟩
      have less := (sound.releaseQuietly h).2 k
      have one := live k
      rw [answered, carried] at one
      have count : (some h).toList.count k = h.only k := by
        show [h].count k = _
        rw [Handle.count_cons, List.count_nil, Nat.zero_add]
      rw [Realm.releaseQuietly_eq]
      show (y.table.releaseQuietly h).lent k + _ = _
      omega

/-- Arguments that were lowered for a function that the owner of the realm then calls. -/
theorem encodes_of_lowered (args : List Host.Value) (raws : List Raw) (w v : World) (x x' : Realm)
    (present : w.realms[r]? = some x) (sound : x.table.Sound g)
    (room : x.table.RoomFor (1 + args.length))
    (lowered : exec (args.mapM (lowerRaw r)) w = (.ok raws, v))
    (there : v.realms[r]? = some x') (stays : x'.owner = v.here) :
    x.table.Encodes g raws x'.table ∧ x'.table.RoomFor 1 := by
  have along := (Keeps.mapM _ (Keeps.lowerRaw r) args : Keeps World.Along _) w v raws lowered
  obtain ⟨_, x'', same, course⟩ := along.course r x present
  obtain rfl := Option.some.inj (there.symm.trans same)
  have owner : x.owner = w.here := course.frames.1.symm.trans (stays.trans along.here)
  obtain ⟨raws', t, lowered', encodes, left⟩ := exec_lowerRaws args w x present owner sound room
  obtain ⟨same, world⟩ := Prod.mk.inj (lowered.symm.trans lowered')
  obtain rfl := Except.ok.inj same
  have made := realm_withRealm w r x { x with table := t } present
  rw [← world, there] at made
  rw [Option.some.inj made]
  exact ⟨encodes, left⟩

/-- A call through a function object leaves the references of a balanced function as they were, and
those that it took for the arguments of a function that was forgotten stay behind. -/
theorem lent_of_host_call (answers : ∀ request, OnCourse (p request)) (id : FunctionId)
    (args : List Host.Value) (w w' : World) (outcome : Except Host.Value Host.Value) (x : Realm)
    (present : w.realms[r]? = some x) (sound : x.table.Sound g)
    (room : x.table.RoomFor (1 + args.length)) (held : w.holdsRealm r)
    (called : exec (callThroughObject p r id args) w = (.ok outcome, w')) :
    ∃ raws v y, exec (args.mapM (lowerRaw r)) w = (.ok raws, v) ∧ w'.realms[r]? = some y ∧
      (v.guestFunction? r id = none →
        ∀ h, y.table.lent h = x.table.lent h + (Raw.carried raws).count h) ∧
      ∀ f, v.guestFunction? r id = some f → Balanced p r g f →
        ∀ h, y.table.lent h = x.table.lent h := by
  have begun := called
  rw [callThroughObject, exec_bind, exec_get, goOn_ok, exec_ite, if_neg (by simp [held])] at begun
  obtain ⟨raws, v, lowered, rest⟩ := exec_bind_eq_ok _ _ _ _ _ begun
  obtain ⟨_, x', there, _⟩ :=
    ((Keeps.mapM _ (Keeps.lowerRaw r) args : Keeps World.Along _) w v raws lowered).course r x present
  obtain ⟨answer, u, ran, rest⟩ := exec_bind_eq_ok _ _ _ _ _ rest
  have stays : x'.owner = v.here := by
    apply owner_of_asserted v r x' there _ u answer
    exact ran
  obtain ⟨encodes, left⟩ :=
    encodes_of_lowered args raws w v x x' present sound room lowered there stays
  have inside := Keeps.callFunction answers r id raws v u answer ran
  obtain ⟨_, y, between, onward⟩ := inside.course r x' there
  have still : y.owner = u.here := onward.frames.1.trans (stays.trans inside.here.symm)
  obtain ⟨y', last, ended⟩ := ended_of_call answers id raws v u answer x' there ran
  obtain rfl := Option.some.inj (between.symm.trans last)
  have enough : ∀ h, (Raw.carried raws).count h ≤ x'.table.lent h := fun h => by
    rw [encodes.lent h]
    exact Nat.le_add_left _ _
  have whole := RefTable.lifting_whole raws x'.table encodes.sound encodes.texts enough
  have along := Keeps.callThroughObject answers r id args w w' outcome called
  obtain ⟨_, z, final, _⟩ := along.course r x present
  refine ⟨raws, v, z, lowered, final, fun unknown h => ?_, fun f known balanced h => ?_⟩
  · obtain ⟨⟨thrown, rfl⟩, table, _⟩ := ended.of_unknown unknown
    cases rest
    obtain rfl := Option.some.inj (final.symm.trans last)
    rw [table, encodes.lent h]
  · obtain ⟨kept, even⟩ := lent_of_ended id raws v x' y answer ended encodes.sound left f known whole
      balanced enough
    have live : ∀ h, (answered answer).count h ≤ y.table.lent h := fun h => by
      have even := even h
      have taken := encodes.lent h
      omega
    obtain ⟨z', same, less⟩ := exec_answered u w' y between still kept answer outcome live rest
    obtain rfl := Option.some.inj (final.symm.trans same)
    have even := even h
    have taken := encodes.lent h
    have less := less h
    omega

/-- The arguments of a guest function after a call: a function that is run has each handle in them
given back once, and one that is refused or forgotten has not. So a call through a function object
leaves the references of the realm as they were, unless its function was forgotten. -/
theorem arguments_after_host_call (depth : Nat) (r : RealmId) (id : FunctionId) (w w' : World)
    (x : Realm) (present : w.realms[r]? = some x) :
    (∀ (raws : List Raw) (answer : Except Host.Value Raw),
      exec (callFunction (performer depth) r id raws) w = (.ok answer, w') →
        ∃ y, w'.realms[r]? = some y ∧ Ended (performer depth) r id raws w x answer y) ∧
    ∀ (args : List Host.Value) (outcome : Except Host.Value Host.Value) (g : Host.Value),
      x.table.Sound g → x.table.RoomFor (1 + args.length) → w.holdsRealm r →
      exec (callThroughObject (performer depth) r id args) w = (.ok outcome, w') →
        ∃ raws v y, exec (args.mapM (lowerRaw r)) w = (.ok raws, v) ∧ w'.realms[r]? = some y ∧
          (v.guestFunction? r id = none →
            ∀ h, y.table.lent h = x.table.lent h + (Raw.carried raws).count h) ∧
          ∀ f, v.guestFunction? r id = some f → Balanced (performer depth) r g f →
            ∀ h, y.table.lent h = x.table.lent h := by
  have answers : ∀ request, OnCourse (performer depth request) := OnCourse.performer depth
  refine ⟨fun raws answer called => ?_, fun args outcome g sound room held called => ?_⟩
  · exact ended_of_call answers id raws w w' answer x present called
  · exact lent_of_host_call answers id args w w' outcome x present sound room held called

/-- A world in which a realm with nothing in it is in use. -/
def inUse : World := { World.lone .blank [] with current := [(0, ⟨⟨0⟩, 0, 0, 0⟩)] }

/-- A text is passed to a function that nobody knows. The reference to it stays behind. -/
theorem arguments_after_host_call_of_unknown :
    let lowered := inUse.withRealm 0 (Realm.blank.retain (.string "a")).2
    Realm.blank.table.lent Realm.sharedHandle = 0 ∧
      (∃ answer w' y, exec (callFunction (performer 1) 0 ⟨1⟩
          [.ofHandle .string Realm.sharedHandle]) lowered = (.ok answer, w') ∧
        w'.realms[0]? = some y ∧ y.table.lent Realm.sharedHandle = 1) ∧
      ∃ outcome w' y, exec (callThroughObject (performer 1) 0 ⟨1⟩ [.string "a"]) inUse =
          (.ok outcome, w') ∧
        w'.realms[0]? = some y ∧ y.table.lent Realm.sharedHandle = 1 := by
  intro lowered
  have sound : Realm.blank.table.Sound (.object 0) := RefTable.create_sound .dense (.object 0)
  have room : Realm.blank.table.RoomFor 2 := RefTable.create_roomFor .dense (.object 0) (by decide)
  have none : Realm.blank.table.lent Realm.sharedHandle = 0 := RefTable.lent_create .dense _ _
  have one : (Realm.blank.retain (.string "a")).2.table.lent Realm.sharedHandle = 1 := by
    have more := (sound.retain_lent (.string "a") room).2.2 Realm.sharedHandle
    rw [none] at more
    exact more.trans (congrArg (0 + ·) (Handle.only_self _))
  have made : exec ([Host.Value.string "a"].mapM (lowerRaw 0)) inUse =
      (.ok [.ofHandle .string Realm.sharedHandle], lowered) := rfl
  have there : lowered.realms[0]? = some (Realm.blank.retain (.string "a")).2 := rfl
  have idle : lowered.sweep = lowered := by
    have all : lowered.realms = #[(Realm.blank.retain (.string "a")).2] := rfl
    rw [World.sweep, if_pos]
    rw [all]
    simp only [List.all_toArray, List.all_cons, List.all_nil, Bool.and_true]
    rfl
  have unknown : lowered.guestFunction? 0 ⟨1⟩ = .none := by
    rw [guestFunction?, idle]
    rfl
  have called : ∃ v w', exec (callFunction (performer 1) 0 ⟨1⟩
      [.ofHandle .string Realm.sharedHandle]) lowered = (.ok (.error v), w') := by
    rw [exec_callFunction ⟨1⟩ _ lowered _ there rfl, unknown]
    exact ⟨_, _, rfl⟩
  obtain ⟨v, w', called⟩ := called
  refine ⟨none, ?_, ?_⟩
  · obtain ⟨y, last, ended⟩ := (arguments_after_host_call 1 0 ⟨1⟩ lowered w' _ there).1 _ _ called
    refine ⟨_, w', y, called, last, ?_⟩
    rw [(ended.of_unknown unknown).2.1, one]
  · have outer : exec (callThroughObject (performer 1) 0 ⟨1⟩ [.string "a"]) inUse =
        (.ok (.error v), w') := by
      rw [callThroughObject, exec_bind, exec_get, goOn_ok, exec_ite, if_neg (by decide), exec_bind,
        made, goOn_ok, exec_bind, called]
      rfl
    obtain ⟨raws, u, y, same, last, stays, _⟩ :=
      (arguments_after_host_call 1 0 ⟨1⟩ inUse w' .blank rfl).2 [.string "a"] _ _ sound room
        (by decide) outer
    cases made.symm.trans same
    refine ⟨_, w', y, outer, last, ?_⟩
    rw [stays unknown, none, Nat.zero_add]
    show [Realm.sharedHandle].count Realm.sharedHandle = 1
    exact List.count_singleton_self

end Act

end Membrane
