import Membrane.Proofs.Crossing.Arguments
import Membrane.Proofs.World.Heap
/-!
Host values that cross the boundary and come back. What is encoded is lifted as it was, and costs one
reference if it is a text or an object. The guest's copy of a value stands for the value wherever it
is used: as an argument, stored in a property, and read back from there.
-/

set_option autoImplicit false

namespace Membrane

/-- The handle that a guest value refers to. -/
def Guest.Value.handles (a : Guest.Value) : List Handle := (a.ref?.map (·.handle)).toList

/-- Whether a value stays on the host and crosses by a handle. -/
def Host.Value.isKept : Host.Value → Bool
  | .string _ | .object _ => true
  | _ => false

namespace RefTable

/-- An encoding that stands for a value and is of its kind. -/
structure Depicts (heap : Host.Heap) (t : RefTable) (v : Host.Value) (raw : Raw) : Prop where
  means : t.meaning raw = .ok v
  string_iff : raw.kind = .string ↔ ∃ s, v = .string s
  function_iff : raw.kind = .function ↔ ∃ o, v = .object o ∧ heap.isCallable o
  isSome_handle? : raw.handle?.isSome = v.isKept

/-- A value was encoded. A text or an object was retained for that, at the handle that it has if it
has one. -/
structure Encoding (g : Host.Value) (heap : Host.Heap) (t : RefTable) (v : Host.Value) (raw : Raw)
    (t' : RefTable) : Prop extends Depicts heap t' v raw where
  known : ∀ h, v.isKept → t.lookup? v = some h → raw.handle? = some h
  gains : Gains g t raw.handle?.toList t'
  idle : v.isKept = false → t' = t

/-- A guest value is a copy of a host value: the same scalar or text, or a reference to a handle at
which the object is held. -/
inductive Copies (heap : Host.Heap) (r : RealmId) (t : RefTable) : Guest.Value → Host.Value → Prop
  | undefined : Copies heap r t .undefined .undefined
  | null : Copies heap r t .null .null
  | bool (b : Bool) : Copies heap r t (.bool b) (.bool b)
  | number (x : Number) : Copies heap r t (.number x) (.number x)
  | string (s : String) : Copies heap r t (.string s) (.string s)
  | object {h : Handle} {o : ObjectId} (held : t.get h = .ok (.object o))
      (plain : heap.isCallable o = false) : Copies heap r t (.object ⟨r, h⟩) (.object o)
  | function {h : Handle} {o : ObjectId} (held : t.get h = .ok (.object o))
      (callable : heap.isCallable o = true) : Copies heap r t (.function ⟨r, h⟩) (.object o)

variable {g : Host.Value} {t t' : RefTable} {heap heap' : Host.Heap} {r : RealmId}
  {a b : Guest.Value} {v : Host.Value}

namespace Copies

theorem sight (copies : Copies heap r t a v) : t.sight a = .ok v := by
  cases copies with
  | undefined | null | bool | number | string => rfl
  | object held | function held => exact held

theorem typeName (copies : Copies heap r t a v) : a.typeName = heap.typeName v := by
  cases copies with
  | undefined | null | bool | number | string => rfl
  | object _ kind | function _ kind =>
    rw [Host.Heap.typeName, kind]
    rfl

/-- A copy goes on to be one as long as its handle is live. -/
theorem later (copies : Copies heap r t a v) (sound : t.Sound g) (steady : Steady t t')
    (same : ∀ o, heap'.isCallable o = heap.isCallable o) : Copies heap' r t' a v := by
  cases copies with
  | undefined => exact .undefined
  | null => exact .null
  | bool b => exact .bool b
  | number x => exact .number x
  | string s => exact .string s
  | object held plain => exact .object (steady.get sound _ _ held) ((same _).trans plain)
  | function held callable => exact .function (steady.get sound _ _ held) ((same _).trans callable)

/-- There is one copy of a value. -/
theorem unique (sound : t.Sound g) (first : Copies heap r t a v) (second : Copies heap r t b v) :
    a = b := by
  have one {h k : Handle} {o : ObjectId} (here : t.get h = .ok (.object o))
      (there : t.get k = .ok (.object o)) : h = k :=
    sound.handle_unique h k _ _ ((get_eq_ok_iff _ _).mp here) ((get_eq_ok_iff _ _).mp there) rfl
  cases first with
  | undefined | null | bool | number | string =>
    cases second
    rfl
  | object held plain =>
    cases second with
    | object held' => rw [one held held']
    | function _ callable =>
      rw [plain] at callable
      cases callable
  | function held callable =>
    cases second with
    | object _ plain =>
      rw [callable] at plain
      cases plain
    | function held' => rw [one held held']

end Copies

end RefTable

namespace Act

open World RefTable

variable {r : RealmId} {g : Host.Value}

theorem exec_lowerRaw_encoding (w : World) (x : Realm) (present : w.realms[r]? = some x)
    (owner : x.owner = w.here) (sound : x.table.Sound g) {n : Nat} (room : x.table.RoomFor (n + 1))
    (v : Host.Value) :
    ∃ raw t, exec (lowerRaw r v) w = (.ok raw, w.withRealm r { x with table := t }) ∧
      Encoding g w.heap x.table v raw t := by
  -- A value without a handle leaves the table as it is.
  have scalar (raw : Raw) (same : lowerRaw r v = pure raw) (none : raw.handle? = none)
      (bare : v.isKept = false) (means : x.table.meaning raw = .ok v)
      (other : raw.kind ≠ .function ∧ raw.kind ≠ .string) :
      ∃ raw t, exec (lowerRaw r v) w = (.ok raw, w.withRealm r { x with table := t }) ∧
        Encoding g w.heap x.table v raw t := by
    refine ⟨raw, x.table, ?_, ⟨means, ⟨fun same => (other.2 same).elim, ?_⟩,
      ⟨fun same => (other.1 same).elim, ?_⟩, ?_⟩, ?_, ?_, fun _ => rfl⟩
    · rw [same, exec_pure, withRealm_self w r x present]
    · rintro ⟨s, rfl⟩
      cases bare
    · rintro ⟨o, rfl, _⟩
      cases bare
    · rw [none, bare]
      rfl
    · intro h kept
      rw [bare] at kept
      cases kept
    · rw [none]
      exact sound.gains_nothing
  -- Texts and objects are retained, whatever they are on the wire.
  have kept (kind : RawKind) (carries : kind = .string ∨ kind = .object ∨ kind = .function)
      (text : (∃ s, v = .string s) ∨ ∃ o, v = .object o)
      (texts : kind = .string ↔ ∃ s, v = .string s)
      (kinds : kind = .function ↔ ∃ o, v = .object o ∧ w.heap.isCallable o) :
      Encoding g w.heap x.table v (.ofHandle kind (x.table.retain v).1) (x.table.retain v).2 := by
    have carried := Raw.handle?_ofHandle kind (x.table.retain v).1 carries
    refine ⟨⟨?_, texts, kinds, ?_⟩, fun h _ known => ?_, ?_, ?_⟩
    · rw [meaning_ofHandle _ _ carries]
      exact (sound.retain_known room v text).1
    · rw [carried]
      rcases text with ⟨s, rfl⟩ | ⟨o, rfl⟩ <;> rfl
    · obtain ⟨e, live, same⟩ := sound.exists_known v h known
      rw [carried, retain_of_known sound v h e live same]
    · rw [carried]
      exact sound.gains_retain room v text
    · rcases text with ⟨s, rfl⟩ | ⟨o, rfl⟩ <;> rintro ⟨⟩
  have retained := exec_retain w r x present owner v
  cases v with
  | undefined => exact scalar .undefined rfl rfl rfl rfl (by constructor <;> rintro ⟨⟩)
  | null => exact scalar .null rfl rfl rfl rfl (by constructor <;> rintro ⟨⟩)
  | bool b => exact scalar (.ofBool b) rfl rfl rfl (meaning_ofBool b) (by constructor <;> rintro ⟨⟩)
  | number a => exact scalar (.ofNumber a) rfl rfl rfl rfl (by constructor <;> rintro ⟨⟩)
  | string s =>
    refine ⟨_, _, ?_, kept .string (.inl rfl) (.inl ⟨s, rfl⟩) ⟨fun _ => ⟨s, rfl⟩, fun _ => rfl⟩
      (by simp)⟩
    rw [lowerRaw, exec_bind, retained]
    rfl
  | object id =>
    cases callable : w.heap.isCallable id with
    | true =>
      refine ⟨_, _, ?_, kept .function (.inr (.inr rfl)) (.inr ⟨id, rfl⟩) (by simp)
        ⟨fun _ => ⟨id, rfl, callable⟩, fun _ => rfl⟩⟩
      rw [lowerRaw, exec_bind, exec_get, goOn_ok, exec_bind, retained, callable]
      rfl
    | false =>
      refine ⟨_, _, ?_, kept .object (.inr (.inl rfl)) (.inr ⟨id, rfl⟩) (by simp)
        (by simp [callable])⟩
      rw [lowerRaw, exec_bind, exec_get, goOn_ok, exec_bind, retained, callable]
      rfl

/-- An encoding of a value becomes the guest's copy of it, and the reference changes hands. The one to
a text is given back. -/
theorem exec_liftGuest_depicted (w : World) (x : Realm) (present : w.realms[r]? = some x)
    (owner : x.owner = w.here) (t : RefTable) (given : t.Sound g) (heap : Host.Heap)
    (v : Host.Value) (raw : Raw) (depicts : Depicts heap x.table v raw) (rest : List Handle)
    (gains : Gains g t (raw.handle?.toList ++ rest) x.table) :
    ∃ a table lowered frames,
      exec (liftGuest r raw) w = (.ok (.ok a), w.withRealm r { x with table, lowered, frames }) ∧
      Copies heap r table a v ∧ Gains g t (a.handles ++ rest) table ∧
      ∀ h, 0 < table.count h → table.value? h = x.table.value? h := by
  have means := depicts.means
  -- All but texts are taken over with the reference that they came with.
  have adopted (a : Guest.Value) (lifts : liftGuest r raw = pure (.ok a))
      (same : a.ref?.map (·.handle) = raw.handle?) (copies : Copies heap r x.table a v) :
      ∃ a table lowered frames,
        exec (liftGuest r raw) w = (.ok (.ok a), w.withRealm r { x with table, lowered, frames }) ∧
        Copies heap r table a v ∧ Gains g t (a.handles ++ rest) table ∧
        ∀ h, 0 < table.count h → table.value? h = x.table.value? h := by
    refine ⟨a, x.table, x.lowered, x.frames, ?_, copies, ?_, fun _ _ => rfl⟩
    · rw [lifts, exec_pure, withRealm_self w r x present]
    · rw [Guest.Value.handles, same]
      exact gains
  have carries (some : raw.handle?.isSome) (text : raw.kind ≠ .string) : ∃ o, v = .object o := by
    rw [depicts.isSome_handle?] at some
    cases v with
    | undefined | null | bool | number => cases some
    | string s => exact (text (depicts.string_iff.mpr ⟨s, rfl⟩)).elim
    | object o => exact ⟨o, rfl⟩
  unfold meaning at means
  cases kind : raw.kind with
  | undefined =>
    rw [kind] at means
    cases means
    exact adopted .undefined (by rw [liftGuest, kind]) (by rw [Raw.handle?, kind]; rfl) .undefined
  | null =>
    rw [kind] at means
    cases means
    exact adopted .null (by rw [liftGuest, kind]) (by rw [Raw.handle?, kind]; rfl) .null
  | boolean =>
    rw [kind] at means
    cases means
    exact adopted (.bool _) (by rw [liftGuest, kind]) (by rw [Raw.handle?, kind]; rfl) (.bool _)
  | number =>
    rw [kind] at means
    cases means
    exact adopted (.number _) (by rw [liftGuest, kind]) (by rw [Raw.handle?, kind]; rfl) (.number _)
  | string =>
    obtain ⟨s, rfl⟩ := depicts.string_iff.mp kind
    rw [kind] at means
    have text := (x.stringAt_eq_ok_iff w.heap.typeName _ s).mpr means
    obtain ⟨lowered, frames, read⟩ : ∃ lowered frames, x.read (.ofWire raw.int) =
        { x with table := x.table.releaseQuietly (.ofWire raw.int), lowered, frames } :=
      Realm.reads_eq [.ofWire raw.int] x
    have carried := raw.handle?_of_string kind
    refine ⟨.string s, x.table.releaseQuietly (.ofWire raw.int), lowered, frames, ?_, .string s, ?_,
      fun h live => ?_⟩
    · rw [exec_liftGuest_string w x present owner raw kind, text, read]
      rfl
    · refine gains.releaseAll given [.ofWire raw.int] rest fun h => ?_
      rw [carried, List.count_append]
      rfl
    · have here : 0 < x.table.count (.ofWire raw.int) :=
        gains.sound.count_pos_of_get _ _ means
      obtain ⟨t', released, _, _, values⟩ := gains.sound.release (.ofWire raw.int) here
      have quiet : x.table.releaseQuietly (.ofWire raw.int) = t' := by
        rw [RefTable.releaseQuietly, released]
      rw [quiet] at live ⊢
      exact values h live
  | object =>
    rw [kind] at means
    have carried : raw.handle? = some (.ofWire raw.int) := by rw [Raw.handle?, kind]
    obtain ⟨o, rfl⟩ := carries (by rw [carried]; rfl) (by rw [kind]; decide)
    have plain : heap.isCallable o = false := by
      cases callable : heap.isCallable o with
      | false => rfl
      | true =>
        have function := depicts.function_iff.mpr ⟨o, rfl, callable⟩
        rw [kind] at function
        cases function
    exact adopted (.object ⟨r, .ofWire raw.int⟩) (by rw [liftGuest, kind]) carried.symm
      (.object means plain)
  | function =>
    rw [kind] at means
    have carried : raw.handle? = some (.ofWire raw.int) := by rw [Raw.handle?, kind]
    obtain ⟨o, rfl, callable⟩ := depicts.function_iff.mp kind
    exact adopted (.function ⟨r, .ofWire raw.int⟩) (by rw [liftGuest, kind]) carried.symm
      (.function means callable)

/-- The guest's copy of a value costs a reference if it is one. -/
theorem exec_adopt (w : World) (x : Realm) (present : w.realms[r]? = some x)
    (owner : x.owner = w.here) (sound : x.table.Sound g) {n : Nat} (room : x.table.RoomFor (n + 1))
    (v : Host.Value) :
    ∃ a y, exec (adopt r v) w = (.ok (.ok a), w.withRealm r y) ∧ y.owner = x.owner ∧
      Copies w.heap r y.table a v ∧ Gains g x.table a.handles y.table := by
  obtain ⟨raw, t, lowered, encoding⟩ := exec_lowerRaw_encoding w x present owner sound room v
  have there := realm_withRealm w r x { x with table := t } present
  obtain ⟨a, table, strings, frames, lifted, copies, gains, _⟩ :=
    exec_liftGuest_depicted _ _ there owner x.table sound w.heap v raw encoding.toDepicts []
      (by rw [List.append_nil]; exact encoding.gains)
  rw [List.append_nil] at gains
  refine ⟨a, { x with table, lowered := strings, frames }, ?_, rfl, copies, gains⟩
  rw [adopt, exec_bind, lowered, goOn_ok, lifted, withRealm_withRealm]

/-- What is read of a property is the guest's copy of the value there. -/
theorem exec_getProperty (target : Guest.Value) (h : Handle) (home : target.ref? = some ⟨r, h⟩)
    (name : String) (w : World) (x : Realm) (present : w.realms[r]? = some x)
    (owner : x.owner = w.here) (o : ObjectId) (object : x.table.get h = .ok (.object o)) :
    exec (getProperty target name) w = exec (adopt r (w.heap.property o name)) w := by
  have encoded : exec (getRawProperty r h name) w =
      goOn (exec (lowerRaw r (w.heap.property o name)) w) fun raw => pure (.ok raw) := by
    rw [getRawProperty, exec_bind, exec_objectAt w x present owner h o object, goOn_ok]
    simp only [exec_bind, property, exec_get, goOn_ok, exec_pure]
  rw [getProperty, targetOf, home]
  simp only
  rw [exec_bind, encoded, adopt, exec_bind]
  rcases exec (lowerRaw r (w.heap.property o name)) w with ⟨halt | raw, u⟩ <;> rfl

/-- A copy that is stored is read back as the same copy, and the host finds the value itself. -/
theorem exec_putProperty_getProperty (target : Guest.Value) (h : Handle)
    (home : target.ref? = some ⟨r, h⟩) (name : String) (a : Guest.Value) (v : Host.Value) (w : World)
    (x : Realm) (present : w.realms[r]? = some x) (owner : x.owner = w.here)
    (sound : x.table.Sound g) (room : x.table.RoomFor 1) (o : ObjectId)
    (object : x.table.get h = .ok (.object o)) (there : (w.heap.get? o).isSome)
    (copies : Copies w.heap r x.table a v) :
    ∃ u y z, exec (putProperty target name a) w = (.ok (.ok ()), u) ∧
      u.heap.property o name = v ∧ u.realms[r]? = some y ∧ Gains g x.table [] y.table ∧
      exec (getProperty target name) u = (.ok (.ok a), u.withRealm r z) ∧
      Gains g y.table a.handles z.table := by
  obtain ⟨t, stored, gains⟩ :=
    exec_putProperty target h home name a v w x present owner sound room o object copies.sight
  have found := w.heap.property_setProperty o name v there
  have last : ((w.withRealm r { x with table := t }).withProperty o name v).realms[r]? =
      some { x with table := t } := realm_withRealm w r x { x with table := t } present
  obtain ⟨b, z, adopted, _, same, more⟩ :=
    exec_adopt _ { x with table := t } last owner gains.sound (gains.roomFor sound room) v
  have kept : Copies (w.heap.setProperty o name v) r z.table a v :=
    copies.later sound (gains.steady.trans more.steady sound gains.sound)
      (w.heap.isCallable_setProperty o name v)
  obtain rfl := kept.unique more.sound same
  refine ⟨_, { x with table := t }, z, stored, found, last, gains, ?_, more⟩
  rw [exec_getProperty target h home name _ { x with table := t } last owner o
    (gains.steady.get sound h _ object), ← adopted]
  exact congrArg (fun v => exec (adopt r v) _) found

/-- A value that crosses into a realm comes back as it was. Lifting its encoding gives the value
itself, and the guest's copy of it has its type. Wherever the copy is live, a call that gets it as an
argument is a call with the value, and storing it stores the value and reads back as the copy. -/
theorem value_crosses_and_returns (w : World) (r : RealmId) (x : Realm) (g : Host.Value)
    (present : w.realms[r]? = some x) (owner : x.owner = w.here) (sound : x.table.Sound g)
    (room : x.table.RoomFor 1) (v : Host.Value) :
    (∃ raw t, exec (lowerRaw r v) w = (.ok raw, w.withRealm r { x with table := t }) ∧
      exec (liftRaw r raw) (w.withRealm r { x with table := t }) =
        (.ok (.ok v), w.withRealm r { x with table := t }) ∧
      Encoding g w.heap x.table v raw t) ∧
    ∃ a y, exec (adopt r v) w = (.ok (.ok a), w.withRealm r y) ∧ y.owner = x.owner ∧
      a.typeName = w.heap.typeName v ∧ Copies w.heap r y.table a v ∧
      Gains g x.table a.handles y.table ∧
      ∀ (u : World) (z : Realm) (target : Guest.Value) (h : Handle) (o : ObjectId),
        u.realms[r]? = some z → z.owner = u.here → z.table.Sound g →
        Copies u.heap r z.table a v →
        target.ref? = some ⟨r, h⟩ → z.table.get h = .ok (.object o) →
        (∀ (p : Performer) (how : Reflection) (front back : List Guest.Value)
            (before after : List Host.Value),
          List.Forall₂ (fun b u => z.table.sight b = .ok u) front before →
          List.Forall₂ (fun b u => z.table.sight b = .ok u) back after →
          z.table.RoomFor (front ++ a :: back).length →
          ∃ raws made t, Prepared g z.table (front ++ a :: back) raws made t ∧
            exec (reflectGuest p target how (front ++ a :: back)) u =
              exec (do concluded r made (← finish r (← reflectObject p o how
                (before ++ v :: after)))) (u.withRealm r { z with table := t })) ∧
        ∀ (name : String), (u.heap.get? o).isSome → z.table.RoomFor 1 →
          ∃ u' y' z', exec (putProperty target name a) u = (.ok (.ok ()), u') ∧
            u'.heap.property o name = v ∧ u'.realms[r]? = some y' ∧ Gains g z.table [] y'.table ∧
            exec (getProperty target name) u' = (.ok (.ok a), u'.withRealm r z') ∧
            Gains g y'.table a.handles z'.table := by
  obtain ⟨raw, t, lowered, encoding⟩ := exec_lowerRaw_encoding w x present owner sound room v
  have there := realm_withRealm w r x { x with table := t } present
  have lifted := exec_liftRaw_meaning _ _ there owner raw
  rw [encoding.means] at lifted
  obtain ⟨a, y, adopted, stays, copies, gains⟩ := exec_adopt w x present owner sound room v
  refine ⟨⟨raw, t, lowered, lifted, encoding⟩, a, y, adopted, stays, copies.typeName, copies, gains, ?_⟩
  intro u z target h o here mine sound' copy home object
  refine ⟨fun p how front back before after first last room' => ?_, fun name exist room' =>
    exec_putProperty_getProperty target h home name a v u z here mine sound' room' o object exist
      copy⟩
  obtain ⟨raws, made, t', prepared, _, called⟩ := exec_reflectGuest p target h home how
    (front ++ a :: back) u z here mine sound' (n := 0) (by rwa [Nat.zero_add]) o object
  have all : List.Forall₂ (fun b u => t'.sight b = .ok u) (front ++ a :: back)
      (before ++ v :: after) :=
    (List.rel_append first (.cons copy.sight last)).imp fun b u seen =>
      prepared.steady.sight sound' b u seen
  rw [mapM_sight _ _ all] at called
  exact ⟨raws, made, t', prepared, called⟩

/-- A world with one realm and an object beside its global object. -/
def furnished : World := { World.lone .blank [] with heap := ⟨#[.plain none, .plain none]⟩ }

/-- An object crosses, is passed to a call, stored in the global object, and read back. -/
theorem value_crosses_and_returns_object :
    ∃ raw t a u u' z,
      exec (lowerRaw 0 (.object 1)) furnished =
        (.ok raw, furnished.withRealm 0 { Realm.blank with table := t }) ∧
      exec (liftRaw 0 raw) (furnished.withRealm 0 { Realm.blank with table := t }) =
        (.ok (.ok (.object 1)), furnished.withRealm 0 { Realm.blank with table := t }) ∧
      exec (adopt 0 (.object 1)) furnished = (.ok (.ok a), u) ∧
      (∃ made v, exec (reflectGuest outermost (.object ⟨0, .globalObject⟩) .call [a]) u =
        exec (do concluded 0 made (← finish 0 (← reflectObject outermost 0 .call [.object 1]))) v) ∧
      exec (putProperty (.object ⟨0, .globalObject⟩) "x" a) u = (.ok (.ok ()), u') ∧
      u'.heap.property 0 "x" = .object 1 ∧
      exec (getProperty (.object ⟨0, .globalObject⟩) "x") u' = (.ok (.ok a), z) := by
  have sound : Realm.blank.table.Sound (.object 0) := create_sound .dense (.object 0)
  have room : Realm.blank.table.RoomFor 2 := create_roomFor .dense (.object 0) (by decide)
  obtain ⟨⟨raw, t, lowered, lifted, _⟩, a, y, adopted, stays, _, copies, gains, used⟩ :=
    value_crosses_and_returns furnished 0 .blank (.object 0) rfl rfl sound
      (room.mono (by decide)) (.object 1)
  have global : y.table.get .globalObject = .ok (.object 0) :=
    gains.steady.get sound _ _ ((get_eq_ok_iff _ _).mpr sound.root)
  have one : (a.ref?.map (·.handle)).toList.length ≤ 1 := Option.length_toList_le
  have left : y.table.RoomFor 1 := gains.roomFor sound (room.mono (Nat.add_le_add_left one 1))
  have there : (furnished.withRealm 0 y).realms[0]? = some y := realm_withRealm furnished 0 .blank y rfl
  obtain ⟨passed, stored⟩ := used (furnished.withRealm 0 y) y (.object ⟨0, .globalObject⟩)
    .globalObject 0 there stays gains.sound copies rfl global
  obtain ⟨_, made, t', _, called⟩ := passed outermost .call [] [] [] [] .nil .nil left
  obtain ⟨u', _, z, put, read, _, _, got, _⟩ := stored "x" rfl left
  exact ⟨raw, t, a, _, u', _, lowered, lifted, adopted, ⟨made, _, called⟩, put, read, got⟩

end Act

end Membrane
