import Membrane.Foreign.Guest
import Membrane.Proofs.Closures.Kept
import Membrane.Proofs.Crossing.ForeignRealm
import Membrane.Proofs.Crossing.Passing
/-!
Calls of guest functions from the host. The function runs once, on copies of the arguments, and the
host gets what it returned or threw. Between the two the call takes a reference for each copy that
needs one, gives it back after the function is done, and hands on the one that the result brings.
So it leaves as many references as there were if the function does, whether or not the result shares
its handle with an argument, and whatever the function did to its own registration.
-/

set_option autoImplicit false

namespace Membrane

open RefTable Guest.Value

/-- The host value that a guest value denotes. -/
def World.seen? (w : World) : Guest.Value → Option Host.Value
  | .undefined => some .undefined
  | .null => some .null
  | .bool b => some (.bool b)
  | .number x => some (.number x)
  | .string s => some (.string s)
  | .object ref | .function ref => w.denoted? ref

/-- What the host gets of what a guest function returned or threw. -/
inductive World.Delivers (w : World) :
    Except Host.Value Guest.Value → Except Host.Value Host.Value → Prop
  | threw (v : Host.Value) : Delivers w (.error v) (.error v)
  | gave {a : Guest.Value} {v : Host.Value} (seen : w.seen? a = some v) :
    Delivers w (.ok a) (.ok v)

/-- A guest function is about to run in a world that was left for it: its values are copies of the
arguments and own a reference each, and nothing else happened to the realm, but that guest functions
without a function object were forgotten and texts struck off. -/
structure World.Entered (g : Host.Value) (w : World) (r : RealmId) (x : Realm)
    (args : List Host.Value) (values : List Guest.Value) (v : World) (y : Realm) : Prop where
  world : ∃ t, v = (w.withRealm r { x with table := t }).sweep.withRealm r y
  present : v.realms[r]? = some y
  owner : y.owner = v.here
  copies : List.Forall₂ (Copies w.heap r y.table) values args
  gains : Gains g x.table (handlesOf values) y.table
  exception : y.exception = x.exception

namespace RefTable

variable {g : Host.Value} {t : RefTable}

/-- A guest value whose handle is live stands for something. -/
theorem Sound.exists_sight (sound : t.Sound g) (a : Guest.Value)
    (live : ∀ h ∈ a.handles, 0 < t.count h) : ∃ v, t.sight a = .ok v := by
  cases a with
  | undefined | null | bool | number | string => exact ⟨_, rfl⟩
  | object ref | function ref =>
    obtain ⟨e, found⟩ := sound.exists_entry ref.handle (live _ List.mem_cons_self)
    refine ⟨e.value, (get_eq_ok_iff _ _).mpr ?_⟩
    rw [value?, found, Option.map_some]

end RefTable

namespace World

variable {w : World} {r : RealmId} {x : Realm}

/-- A guest function that is registered is found as long as its function object is in the hands of a
call. -/
theorem guestFunction?_of_pinned (present : w.realms[r]? = some x) (held : w.holdsRealm r = true)
    {id : FunctionId} {f : Guest.Function} (known : x.closures.get? id = some f) {o : ObjectId}
    (there : o < w.heap.objects.size) (pinned : .object o ∈ w.pins)
    (only : ∀ i object, w.heap.get? i = some object → object.kind = .guestFunction r id → i = o) :
    w.guestFunction? r id = some f := by
  have lives : w.living.objects o := living_objects_of_copy there (.inFlight pinned)
  have kept : w.isForgotten w.survivors r id = false := by
    refine (isForgotten_iff present id).mpr fun _ i object found kind => ?_
    rw [only i object found kind]
    exact lives
  rw [guestFunction?, realms_sweep_of_held held present, Option.bind_some]
  refine (lookup_filter (fun i => !w.isForgotten w.survivors r i) x.closures.entries id).trans ?_
  rw [kept]
  exact known

/-- What a value of a realm denotes is what its table shows. -/
theorem seen?_eq_some_iff (present : w.realms[r]? = some x) (a : Guest.Value) (v : Host.Value)
    (home : ∀ ref, a.ref? = some ref → ref.realm = r) :
    w.seen? a = some v ↔ x.table.sight a = .ok v := by
  have read (ref : Guest.Ref) (same : ref.realm = r) :
      w.denoted? ref = some v ↔ x.table.get ref.handle = .ok v := by
    rw [denoted?, same, Act.held?_of_present w x present, get_eq_ok_iff]
  cases a with
  | undefined | null | bool | number | string =>
    exact ⟨fun same => congrArg Except.ok (Option.some.inj same),
      fun same => congrArg some (Except.ok.inj same)⟩
  | object ref | function ref => exact read ref (home ref rfl)

end World

namespace Act

open World

variable {p : Performer} {r : RealmId} {g : Host.Value}

/-- Encoding a result is a matter of the table. -/
theorem encode_snd (x : Realm) (a : Guest.Value) :
    (x.encode a).2 = { x with table := (x.encode a).2.table } := by
  cases a <;> rfl

/-- The encoding of a result stands for what the result stands for. -/
theorem meaning_encode (x : Realm) (sound : x.table.Sound g) (room : x.table.RoomFor 1)
    (a : Guest.Value) (v : Host.Value) (seen : x.table.sight a = .ok v) :
    (x.encode a).2.table.meaning (x.encode a).1 = .ok v := by
  cases a with
  | undefined | null | number => exact seen
  | bool b => exact (meaning_ofBool b).trans seen
  | string s =>
    have known := (sound.retain_known room (.string s) (.inl ⟨s, rfl⟩)).1
    exact (meaning_ofHandle .string _ (.inl rfl)).trans (known.trans seen)
  | object ref => exact (meaning_ofHandle .object _ (.inr (.inl rfl))).trans seen
  | function ref => exact (meaning_ofHandle .function _ (.inr (.inr rfl))).trans seen

/-- A value stands for the same after references to others were given back. -/
theorem sight_releaseAll {t : RefTable} (sound : t.Sound g) (hs : List Handle) (a : Guest.Value)
    (v : Host.Value) (seen : t.sight a = .ok v) (owned : ∀ h ∈ a.handles, hs.count h < t.lent h) :
    (hs.foldl RefTable.releaseQuietly t).sight a = .ok v := by
  cases a with
  | undefined | null | bool | number | string => exact seen
  | object ref | function ref =>
    have spare := owned ref.handle List.mem_cons_self
    have live : 0 < (hs.foldl RefTable.releaseQuietly t).count ref.handle := by
      have counted := (sound.releaseAll hs).1.count_eq_lent ref.handle
      have less := (sound.releaseAll hs).2 ref.handle
      omega
    exact (get_congr _ (sound.value?_releaseAll hs _ live)).trans seen

/-- What is done after a guest function is done, until the host has its result. -/
def handedOver (r : RealmId) (values : List Guest.Value) (outcome : Except Host.Value Guest.Value) :
    Act (Except Host.Value Host.Value) := do
  values.forM releaseGuestQuietly
  match outcome with
  | .error v => return .error v
  | .ok a =>
    let raw ← encodeResult r a
    match ← liftRaw r raw with
    | .error e => throwFault e
    | .ok v =>
      match raw.handle? with
      | some h => releaseQuietly r h
      | none => pure ()
      return .ok v

/-- The host reads an encoding and gives the reference back that came with it. -/
theorem exec_readOver (w : World) (x : Realm) (present : w.realms[r]? = some x)
    (owner : x.owner = w.here) (sound : x.table.Sound g) (raw : Raw) (v : Host.Value)
    (means : x.table.meaning raw = .ok v) :
    ∃ t, exec (do
        match ← liftRaw r raw with
        | .error e => throwFault e
        | .ok v =>
          match raw.handle? with
          | some h => releaseQuietly r h
          | none => pure ()
          return .ok v) w = (.ok (.ok v), w.withRealm r { x with table := t }) ∧
      t.Sound g ∧ ∀ h, t.lent h = x.table.lent h - raw.handle?.toList.count h := by
  have lifted := exec_liftRaw_meaning w x present owner raw
  rw [means] at lifted
  cases raw.handle? with
  | none =>
    refine ⟨x.table, ?_, sound, fun h => rfl⟩
    rw [exec_bind, lifted, goOn_ok, withRealm_self w r x present]
    rfl
  | some h =>
    obtain ⟨kept, less⟩ := sound.releaseQuietly h
    refine ⟨x.table.releaseQuietly h, ?_, kept, fun k => ?_⟩
    · rw [exec_bind, lifted, goOn_ok]
      simp only
      rw [exec_bind, exec_releaseQuietly w r x present owner h, goOn_ok, Realm.releaseQuietly_eq]
      rfl
    · rw [less k, Option.toList_some, Handle.count_cons, List.count_nil, Nat.zero_add]

/-- The references of the arguments are given back, and the one that the result brings. The host
gets what the result denotes, as long as the function returned a reference of its own. -/
theorem exec_handedOver (u : World) (z : Realm) (present : u.realms[r]? = some z)
    (owner : z.owner = u.here) (sound : z.table.Sound g) (room : z.table.RoomFor 1)
    (values : List Guest.Value) (hs : List Handle) (refs : RefsAre r values hs)
    (outcome : Except Host.Value Guest.Value)
    (home : ∀ a ref, outcome = .ok a → a.ref? = some ref → ref.realm = r)
    (owned : ∀ h ∈ returned outcome, hs.count h < z.table.lent h) :
    ∃ result t, exec (handedOver r values outcome) u =
        (.ok result, u.withRealm r { z with table := t }) ∧
      u.Delivers outcome result ∧ t.Sound g ∧
      ∀ h, t.lent h = z.table.lent h - hs.count h - (returned outcome).count h := by
  have released := exec_releaseGuests values hs refs u z present owner
  obtain ⟨kept, less⟩ := sound.releaseAll hs
  cases outcome with
  | error v =>
    refine ⟨.error v, _, ?_, .threw v, kept, less⟩
    rw [handedOver, exec_bind, released, goOn_ok]
    rfl
  | ok a =>
    obtain ⟨v, shown⟩ := sound.exists_sight a fun h member =>
      (Nat.zero_le _).trans_lt ((owned h member).trans_le (lent_le_count _ h))
    have seen := (seen?_eq_some_iff present a v fun ref => home a ref rfl).mpr shown
    let y : Realm := { z with table := hs.foldl RefTable.releaseQuietly z.table }
    have room' : y.table.RoomFor 1 := room.releaseAll sound hs
    have there := realm_withRealm u r z y present
    have encoded := exec_encodeResult _ y there owner a
    have means := meaning_encode y kept room' a v (sight_releaseAll sound hs a v shown owned)
    have last := realm_withRealm _ r y (y.encode a).2 there
    have mine : (y.encode a).2.owner = u.here := (congrArg Realm.owner (encode_snd y a)).trans owner
    obtain ⟨sound', counted⟩ := lent_answer y kept room' (.ok a)
    obtain ⟨t, read, sound'', fewer⟩ :=
      exec_readOver _ (y.encode a).2 last mine sound' (y.encode a).1 v means
    refine ⟨.ok v, t, ?_, .gave seen, sound'', fun h => ?_⟩
    · rw [handedOver, exec_bind, released, goOn_ok, exec_bind, encoded, goOn_ok, read,
        withRealm_withRealm, withRealm_withRealm, encode_snd y a]
    · have even : (y.encode a).2.table.lent h + (returned (.ok a)).count h =
          y.table.lent h + (y.encode a).1.handle?.toList.count h := counted h
      have fewer := fewer h
      have less : y.table.lent h = z.table.lent h - hs.count h := less h
      omega

/-- A call through a function object from its beginning: the function runs on copies of the
arguments, and what it returned or threw is handed over. -/
theorem exec_callThroughObject (id : FunctionId) (f : Guest.Function) (args : List Host.Value)
    (w : World) (x : Realm) (present : w.realms[r]? = some x) (owner : x.owner = w.here)
    (held : w.holdsRealm r = true) (sound : x.table.Sound g)
    (room : x.table.RoomFor (1 + args.length))
    (known : ∀ t, (w.withRealm r { x with table := t }).guestFunction? r id = some f) :
    ∃ values v y, w.Entered g r x args values v y ∧
      exec (callThroughObject p r id args) w =
        goOn (exec (runBody p f values) v) (handedOver r values) := by
  obtain ⟨raws, t, lowered, depicts, gains⟩ :=
    exec_lowerRaws_depicted args w x present owner sound room
  have there := realm_withRealm w r x { x with table := t } present
  obtain ⟨closures, swept⟩ := (w.withRealm r { x with table := t }).realms_sweep r _ there
  have stays : x.owner = (w.withRealm r { x with table := t }).sweep.here :=
    owner.trans (w.withRealm r { x with table := t }).here_sweep.symm
  obtain ⟨values, table, strings, frames, lifted, copies, taken⟩ :=
    exec_liftGuests_depicted sound raws [] [] _ { x with table := t, closures } swept stays depicts
      .nil gains
  refine ⟨values, _, { x with table, lowered := strings, frames, closures }, ⟨⟨t, rfl⟩,
    realm_withRealm _ r _ _ swept, stays, copies, taken, rfl⟩, ?_⟩
  rw [callThroughObject, exec_bind, exec_get, goOn_ok, exec_ite, if_neg (by simp [held]), exec_bind,
    lowered, goOn_ok, exec_bind, exec_callFunction id raws _ _ there owner, known t]
  simp only
  rw [lifted, goOn_ok]
  simp only [List.nil_append]
  rw [exec_bind]
  rcases exec (runBody p f values) _ with ⟨halt | outcome, u⟩
  · rfl
  · rw [goOn_ok, goOn_ok, exec_bind]
    cases outcome with
    | error v =>
      rw [handedOver, exec_bind]
      rcases exec (values.forM releaseGuestQuietly) u with ⟨halt | _, u'⟩ <;> rfl
    | ok a =>
      rw [handedOver, exec_bind]
      rcases exec (values.forM releaseGuestQuietly) u with ⟨halt | _, u'⟩
      · rfl
      · rw [goOn_ok, goOn_ok, exec_bind, exec_bind]
        rcases exec (encodeResult r a) u' with ⟨halt | raw, u''⟩ <;> rfl

/-- A guest function is transparent to the host. A call of its function object, from outside or from
inside other calls, runs it once on copies of the arguments. A halt of it is a halt of the call.
Otherwise the host gets what it returned or threw, and the realm is as the function left it but for
the references: those of the arguments are gone, and the one that the result brought. So the counts
are what they were before the call if they were even for the function. -/
theorem host_call_of_guest_function (depth : Nat) (w : World) (o : ObjectId) (object : Host.Object)
    (r : RealmId) (id : FunctionId) (f : Guest.Function) (x : Realm) (g this : Host.Value)
    (args : List Host.Value) (there : w.heap.get? o = some object)
    (kind : object.kind = .guestFunction r id)
    (only : ∀ i y, w.heap.get? i = some y → y.kind = .guestFunction r id → i = o)
    (present : w.realms[r]? = some x) (owner : x.owner = w.here) (held : w.holdsRealm r = true)
    (known : x.closures.get? id = some f) (sound : x.table.Sound g)
    (room : x.table.RoomFor (1 + args.length)) :
    (∃ values v y, (w.pinned (.object o :: this :: args)).Entered g r x args values v y ∧
      (∀ halt u, exec (runBody (performer depth) f values) v = (.error halt, u) →
        exec (callObject (performer depth) o this args) w =
          (.error halt, { u with pins := w.pins })) ∧
      ∀ outcome u, exec (runBody (performer depth) f values) v = (.ok outcome, u) →
        ∃ z, u.realms[r]? = some z ∧
          (z.table.Sound g → z.table.RoomFor 1 →
            (∀ a ref, outcome = .ok a → a.ref? = some ref → ref.realm = r) →
            ((∀ h ∈ returned outcome, (handlesOf values).count h < z.table.lent h) ∨
              ∀ h, z.table.count h = y.table.count h + (returned outcome).count h) →
            ∃ result t, exec (callObject (performer depth) o this args) w =
                (.ok result, { u.withRealm r { z with table := t } with pins := w.pins }) ∧
              u.Delivers outcome result ∧
              ((∀ h, z.table.count h = y.table.count h + (returned outcome).count h) →
                ∀ h, t.count h = x.table.count h))) ∧
    exec (performer (depth + 1) (.apply o this args)) w =
      goOn (exec (callObject (performer depth) o this args) w) fun result => do
        hold ((Request.apply o this args).received result)
        return result := by
  refine ⟨?_, by rw [performer, perform, handing, exec_bind]; rfl⟩
  let w' := w.pinned (.object o :: this :: args)
  have found (t : RefTable) :
      (w'.withRealm r { x with table := t }).guestFunction? r id = some f :=
    guestFunction?_of_pinned (realm_withRealm w' r x { x with table := t } present) held known
      (Array.getElem?_eq_some_iff.mp there).1 List.mem_cons_self only
  obtain ⟨values, v, y, entered, ran⟩ := exec_callThroughObject (p := performer depth) id f args w'
    x present owner held sound room found
  have called : exec (callObject (performer depth) o this args) w =
      ((goOn (exec (runBody (performer depth) f values) v) (handedOver r values)).1,
        { (goOn (exec (runBody (performer depth) f values) v) (handedOver r values)).2 with
          pins := w.pins }) := by
    rw [callObject, exec_bind, exec_fetch _ w object there, goOn_ok, exec_pinning, kind, ← ran]
  refine ⟨values, v, y, entered, fun halt u halted => ?_, fun outcome u done => ?_⟩
  · rw [called, halted]
    rfl
  · have inside : OnCourse (runBody (performer depth) f values) :=
      .onHalt (.pinning _ (OnCourse.code (OnCourse.performer depth) _))
    have along := inside v u outcome done
    obtain ⟨_, z, last, course⟩ := along.course r y entered.present
    have stays : z.owner = u.here := course.frames.1.trans (entered.owner.trans along.here.symm)
    refine ⟨z, last, fun sound' room' home owned => ?_⟩
    have began (h : Handle) : y.table.count h = x.table.count h + (handlesOf values).count h := by
      rw [entered.gains.sound.count_eq_lent, entered.gains.lent, sound.count_eq_lent]
      omega
    have spare : ∀ h ∈ returned outcome, (handlesOf values).count h < z.table.lent h := by
      rcases owned with owned | even
      · exact owned
      · intro h member
        have one := List.count_pos_iff.mpr member
        have even := even h
        have held := sound.count_eq_lent h
        rw [sound'.count_eq_lent, began, held] at even
        omega
    obtain ⟨result, t, handed, delivers, sound'', lent⟩ := exec_handedOver u z last stays sound'
      room' values _ (refsAre_of_copies entered.copies) outcome home spare
    refine ⟨result, t, ?_, delivers, fun even h => ?_⟩
    · rw [called, done, goOn_ok, handed]
    · have lent := lent h
      have even := even h
      have held := sound.count_eq_lent h
      rw [sound'.count_eq_lent, began, held] at even
      rw [sound''.count_eq_lent, lent, held]
      omega

/-- A function that returns its first argument takes a reference for the host. -/
theorem exec_runBody_echo (depth : Nat) (r : RealmId) (h : Handle) (w : World) (x : Realm)
    (present : w.realms[r]? = some x) (owner : x.owner = w.here) (t : RefTable)
    (retained : x.table.retainHandle h = .ok t) :
    exec (runBody (performer (depth + 1)) (.echo 0) [.object ⟨r, h⟩]) w =
      (.ok (.ok (.object ⟨r, h⟩)), w.withRealm r { x with table := t }) := by
  have taken : x.retainHandle h = .ok { x with table := t } := by
    rw [Realm.retainHandle, retained]
    rfl
  have copied (u : World) (there : u.realms[r]? = some x) (mine : x.owner = u.here) :
      exec (performer (depth + 1) (.duplicate (.object ⟨r, h⟩))) u =
        (.ok (.ok (.object ⟨r, h⟩)), u.withRealm r { x with table := t }) := by
    have kept := exec_retainHandle u r x there mine h
    rw [taken] at kept
    have again : exec (duplicate (.object ⟨r, h⟩)) u =
        (.ok (.ok (.object ⟨r, h⟩)), u.withRealm r { x with table := t }) := by
      rw [duplicate, copyRef, exec_bind, exec_bind, kept]
      rfl
    exact exec_perform_of_bare _ _ _ _ _ rfl again
  have ran : exec (((Guest.Function.echo 0).run [.object ⟨r, h⟩]).exec (performer (depth + 1)))
      (w.pinned []) = (.ok (.ok (.object ⟨r, h⟩)),
        (w.pinned []).withRealm r { x with table := t }) := by
    refine (exec_bind (performer (depth + 1) (.duplicate (.object ⟨r, h⟩))) _ _).trans ?_
    exact congrArg (goOn · _) (copied (w.pinned []) present owner)
  have held : exec (pinning (Guest.Function.echo 0).holds
      (((Guest.Function.echo 0).run [.object ⟨r, h⟩]).exec (performer (depth + 1)))) w =
        (.ok (.ok (.object ⟨r, h⟩)), w.withRealm r { x with table := t }) :=
    (exec_pinning _ _ w).trans
      (congrArg (fun result => (result.1, { result.2 with pins := w.pins })) ran)
  rw [runBody, onHalt, exec_tryCatch, held]

/-- A world in which a function that returns its argument is registered. -/
def lending : World :=
  { inUse with
    heap := ⟨#[.plain none, ⟨some Host.Object.functionClass, .guestFunction 0 ⟨1⟩, []⟩, .plain none]⟩
    realms := #[{ Realm.blank with closures := ⟨2, [(⟨1⟩, .echo 0)]⟩ }] }

/-- The host gets the object back that it passed, and every count is what it was. -/
theorem host_call_of_guest_function_of_echo :
    ∃ u z, exec (callObject (performer 1) 1 .undefined [.object 2]) lending =
        (.ok (.ok (.object 2)), u) ∧
      u.realms[0]? = some z ∧ ∀ h, z.table.count h = Realm.blank.table.count h := by
  have sound : Realm.blank.table.Sound (.object 0) := create_sound .dense (.object 0)
  have room : Realm.blank.table.RoomFor 3 := create_roomFor .dense (.object 0) (by decide)
  have only (i : ObjectId) (y : Host.Object) (found : lending.heap.get? i = some y)
      (kind : y.kind = .guestFunction 0 ⟨1⟩) : i = 1 := by
    match i, found with
    | 0, found | 2, found =>
      cases found
      cases kind
    | 1, _ => rfl
  obtain ⟨⟨values, v, y, entered, _, ends⟩, _⟩ := host_call_of_guest_function 1 lending 1 _ 0 ⟨1⟩
    (.echo 0) _ (.object 0) .undefined [.object 2] rfl rfl only rfl rfl rfl rfl sound
    (room.mono (by decide))
  obtain ⟨a, rfl, copy⟩ : ∃ a, values = [a] ∧ Copies lending.heap 0 y.table a (.object 2) := by
    cases entered.copies with
    | cons copy rest =>
      cases rest
      exact ⟨_, rfl, copy⟩
  cases copy with
  | function _ callable => cases callable
  | @object h _ known _ =>
    have room' : y.table.RoomFor 2 := entered.gains.roomFor sound room
    obtain ⟨e, found⟩ := entered.gains.sound.exists_entry h
      (entered.gains.count_pos h List.mem_cons_self)
    have retained := retainHandle_of_live h e found
    obtain ⟨sound', left, lent⟩ := entered.gains.sound.retainHandle_lent h room' retained
    have ran := exec_runBody_echo 0 0 h v y entered.present entered.owner _ retained
    obtain ⟨z, last, ends⟩ := ends _ _ ran
    have there := realm_withRealm v 0 y { y with table := y.table.recount h (e.refcount + 1) }
      entered.present
    obtain rfl := Option.some.inj (there.symm.trans last)
    have even (k : Handle) : (y.table.recount h (e.refcount + 1)).count k =
        y.table.count k + (returned (.ok (.object ⟨0, h⟩))).count k := by
      rw [sound'.count_eq_lent, lent, entered.gains.sound.count_eq_lent, Nat.add_right_comm]
      exact congrArg _ ((h.count_cons [] k).trans (Nat.zero_add _)).symm
    obtain ⟨result, t, called, delivers, before⟩ := ends sound' left (fun _ _ same home => by
      cases same
      cases home
      rfl) (.inr even)
    cases delivers with
    | @gave _ result seen =>
      have shown := (seen?_eq_some_iff last (.object ⟨0, h⟩) result fun _ same => by
        cases same
        rfl).mp seen
      have kept : (y.table.recount h (e.refcount + 1)).get h = .ok (.object 2) :=
        (get_congr _ (value?_recount h e _ found h)).trans known
      cases kept.symm.trans shown
      exact ⟨_, _, called, realm_withRealm _ 0 _ _ last, before even⟩

end Act

end Membrane
