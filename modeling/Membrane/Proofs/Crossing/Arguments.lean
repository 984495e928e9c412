import Membrane.Proofs.Crossing.Meaning
/-!
Guest values as arguments. A text is retained for the time of the operation; a reference is passed as
its handle. What the host is given is what the table of the realm that the operation is on holds at
the handles once the texts are retained.
-/

set_option autoImplicit false

namespace Membrane

namespace RefTable

/-- Borrowed values were encoded: a reference was taken for each handle that was made for a text, and
as long as those are live the encodings stand for what the values stand for. -/
structure Prepared (g : Host.Value) (t : RefTable) (args : List Guest.Value) (raws : List Raw)
    (made : List Handle) (t' : RefTable) : Prop extends Gains g t made t' where
  means : ∀ later, Steady t' later → raws.map later.meaning = args.map later.sight

variable {g : Host.Value} {t t' t'' : RefTable}

theorem Sound.prepared_of_borrowed (sound : t.Sound g) (a : Guest.Value) (raw : Raw)
    (means : ∀ later : RefTable, later.meaning raw = later.sight a) :
    Prepared g t [a] [raw] [] t :=
  ⟨sound.gains_nothing, fun later _ => congrArg (fun m => [m]) (means later)⟩

theorem Sound.prepared_of_text (sound : t.Sound g) {n : Nat} (room : t.RoomFor (n + 1))
    (s : String) :
    Prepared g t [.string s] [.ofHandle .string (t.retain (.string s)).1]
      [(t.retain (.string s)).1] (t.retain (.string s)).2 := by
  have gains := sound.gains_retain room (.string s) (.inl ⟨s, rfl⟩)
  refine ⟨gains, fun later still => ?_⟩
  have known := (sound.retain_known room (.string s) (.inl ⟨s, rfl⟩)).1
  rw [List.map_singleton, List.map_singleton, meaning_ofHandle _ _ (.inl rfl),
    still.get gains.sound _ _ known]
  rfl

theorem Prepared.append {args more : List Guest.Value} {raws others : List Raw}
    {made extra : List Handle} (first : Prepared g t args raws made t')
    (rest : Prepared g t' more others extra t'') (sound : t.Sound g) :
    Prepared g t (args ++ more) (raws ++ others) (made ++ extra) t'' := by
  refine ⟨first.toGains.trans rest.toGains sound, fun later still => ?_⟩
  have through := rest.steady.trans still first.sound rest.sound
  rw [List.map_append, List.map_append, first.means later through, rest.means later still]

/-- Arguments whose encodings stand for what they stand for are seen alike. -/
theorem mapM_meaning (raws : List Raw) (args : List Guest.Value)
    (same : raws.map t.meaning = args.map t.sight) :
    raws.mapM t.meaning = args.mapM t.sight := by
  induction raws generalizing args with
  | nil =>
    cases args with
    | nil => rfl
    | cons => cases same
  | cons raw raws ih =>
    cases args with
    | nil => cases same
    | cons a args =>
      obtain ⟨head, tail⟩ := List.cons.inj same
      rw [List.mapM_cons, List.mapM_cons, head, ih args tail]

/-- The object at a handle, given the names of types. -/
def objectAt (t : RefTable) (typeName : Host.Value → String) (h : Handle) : Except Fault ObjectId :=
  match t.get h with
  | .error e => .error e
  | .ok (.object o) => .ok o
  | .ok v => .error (.valueMismatch "object" (typeName v))

/-- An object and what arguments stand for; at the first that is missing there is a fault. -/
def callee? (t : RefTable) (typeName : Host.Value → String) (h : Handle)
    (args : List Guest.Value) : Except Fault (ObjectId × List Host.Value) := do
  let o ← t.objectAt typeName h
  let values ← args.mapM t.sight
  return (o, values)

end RefTable

/-- A world in which a property was stored. -/
def World.withProperty (w : World) (o : ObjectId) (name : String) (v : Host.Value) : World :=
  { w with heap := w.heap.setProperty o name v }

theorem World.withRealm_withProperty (w : World) (o : ObjectId) (name : String) (v : Host.Value)
    (r : RealmId) (x : Realm) :
    (w.withProperty o name v).withRealm r x = (w.withRealm r x).withProperty o name v := rfl

namespace Act

open World RefTable

variable {r : RealmId} {g : Host.Value}

theorem exec_encodeArg (w : World) (x : Realm) (present : w.realms[r]? = some x)
    (owner : x.owner = w.here) (sound : x.table.Sound g) {n : Nat} (room : x.table.RoomFor (n + 1))
    (a : Guest.Value) :
    ∃ raw made t, exec (encodeArg r a) w =
        (.ok (raw, made), w.withRealm r { x with table := t }) ∧
      Prepared g x.table [a] [raw] made.toList t ∧ t.RoomFor n := by
  have borrowed (raw : Raw) (same : encodeArg r a = pure (raw, none))
      (means : ∀ later : RefTable, later.meaning raw = later.sight a) :
      ∃ raw made t, exec (encodeArg r a) w =
          (.ok (raw, made), w.withRealm r { x with table := t }) ∧
        Prepared g x.table [a] [raw] made.toList t ∧ t.RoomFor n := by
    refine ⟨raw, none, x.table, ?_, sound.prepared_of_borrowed a raw means,
      room.mono (Nat.le_succ n)⟩
    rw [same, exec_pure, withRealm_self w r x present]
  cases a with
  | undefined => exact borrowed .undefined rfl fun _ => rfl
  | null => exact borrowed .null rfl fun _ => rfl
  | bool b => exact borrowed (.ofBool b) rfl fun _ => meaning_ofBool b
  | number a => exact borrowed (.ofNumber a) rfl fun _ => rfl
  | object ref =>
    exact borrowed (.ofHandle .object ref.handle) rfl fun _ => meaning_ofHandle _ _ (.inr (.inl rfl))
  | function ref =>
    exact borrowed (.ofHandle .function ref.handle) rfl fun _ =>
      meaning_ofHandle _ _ (.inr (.inr rfl))
  | string s =>
    refine ⟨_, some (x.table.retain (.string s)).1, _, ?_, sound.prepared_of_text room s,
      (sound.retain_lent (.string s) room).2.1⟩
    rw [encodeArg, makeString, exec_bind, exec_retain w r x present owner, goOn_ok]
    rfl

/-- Arguments are encoded one after the other. -/
theorem exec_encodeArgs (args : List Guest.Value) (w : World) (x : Realm)
    (present : w.realms[r]? = some x) (owner : x.owner = w.here) (sound : x.table.Sound g) {n : Nat}
    (room : x.table.RoomFor (n + args.length)) :
    ∃ encoded t, exec (args.mapM (encodeArg r)) w =
        (.ok encoded, w.withRealm r { x with table := t }) ∧
      Prepared g x.table args (encoded.map (·.1)) (encoded.filterMap (·.2)) t ∧ t.RoomFor n := by
  induction args generalizing w x with
  | nil =>
    refine ⟨[], x.table, ?_, ⟨sound.gains_nothing, fun _ _ => rfl⟩, room⟩
    rw [withRealm_self w r x present]
    rfl
  | cons a args ih =>
    obtain ⟨raw, made, t, first, one, left⟩ := exec_encodeArg w x present owner sound room a
    have there := realm_withRealm w r x { x with table := t } present
    obtain ⟨encoded, t', rest, others, last⟩ := ih _ { x with table := t } there owner one.sound left
    refine ⟨(raw, made) :: encoded, t', ?_, ?_, last⟩
    · rw [List.mapM_cons, exec_bind, first, goOn_ok, exec_bind, rest, goOn_ok, exec_pure,
        withRealm_withRealm]
    · have all := one.append others sound
      cases made <;> exact all

/-- The end of an operation that took arguments: the texts made for it are given back. -/
def afterwards {α : Type} (r : RealmId) (made : List Handle) (result : Except Fault α) :
    Act (Except Fault α) := do
  match ← releaseAll r made with
  | .error e => return .error e
  | .ok () => return result

theorem exec_withEncoded {α : Type} (args : List Guest.Value)
    (act : List Raw → Act (Except Fault α)) (w w' : World) (encoded : List (Raw × Option Handle))
    (done : exec (args.mapM (encodeArg r)) w = (.ok encoded, w')) :
    exec (withEncoded r args act) w =
      exec (do afterwards r (encoded.filterMap (·.2)) (← act (encoded.map (·.1)))) w' := by
  rw [withEncoded, exec_bind, done, goOn_ok]
  rfl

theorem exec_objectAt (w : World) (x : Realm) (present : w.realms[r]? = some x)
    (owner : x.owner = w.here) (h : Handle) (o : ObjectId)
    (object : x.table.get h = .ok (.object o)) : exec (objectAt r h) w = (.ok (.ok o), w) := by
  rw [objectAt, exec_bind, exec_read w r x present owner, object, goOn_ok]
  rfl

theorem exec_objectAt_eq (w : World) (x : Realm) (present : w.realms[r]? = some x)
    (owner : x.owner = w.here) (h : Handle) :
    exec (objectAt r h) w = (.ok (x.table.objectAt w.heap.typeName h), w) := by
  rw [objectAt, exec_bind, exec_read w r x present owner, goOn_ok, RefTable.objectAt]
  cases x.table.get h with
  | error e => rfl
  | ok v => cases v <;> rfl

/-- Something is done to an object, given values. It may throw. -/
abbrev Deed := ObjectId → List Host.Value → Act (Except Host.Value Host.Value)

/-- Does something to the object at a handle, given encodings that stay with the caller. -/
def reflecting (r : RealmId) (h : Handle) (deed : Deed) (raws : List Raw) :
    Act (Except Fault Raw) := do
  match ← objectAt r h with
  | .error e => return .error e
  | .ok o =>
    match ← liftAll r raws with
    | .error e => return .error e
    | .ok values => finish r (← deed o values)

/-- Does something to the object at a handle, given borrowed values. -/
def operate (r : RealmId) (h : Handle) (deed : Deed) (args : List Guest.Value) :
    Act (Except Fault Guest.Value) := do
  match ← withEncoded r args (reflecting r h deed) with
  | .error e => return .error e
  | .ok raw => liftGuest r raw

/-- What is done is done with what the encodings stand for; at the first that stands for nothing it
is not. -/
theorem exec_reflecting (w : World) (x : Realm) (present : w.realms[r]? = some x)
    (owner : x.owner = w.here) (h : Handle) (deed : Deed) (raws : List Raw)
    (args : List Guest.Value) (means : raws.map x.table.meaning = args.map x.table.sight) :
    exec (reflecting r h deed raws) w =
      match x.table.callee? w.heap.typeName h args with
      | .error e => (.ok (.error e), w)
      | .ok (o, values) => exec (do finish r (← deed o values)) w := by
  rw [reflecting, exec_bind, exec_objectAt_eq w x present owner h, goOn_ok, callee?]
  cases x.table.objectAt w.heap.typeName h with
  | error e => rfl
  | ok o =>
    simp only
    rw [exec_bind, exec_liftAll w x present owner, goOn_ok, mapM_meaning raws args means]
    cases args.mapM x.table.sight <;> rfl

theorem exec_setRawProperty (w : World) (x : Realm) (present : w.realms[r]? = some x)
    (owner : x.owner = w.here) (h : Handle) (o : ObjectId)
    (object : x.table.get h = .ok (.object o)) (name : String) (raw : Raw) :
    exec (setRawProperty r h name raw) w =
      match x.table.meaning raw with
      | .error e => (.ok (.error e), w)
      | .ok v => (.ok (.ok ()), w.withProperty o name v) := by
  rw [setRawProperty, exec_bind, exec_objectAt w x present owner h o object, goOn_ok]
  simp only
  rw [exec_bind, exec_liftRaw_meaning w x present owner, goOn_ok]
  cases x.table.meaning raw <;> rfl

/-- The end of a call by reflection: the texts made for it are given back and its result is the
guest's. -/
def concluded (r : RealmId) (made : List Handle) (result : Except Fault Raw) :
    Act (Except Fault Guest.Value) := do
  match ← afterwards r made result with
  | .error e => return .error e
  | .ok raw => liftGuest r raw

/-- An operation has what its arguments stand for once their texts are retained. -/
theorem exec_operate (h : Handle) (args : List Guest.Value) (w : World) (x : Realm)
    (present : w.realms[r]? = some x) (owner : x.owner = w.here) (sound : x.table.Sound g) {n : Nat}
    (room : x.table.RoomFor (n + args.length)) :
    ∃ raws made t, Prepared g x.table args raws made t ∧ t.RoomFor n ∧
      ∀ deed : Deed, exec (operate r h deed args) w =
        match t.callee? w.heap.typeName h args with
        | .error e => exec (concluded r made (.error e)) (w.withRealm r { x with table := t })
        | .ok (o, values) => exec (do concluded r made (← finish r (← deed o values)))
            (w.withRealm r { x with table := t }) := by
  obtain ⟨encoded, t, done, prepared, left⟩ := exec_encodeArgs args w x present owner sound room
  refine ⟨_, _, t, prepared, left, fun deed => ?_⟩
  have there := realm_withRealm w r x { x with table := t } present
  have found : exec (reflecting r h deed (encoded.map (·.1)))
      (w.withRealm r { x with table := t }) =
        match t.callee? w.heap.typeName h args with
        | .error e => (.ok (.error e), w.withRealm r { x with table := t })
        | .ok (o, values) =>
          exec (do finish r (← deed o values)) (w.withRealm r { x with table := t }) :=
    exec_reflecting _ _ there owner h deed _ args (prepared.means t (.refl t))
  rw [operate, exec_bind, exec_withEncoded args _ w _ encoded done, exec_bind, found]
  cases t.callee? w.heap.typeName h args with
  | error e => simp only [goOn_ok, concluded, exec_bind]
  | ok callee =>
    obtain ⟨o, values⟩ := callee
    simp only [concluded, exec_bind]
    rcases exec (deed o values) _ with ⟨halt | outcome, v⟩
    · rfl
    · simp only [goOn_ok, exec_bind]
      rcases exec (finish r outcome) v with ⟨halt | result, v'⟩
      · rfl
      · simp only [goOn_ok, exec_bind]

/-- A guest value is called with what its arguments stand for once their texts are retained. -/
theorem exec_reflectGuest (p : Performer) (target : Guest.Value) (h : Handle)
    (home : target.ref? = some ⟨r, h⟩) (how : Reflection) (args : List Guest.Value) (w : World)
    (x : Realm) (present : w.realms[r]? = some x) (owner : x.owner = w.here)
    (sound : x.table.Sound g) {n : Nat} (room : x.table.RoomFor (n + args.length)) (o : ObjectId)
    (object : x.table.get h = .ok (.object o)) :
    ∃ raws made t, Prepared g x.table args raws made t ∧ t.RoomFor n ∧
      exec (reflectGuest p target how args) w =
        match args.mapM t.sight with
        | .error e => exec (concluded r made (.error e)) (w.withRealm r { x with table := t })
        | .ok values => exec (do concluded r made (← finish r (← reflectObject p o how values)))
            (w.withRealm r { x with table := t }) := by
  obtain ⟨raws, made, t, prepared, left, done⟩ :=
    exec_operate h args w x present owner sound room
  refine ⟨raws, made, t, prepared, left, ?_⟩
  have still : t.get h = .ok (.object o) := prepared.steady.get sound h _ object
  have same : exec (reflectGuest p target how args) w =
      exec (operate r h (fun o => reflectObject p o how) args) w := by
    rw [reflectGuest, targetOf, home]
    rfl
  rw [same, done (fun o => reflectObject p o how), callee?, RefTable.objectAt, still]
  cases args.mapM t.sight <;> rfl

/-- References that are held are given back without a failure. -/
theorem exec_releaseAll (hs : List Handle) (w : World) (x : Realm) (present : w.realms[r]? = some x)
    (owner : x.owner = w.here) (sound : x.table.Sound g)
    (enough : ∀ h, hs.count h ≤ x.table.lent h) :
    exec (releaseAll r hs) w =
      (.ok (.ok ()), w.withRealm r { x with table := hs.foldl RefTable.releaseQuietly x.table }) := by
  induction hs generalizing w x with
  | nil =>
    rw [List.foldl_nil, withRealm_self w r x present]
    rfl
  | cons h hs ih =>
    have one := enough h
    rw [Handle.count_cons, Handle.only_self] at one
    have live : 0 < x.table.count h := by
      have held := x.table.lent_le_count h
      omega
    obtain ⟨t, released, _⟩ := sound.release h live
    have quiet : x.table.releaseQuietly h = t := by rw [RefTable.releaseQuietly, released]
    have done : x.release h = .ok { x with table := t } := by
      rw [Realm.release, released]
      rfl
    obtain ⟨kept, less⟩ := sound.releaseQuietly h
    rw [quiet] at kept less
    have there := realm_withRealm w r x { x with table := t } present
    have rest := ih _ { x with table := t } there owner kept fun k => by
      have all := enough k
      rw [Handle.count_cons] at all
      rw [less k]
      omega
    rw [releaseAll, exec_bind, exec_release w r x present owner, done, goOn_ok]
    rw [withRealm_withRealm] at rest
    rw [List.foldl_cons, quiet]
    exact rest

/-- The texts made for an operation are given back after it, if it left the references to them. -/
theorem exec_afterwards {α : Type} (made : List Handle) (result : Except Fault α) (w : World)
    (x : Realm) (present : w.realms[r]? = some x) (owner : x.owner = w.here)
    (sound : x.table.Sound g) (enough : ∀ h, made.count h ≤ x.table.lent h) :
    exec (afterwards r made result) w =
      (.ok result,
        w.withRealm r { x with table := made.foldl RefTable.releaseQuietly x.table }) := by
  rw [afterwards, exec_bind, exec_releaseAll made w x present owner sound enough]
  rfl

/-- A value is stored as what it stands for, and the references of the realm are as before. -/
theorem exec_putProperty (target : Guest.Value) (h : Handle) (home : target.ref? = some ⟨r, h⟩)
    (name : String) (a : Guest.Value) (v : Host.Value) (w : World) (x : Realm)
    (present : w.realms[r]? = some x) (owner : x.owner = w.here) (sound : x.table.Sound g)
    (room : x.table.RoomFor 1) (o : ObjectId) (object : x.table.get h = .ok (.object o))
    (seen : x.table.sight a = .ok v) :
    ∃ t, exec (putProperty target name a) w =
        (.ok (.ok ()), (w.withRealm r { x with table := t }).withProperty o name v) ∧
      Gains g x.table [] t := by
  obtain ⟨encoded, t, done, prepared, _⟩ :=
    exec_encodeArgs [a] w x present owner sound (n := 0) room
  have there := realm_withRealm w r x { x with table := t } present
  obtain ⟨raw, split⟩ : ∃ raw, encoded.map (·.1) = [raw] := by
    have same := congrArg List.length (prepared.means t (.refl t))
    rw [List.length_map] at same
    exact List.length_eq_one_iff.mp same
  have means : t.meaning raw = .ok v := by
    have both := prepared.means t (.refl t)
    rw [split] at both
    rw [(List.cons.inj both).1]
    exact prepared.steady.sight sound a v seen
  have stored := exec_setRawProperty _ _ there owner h o (prepared.steady.get sound h _ object) name
    raw
  rw [means] at stored
  have given : ∀ k, (encoded.filterMap (·.2)).count k ≤ t.lent k := fun k => by
    rw [prepared.lent]
    exact Nat.le_add_left _ _
  refine ⟨(encoded.filterMap (·.2)).foldl RefTable.releaseQuietly t, ?_,
    prepared.toGains.releaseAll sound _ [] fun _ => rfl⟩
  rw [putProperty, targetOf, home]
  simp only
  rw [exec_withEncoded [a] _ w _ encoded done, exec_bind, split]
  simp only
  have closed := exec_afterwards (encoded.filterMap (·.2)) (.ok ())
    ((w.withRealm r { x with table := t }).withProperty o name v) { x with table := t } there owner
    prepared.sound given
  rw [stored, goOn_ok, closed, withRealm_withProperty, withRealm_withRealm]

/-- A value that is no text is stored as what it stands for. -/
theorem exec_putProperty_of_no_text (target : Guest.Value) (h : Handle)
    (home : target.ref? = some ⟨r, h⟩) (name : String) (a : Guest.Value)
    (borrowed : ∀ s, a ≠ .string s) (w : World) (x : Realm) (present : w.realms[r]? = some x)
    (owner : x.owner = w.here) (o : ObjectId) (object : x.table.get h = .ok (.object o)) :
    exec (putProperty target name a) w =
      match x.table.sight a with
      | .error e => (.ok (.error e), w)
      | .ok v => (.ok (.ok ()), w.withProperty o name v) := by
  obtain ⟨raw, encoded, means⟩ : ∃ raw, encodeArg r a = pure (raw, none) ∧
      x.table.meaning raw = x.table.sight a := by
    cases a with
    | undefined | null | number => exact ⟨_, rfl, rfl⟩
    | bool b => exact ⟨_, rfl, meaning_ofBool b⟩
    | string s => exact (borrowed s rfl).elim
    | object ref => exact ⟨_, rfl, meaning_ofHandle _ _ (.inr (.inl rfl))⟩
    | function ref => exact ⟨_, rfl, meaning_ofHandle _ _ (.inr (.inr rfl))⟩
  have done : exec ([a].mapM (encodeArg r)) w = (.ok [(raw, none)], w) := by
    rw [List.mapM_cons, encoded]
    rfl
  rw [putProperty, targetOf, home]
  simp only
  rw [exec_withEncoded [a] _ w w _ done, exec_bind]
  simp only [List.map_cons, List.map_nil]
  rw [exec_setRawProperty w x present owner h o object, means]
  cases x.table.sight a <;> rfl

end Act

end Membrane
