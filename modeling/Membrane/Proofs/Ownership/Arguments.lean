import Membrane.Proofs.Strings.Conduct
/-!
The arguments of a guest function. The encodings that a call carries own a reference for each handle
in them. As they are lifted, one after the other, texts are read, which gives their references back,
and objects and functions are adopted. At the first handle that stands for no text the lifting ends,
and what was adopted until then is dropped.
-/

set_option autoImplicit false

namespace Membrane

namespace Raw

/-- The handles that encodings carry. -/
def carried (raws : List Raw) : List Handle := raws.filterMap Raw.handle?

@[simp] theorem carried_nil : carried [] = [] := rfl

theorem carried_cons (raw : Raw) (raws : List Raw) :
    carried (raw :: raws) = raw.handle?.toList ++ carried raws := by
  rw [carried, List.filterMap_cons]
  cases raw.handle? <;> rfl

theorem carried_append (raws more : List Raw) :
    carried (raws ++ more) = carried raws ++ carried more := List.filterMap_append

theorem handle?_of_string (raw : Raw) (kind : raw.kind = .string) :
    raw.handle? = some (.ofWire raw.int) := by
  rw [handle?, kind]

end Raw

/-- How far encodings are lifted. -/
structure Lifting where
  /-- The handles that were read as texts. -/
  read : List Handle
  /-- The handles of the objects and functions that were adopted. -/
  adopted : List Handle
  /-- Whether all were lifted. -/
  whole : Bool

namespace RefTable

/-- What lifting encodings comes to, as told by a table. -/
def lifting (t : RefTable) : List Raw → Lifting
  | [] => ⟨[], [], true⟩
  | raw :: rest =>
    if raw.kind = .string then
      match t.get (.ofWire raw.int) with
      | .ok (.string _) =>
        let later := (t.releaseQuietly (.ofWire raw.int)).lifting rest
        { later with read := .ofWire raw.int :: later.read }
      | _ => ⟨[.ofWire raw.int], [], false⟩
    else
      let later := t.lifting rest
      { later with adopted := raw.handle?.toList ++ later.adopted }

/-- Where all encodings are lifted, every handle is either read or adopted. -/
theorem lifting_perm (raws : List Raw) (t : RefTable) (whole : (t.lifting raws).whole) :
    ((t.lifting raws).read ++ (t.lifting raws).adopted).Perm (Raw.carried raws) := by
  fun_induction lifting t raws with
  | case1 t => exact .refl _
  | case2 t raw rest kind s value later ih =>
    rw [Raw.carried_cons, raw.handle?_of_string kind]
    exact (ih whole).cons _
  | case3 t raw rest kind => cases whole
  | case4 t raw rest kind later ih =>
    rw [Raw.carried_cons]
    cases raw.handle? with
    | none => exact ih whole
    | some h => exact List.perm_middle.trans ((ih whole).cons h)

end RefTable

/-- No handle is read or adopted more often than it is carried. -/
theorem RefTable.lifting_subperm (raws : List Raw) (t : RefTable) :
    ((t.lifting raws).read ++ (t.lifting raws).adopted).Subperm (Raw.carried raws) := by
  fun_induction RefTable.lifting t raws with
  | case1 t => exact List.Subperm.refl _
  | case2 t raw rest kind s value later ih =>
    rw [Raw.carried_cons, raw.handle?_of_string kind]
    exact (List.subperm_cons _).mpr ih
  | case3 t raw rest kind stray =>
    rw [Raw.carried_cons, raw.handle?_of_string kind]
    exact (List.sublist_append_left _ _).subperm
  | case4 t raw rest kind later ih =>
    rw [Raw.carried_cons]
    cases raw.handle? with
    | none => exact ih
    | some h => exact List.perm_middle.subperm.trans ((List.subperm_cons h).mpr ih)

/-- Encodings were made: a table holds a reference more for each handle in them, and the texts among
them stand at theirs. -/
structure RefTable.Encodes (g : Host.Value) (t : RefTable) (raws : List Raw) (t' : RefTable) :
    Prop where
  sound : t'.Sound g
  lent : ∀ h, t'.lent h = t.lent h + (Raw.carried raws).count h
  texts : ∀ raw ∈ raws, raw.kind = .string → ∃ s, t'.value? (.ofWire raw.int) = some (.string s)
  steady : ∀ h, 0 < t.count h → t'.value? h = t.value? h

namespace RefTable

variable {g : Host.Value} {t t' t'' : RefTable}

theorem Sound.count_pos_of_value? (sound : t.Sound g) (h : Handle) (v : Host.Value)
    (known : t.value? h = some v) : 0 < t.count h := by
  apply (sound.count_pos_iff h).mpr
  rw [value?, Option.map_eq_some_iff] at known
  obtain ⟨e, live, _⟩ := known
  rw [live]
  rfl

/-- What carries no handle takes no reference. -/
theorem Sound.encodes_of_scalars (sound : t.Sound g) (raws : List Raw)
    (scalar : ∀ raw ∈ raws, raw.handle? = none) : Encodes g t raws t := by
  refine ⟨sound, fun h => ?_, fun raw inside kind => ?_, fun _ _ => rfl⟩
  · have none : Raw.carried raws = [] := List.filterMap_eq_nil_iff.mpr scalar
    rw [none]
    rfl
  · have none := scalar raw inside
    rw [raw.handle?_of_string kind] at none
    cases none

theorem Encodes.append {raws more : List Raw} (first : Encodes g t raws t')
    (rest : Encodes g t' more t'') (sound : t.Sound g) : Encodes g t (raws ++ more) t'' := by
  refine ⟨rest.sound, fun h => ?_, fun raw inside kind => ?_, fun h live => ?_⟩
  · rw [rest.lent, first.lent, Raw.carried_append, List.count_append, Nat.add_assoc]
  · rcases List.mem_append.mp inside with before | after
    · obtain ⟨s, there⟩ := first.texts raw before kind
      refine ⟨s, ?_⟩
      rw [rest.steady _ (first.sound.count_pos_of_value? _ _ there), there]
    · exact rest.texts raw after kind
  · have held : 0 < t'.count h := by
      have before := sound.count_eq_lent h
      have after := first.sound.count_eq_lent h
      have more := first.lent h
      omega
    rw [rest.steady h held, first.steady h live]

/-- A value is encoded by a reference to it. -/
theorem Sound.encodes_retain (sound : t.Sound g) (v : Host.Value) {n : Nat}
    (room : t.RoomFor (n + 1)) (kind : RawKind)
    (carries : (Raw.ofHandle kind (t.retain v).1).handle? = some (t.retain v).1)
    (text : kind = .string → ∃ s, v = .string s) :
    Encodes g t [.ofHandle kind (t.retain v).1] (t.retain v).2 ∧ (t.retain v).2.RoomFor n := by
  obtain ⟨kept, left, more⟩ := sound.retain_lent v room
  obtain ⟨⟨u, known, same⟩, steady⟩ := sound.value?_retain_within v (room.fits_retain v)
  refine ⟨⟨kept, fun h => ?_, fun raw inside string => ?_, steady⟩, left⟩
  · rw [more h, Raw.carried_cons, carries, Raw.carried_nil]
    show _ = _ + [(t.retain v).1].count h
    rw [Handle.count_cons, List.count_nil, Nat.zero_add]
  · obtain rfl := List.mem_singleton.mp inside
    obtain ⟨s, rfl⟩ := text string
    refine ⟨s, known.trans ?_⟩
    cases u <;> simp_all [Host.Value.key]

/-- Encodings whose texts stand where they are looked for are all lifted, as long as there is a
reference for each. -/
theorem lifting_whole (raws : List Raw) (t : RefTable) (sound : t.Sound g)
    (texts : ∀ raw ∈ raws, raw.kind = .string → ∃ s, t.value? (.ofWire raw.int) = some (.string s))
    (enough : ∀ h, (Raw.carried raws).count h ≤ t.lent h) : (t.lifting raws).whole := by
  fun_induction lifting t raws with
  | case1 t => rfl
  | case2 t raw rest kind s value later ih =>
    let h := Handle.ofWire raw.int
    have first : ∀ k, (Raw.carried (raw :: rest)).count k = (Raw.carried rest).count k + h.only k :=
      fun k => by
        rw [Raw.carried_cons, raw.handle?_of_string kind]
        exact h.count_cons _ k
    have less := (sound.releaseQuietly h).2
    have still : ∀ k, (Raw.carried rest).count k ≤ (t.releaseQuietly h).lent k := by
      intro k
      have all := enough k
      rw [first k] at all
      rw [less k]
      omega
    have spare : rooted h < t.count h := by
      have all := enough h
      rw [first h, h.only_self] at all
      rw [sound.count_eq_lent h]
      omega
    have shift := sound.shift_releaseQuietly h spare
    refine ih shift.sound (fun other inside string => ?_) still
    obtain ⟨s', known⟩ := texts other (List.mem_cons_of_mem raw inside) string
    have listed : Handle.ofWire other.int ∈ Raw.carried rest :=
      List.mem_filterMap.mpr ⟨other, inside, other.handle?_of_string string⟩
    have left : 0 < (t.releaseQuietly h).count (.ofWire other.int) := by
      have some := List.count_pos_iff.mpr listed
      have held := still (.ofWire other.int)
      have whole := (t.releaseQuietly h).lent_le_count (.ofWire other.int)
      omega
    refine ⟨s', ?_⟩
    rw [shift.steady _ (sound.count_pos_of_value? _ _ known) left, known]
  | case3 t raw rest kind stray =>
    obtain ⟨s, known⟩ := texts raw List.mem_cons_self kind
    exact (stray s ((get_eq_ok_iff _ _).mpr known)).elim
  | case4 t raw rest kind later ih =>
    refine ih sound (fun other inside => texts other (List.mem_cons_of_mem raw inside)) fun h => ?_
    have all := enough h
    rw [Raw.carried_cons, List.count_append] at all
    exact Nat.le_of_add_left_le all

end RefTable

namespace Realm

/-- A realm where references were dropped. -/
def dropped (x : Realm) (hs : List Handle) : Realm :=
  if x.features.weakRefs then { x with finalizers := x.finalizers ++ hs } else x

theorem stringAt_eq_ok_iff (x : Realm) (names : Host.Value → String) (h : Handle) (s : String) :
    x.stringAt names h = .ok s ↔ x.table.get h = .ok (.string s) := by
  rw [stringAt]
  rcases x.table.get h with e | v
  · simp
  · cases v <;> simp

end Realm

namespace Act

open World

/-- References of a realm, and handles that they are to. -/
def RefsAre (r : RealmId) (values : List Guest.Value) (hs : List Handle) : Prop :=
  values.filterMap Guest.Value.ref? = hs.map fun h => ⟨r, h⟩

variable {r : RealmId}

theorem RefsAre.append {values more : List Guest.Value} {hs ks : List Handle}
    (first : RefsAre r values hs) (rest : RefsAre r more ks) :
    RefsAre r (values ++ more) (hs ++ ks) := by
  rw [RefsAre, List.filterMap_append, first, rest, List.map_append]

/-- A value without a reference does not count, one with a reference is the first. -/
theorem RefsAre.cases_head {v : Guest.Value} {values : List Guest.Value} {hs : List Handle}
    (refs : RefsAre r (v :: values) hs) :
    (v.ref? = none ∧ RefsAre r values hs) ∨
      ∃ h ks, v.ref? = some ⟨r, h⟩ ∧ hs = h :: ks ∧ RefsAre r values ks := by
  rw [RefsAre, List.filterMap_cons] at refs
  cases ref : v.ref? with
  | none =>
    rw [ref] at refs
    exact Or.inl ⟨rfl, refs⟩
  | some found =>
    rw [ref] at refs
    cases hs with
    | nil => cases refs
    | cons h ks =>
      obtain ⟨rfl, rest⟩ := List.cons.inj refs
      exact Or.inr ⟨h, ks, rfl, rfl, rest⟩

/-- Values that are dropped are noted, or lost without weak references. -/
theorem exec_dropGuests (values : List Guest.Value) (hs : List Handle) (refs : RefsAre r values hs)
    (w : World) (x : Realm) (present : w.realms[r]? = some x) :
    ∃ w', exec (values.forM dropGuest) w = (.ok (), w') ∧
      w'.realms[r]? = some (x.dropped hs) := by
  induction values generalizing hs w x with
  | nil =>
    obtain rfl : hs = [] := List.map_eq_nil_iff.mp refs.symm
    refine ⟨w, rfl, ?_⟩
    rw [present, Realm.dropped, List.append_nil]
    split <;> rfl
  | cons v values ih =>
    rcases refs.cases_head with ⟨none, rest⟩ | ⟨h, ks, ref, rfl, rest⟩
    · obtain ⟨w', done, left⟩ := ih hs rest w x present
      refine ⟨w', ?_, left⟩
      show exec (dropGuest v >>= fun _ => values.forM dropGuest) w = _
      rw [exec_bind, dropGuest, none]
      exact done
    · obtain ⟨w', done, left⟩ := ih ks rest (w.lost ⟨r, h⟩) _ (w.realms_lost ⟨r, h⟩ x present)
      refine ⟨w', ?_, ?_⟩
      · show exec (dropGuest v >>= fun _ => values.forM dropGuest) w = _
        rw [exec_bind, dropGuest, ref]
        simp only
        rw [exec_dropRef w ⟨r, h⟩ x present, goOn_ok]
        exact done
      · rw [left, Realm.dropped, Realm.dropped]
        cases weak : x.features.weakRefs <;> simp [Realm.scheduleFinalizer, weak]

theorem exec_releaseGuest (w : World) (x : Realm) (present : w.realms[r]? = some x)
    (owner : x.owner = w.here) (v : Guest.Value) (h : Handle) (ref : v.ref? = some ⟨r, h⟩) :
    exec (releaseGuestQuietly v) w =
      (.ok (), w.withRealm r { x with table := x.table.releaseQuietly h }) := by
  simp only [releaseGuestQuietly, releaseGuest, ref, releaseRef]
  rw [← x.releaseQuietly_eq h]
  exact exec_releaseQuietly w r x present owner h

/-- The references of values are given back, one after the other. -/
theorem exec_releaseGuests (values : List Guest.Value) (hs : List Handle)
    (refs : RefsAre r values hs) (w : World) (x : Realm) (present : w.realms[r]? = some x)
    (owner : x.owner = w.here) :
    exec (values.forM releaseGuestQuietly) w =
      (.ok (), w.withRealm r { x with table := hs.foldl RefTable.releaseQuietly x.table }) := by
  induction values generalizing hs w x with
  | nil =>
    obtain rfl : hs = [] := List.map_eq_nil_iff.mp refs.symm
    rw [List.foldl_nil, withRealm_self w r x present]
    rfl
  | cons v values ih =>
    rcases refs.cases_head with ⟨none, rest⟩ | ⟨h, ks, ref, rfl, rest⟩
    · show exec (releaseGuestQuietly v >>= fun _ => values.forM releaseGuestQuietly) w = _
      rw [exec_bind, releaseGuestQuietly, releaseGuest, none]
      exact ih hs rest w x present owner
    · have there := realm_withRealm w r x { x with table := x.table.releaseQuietly h } present
      show exec (releaseGuestQuietly v >>= fun _ => values.forM releaseGuestQuietly) w = _
      rw [exec_bind, exec_releaseGuest w x present owner v h ref, goOn_ok,
        ih ks rest _ _ there owner, withRealm_withRealm]
      rfl

/-- A text is lifted by reading it. -/
theorem exec_liftGuest_string (w : World) (x : Realm) (present : w.realms[r]? = some x)
    (owner : x.owner = w.here) (raw : Raw) (kind : raw.kind = .string) :
    exec (liftGuest r raw) w =
      (.ok ((x.stringAt w.heap.typeName (.ofWire raw.int)).map .string),
        w.withRealm r (x.read (.ofWire raw.int))) := by
  rw [liftGuest, kind]
  simp only [exec_bind, exec_loadString w r x present owner, goOn_ok, exec_pure]

/-- Anything else is lifted as it is. -/
theorem exec_liftGuest_other (w : World) (raw : Raw) (kind : raw.kind ≠ .string) :
    ∃ v, exec (liftGuest r raw) w = (.ok (.ok v), w) ∧
      v.ref? = (raw.handle?).map fun h => ⟨r, h⟩ := by
  rw [liftGuest, Raw.handle?]
  cases same : raw.kind with
  | string => exact absurd same kind
  | undefined | null | boolean | number | object | function => exact ⟨_, rfl, rfl⟩

/-- Texts are read and references adopted, up to the last encoding. -/
theorem exec_liftGuests_whole (raws : List Raw) (t : RefTable) (whole : (t.lifting raws).whole)
    (lifted : List Guest.Value) (w : World) (x : Realm) (same : x.table = t)
    (present : w.realms[r]? = some x) (owner : x.owner = w.here) :
    ∃ values, exec (liftGuests r lifted raws) w =
        (.ok (.ok (lifted ++ values)), w.withRealm r ((t.lifting raws).read.foldl Realm.read x)) ∧
      RefsAre r values (t.lifting raws).adopted := by
  fun_induction RefTable.lifting t raws generalizing lifted w x with
  | case1 t =>
    refine ⟨[], ?_, rfl⟩
    rw [List.append_nil]
    show _ = (_, w.withRealm r x)
    rw [withRealm_self w r x present]
    rfl
  | case2 t raw rest kind s value later ih =>
    have text : x.stringAt w.heap.typeName (.ofWire raw.int) = .ok s := by
      rw [x.stringAt_eq_ok_iff, same, value]
    have there := realm_withRealm w r x (x.read (.ofWire raw.int)) present
    obtain ⟨values, done, refs⟩ := ih whole (lifted ++ [.string s]) _ _
      (by rw [x.table_read, same]) there ((x.owner_read _).trans owner)
    refine ⟨.string s :: values, ?_, refs⟩
    rw [liftGuests, exec_bind, exec_liftGuest_string w x present owner raw kind, text, goOn_ok]
    rw [List.append_assoc, withRealm_withRealm] at done
    exact done
  | case3 t raw rest kind => cases whole
  | case4 t raw rest kind later ih =>
    obtain ⟨v, adopted, ref⟩ := exec_liftGuest_other (r := r) w raw kind
    obtain ⟨values, done, refs⟩ := ih whole (lifted ++ [v]) w x same present owner
    refine ⟨v :: values, ?_, ?_⟩
    · rw [liftGuests, exec_bind, adopted, goOn_ok]
      rw [List.append_assoc] at done
      exact done
    · have first : RefsAre r [v] raw.handle?.toList := by
        rw [RefsAre, List.filterMap_cons, ref]
        cases raw.handle? <;> rfl
      exact first.append refs

/-- At a handle that stands for no text the lifting ends. -/
theorem exec_liftGuests_partly (raws : List Raw) (t : RefTable)
    (partly : (t.lifting raws).whole = false) (lifted : List Guest.Value) (hs : List Handle)
    (refs : RefsAre r lifted hs) (w : World) (x : Realm) (same : x.table = t)
    (present : w.realms[r]? = some x) (owner : x.owner = w.here) :
    ∃ e w', exec (liftGuests r lifted raws) w = (.ok (.error e), w') ∧
      w'.realms[r]? = some
        (((t.lifting raws).read.foldl Realm.read x).dropped (hs ++ (t.lifting raws).adopted)) := by
  fun_induction RefTable.lifting t raws generalizing lifted hs w x with
  | case1 t => cases partly
  | case2 t raw rest kind s value later ih =>
    have text : x.stringAt w.heap.typeName (.ofWire raw.int) = .ok s := by
      rw [x.stringAt_eq_ok_iff, same, value]
    have there := realm_withRealm w r x (x.read (.ofWire raw.int)) present
    have more : RefsAre r (lifted ++ [.string s]) hs := by
      have nothing : RefsAre r [.string s] [] := rfl
      have both := refs.append nothing
      rwa [List.append_nil] at both
    obtain ⟨e, w', done, left⟩ := ih partly _ hs more _ _ (by rw [x.table_read, same]) there
      ((x.owner_read _).trans owner)
    refine ⟨e, w', ?_, left⟩
    rw [liftGuests, exec_bind, exec_liftGuest_string w x present owner raw kind, text, goOn_ok]
    exact done
  | case3 t raw rest kind stray =>
    have there := realm_withRealm w r x (x.read (.ofWire raw.int)) present
    obtain ⟨w', dropped, left⟩ := exec_dropGuests lifted hs refs _ _ there
    have failed : ∃ e, x.stringAt w.heap.typeName (.ofWire raw.int) = .error e := by
      cases text : x.stringAt w.heap.typeName (.ofWire raw.int) with
      | error e => exact ⟨e, rfl⟩
      | ok s =>
        rw [x.stringAt_eq_ok_iff, same] at text
        exact (stray s text).elim
    obtain ⟨e, failed⟩ := failed
    refine ⟨e, w', ?_, ?_⟩
    · rw [liftGuests, exec_bind, exec_liftGuest_string w x present owner raw kind, failed, goOn_ok]
      show exec (lifted.forM dropGuest >>= _) _ = _
      rw [exec_bind, dropped]
      rfl
    · rw [left, List.append_nil]
      rfl
  | case4 t raw rest kind later ih =>
    obtain ⟨v, adopted, ref⟩ := exec_liftGuest_other (r := r) w raw kind
    have first : RefsAre r [v] raw.handle?.toList := by
      rw [RefsAre, List.filterMap_cons, ref]
      cases raw.handle? <;> rfl
    obtain ⟨e, w', done, left⟩ :=
      ih partly (lifted ++ [v]) (hs ++ raw.handle?.toList) (refs.append first) w x same present owner
    refine ⟨e, w', ?_, ?_⟩
    · rw [liftGuests, exec_bind, adopted, goOn_ok]
      exact done
    · rw [left, List.append_assoc]

/-- A value is encoded with a reference of its own. -/
theorem exec_lowerRaw (w : World) (x : Realm) (present : w.realms[r]? = some x)
    (owner : x.owner = w.here) {g : Host.Value} (sound : x.table.Sound g) {n : Nat}
    (room : x.table.RoomFor (n + 1)) (v : Host.Value) :
    ∃ raw t, exec (lowerRaw r v) w = (.ok raw, w.withRealm r { x with table := t }) ∧
      x.table.Encodes g [raw] t ∧ t.RoomFor n := by
  have scalar (raw : Raw) (none : raw.handle? = none) (same : lowerRaw r v = pure raw) :
      ∃ raw t, exec (lowerRaw r v) w = (.ok raw, w.withRealm r { x with table := t }) ∧
        x.table.Encodes g [raw] t ∧ t.RoomFor n := by
    refine ⟨raw, x.table, ?_, sound.encodes_of_scalars _ ?_, room.mono (Nat.le_succ n)⟩
    · rw [same, exec_pure, withRealm_self w r x present]
    · intro other inside
      rw [List.mem_singleton.mp inside, none]
  have retained : exec (retain r v) w =
      (.ok (x.table.retain v).1, w.withRealm r { x with table := (x.table.retain v).2 }) := by
    rw [retain, exec_bind, exec_assertOwner w r x present owner, goOn_ok, exec_onRealm w r x present]
    rfl
  cases v with
  | undefined => exact scalar .undefined rfl rfl
  | null => exact scalar .null rfl rfl
  | bool b => exact scalar (.ofBool b) rfl rfl
  | number a => exact scalar (.ofNumber a) rfl rfl
  | string s =>
    refine ⟨_, _, ?_, sound.encodes_retain (.string s) room .string rfl fun _ => ⟨s, rfl⟩⟩
    rw [lowerRaw, exec_bind, retained]
    rfl
  | object id =>
    cases callable : w.heap.isCallable id with
    | true =>
      refine ⟨_, _, ?_, sound.encodes_retain (.object id) room .function rfl
        fun text => by cases text⟩
      rw [lowerRaw, exec_bind, exec_get, goOn_ok, exec_bind, retained, callable]
      rfl
    | false =>
      refine ⟨_, _, ?_, sound.encodes_retain (.object id) room .object rfl
        fun text => by cases text⟩
      rw [lowerRaw, exec_bind, exec_get, goOn_ok, exec_bind, retained, callable]
      rfl

/-- The arguments of a call are encoded one after the other. -/
theorem exec_lowerRaws (args : List Host.Value) (w : World) (x : Realm)
    (present : w.realms[r]? = some x) (owner : x.owner = w.here) {g : Host.Value}
    (sound : x.table.Sound g) {n : Nat} (room : x.table.RoomFor (n + args.length)) :
    ∃ raws t, exec (args.mapM (lowerRaw r)) w = (.ok raws, w.withRealm r { x with table := t }) ∧
      x.table.Encodes g raws t ∧ t.RoomFor n := by
  induction args generalizing w x with
  | nil =>
    refine ⟨[], x.table, ?_, sound.encodes_of_scalars [] nofun, room⟩
    rw [withRealm_self w r x present]
    rfl
  | cons v args ih =>
    obtain ⟨raw, t, first, one, left⟩ := exec_lowerRaw w x present owner sound room v
    have there := realm_withRealm w r x { x with table := t } present
    obtain ⟨raws, t', rest, others, last⟩ := ih _ { x with table := t } there owner one.sound left
    refine ⟨raw :: raws, t', ?_, one.append others sound, last⟩
    rw [List.mapM_cons, exec_bind, first, goOn_ok, exec_bind, rest, goOn_ok, exec_pure,
      withRealm_withRealm]

end Act

end Membrane
