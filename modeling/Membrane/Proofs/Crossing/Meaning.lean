import Membrane.Proofs.Ownership.HostCall
/-!
What stands for which host value. An encoding and a guest value stand for a scalar or a text as they
are, and where they carry a handle for what a table of references holds there. Nothing else than the
handle counts, and as long as a handle stays live it stands for the same value.
-/

set_option autoImplicit false

namespace Membrane

@[simp] theorem Handle.ofWire_toWire (h : Handle) : Handle.ofWire h.toWire = h := by
  rw [ofWire, toWire, UInt32.toUInt32_toInt32]

theorem Raw.handle?_ofHandle (kind : RawKind) (h : Handle)
    (carries : kind = .string ∨ kind = .object ∨ kind = .function) :
    (Raw.ofHandle kind h).handle? = some h := by
  rcases carries with rfl | rfl | rfl <;>
    exact congrArg some h.ofWire_toWire

namespace RefTable

/-- The value that an encoding stands for. -/
def meaning (t : RefTable) (raw : Raw) : Except Fault Host.Value :=
  match raw.kind with
  | .undefined => .ok .undefined
  | .null => .ok .null
  | .boolean => .ok (.bool (raw.int != 0))
  | .number => .ok (.number raw.number)
  | .string | .object | .function => t.get (.ofWire raw.int)

/-- The value that a guest value stands for. -/
def sight (t : RefTable) : Guest.Value → Except Fault Host.Value
  | .undefined => .ok .undefined
  | .null => .ok .null
  | .bool b => .ok (.bool b)
  | .number x => .ok (.number x)
  | .string s => .ok (.string s)
  | .object ref | .function ref => t.get ref.handle

theorem sight_of_ref {t : RefTable} (a : Guest.Value) (ref : Guest.Ref)
    (reference : a.ref? = some ref) : t.sight a = t.get ref.handle := by
  cases a with
  | undefined | null | bool | number | string => cases reference
  | object | function =>
    cases reference
    rfl

/-- A table in which every handle that was live stands for what it stood for. -/
def Steady (t t' : RefTable) : Prop := ∀ h, 0 < t.count h → t'.value? h = t.value? h

variable {g : Host.Value} {t t' t'' : RefTable}

theorem get_eq (h : Handle) :
    t.get h = match t.value? h with
      | some v => .ok v
      | none => .error (.invalidReference h .read) := by
  rw [get, value?]
  cases t.find? h <;> rfl

theorem get_congr (h : Handle) (same : t'.value? h = t.value? h) : t'.get h = t.get h := by
  rw [get_eq, get_eq, same]

theorem Steady.refl (t : RefTable) : Steady t t := fun _ _ => rfl

theorem Sound.count_pos_of_get (sound : t.Sound g) (h : Handle) (v : Host.Value)
    (known : t.get h = .ok v) : 0 < t.count h :=
  sound.count_pos_of_value? h v ((get_eq_ok_iff h v).mp known)

/-- What is live stays live where it stands for the same. -/
theorem Steady.live (steady : Steady t t') (sound : t.Sound g) (sound' : t'.Sound g) (h : Handle)
    (live : 0 < t.count h) : 0 < t'.count h := by
  obtain ⟨e, found⟩ := sound.exists_entry h live
  apply sound'.count_pos_of_value? h e.value
  rw [steady h live, value?, found, Option.map_some]

theorem Steady.trans (first : Steady t t') (rest : Steady t' t'') (sound : t.Sound g)
    (sound' : t'.Sound g) : Steady t t'' := fun h live => by
  rw [rest h (first.live sound sound' h live), first h live]

theorem Steady.get (steady : Steady t t') (sound : t.Sound g) (h : Handle) (v : Host.Value)
    (known : t.get h = .ok v) : t'.get h = .ok v := by
  rw [get_congr h (steady h (sound.count_pos_of_get h v known)), known]

/-- A guest value goes on to stand for the same. -/
theorem Steady.sight (steady : Steady t t') (sound : t.Sound g) (a : Guest.Value) (v : Host.Value)
    (known : t.sight a = .ok v) : t'.sight a = .ok v := by
  cases a with
  | undefined | null | bool | number | string => exact known
  | object ref | function ref => exact steady.get sound ref.handle v known

@[simp] theorem meaning_ofBool (b : Bool) : t.meaning (.ofBool b) = .ok (.bool b) := by
  cases b <;> rfl

theorem meaning_ofHandle (kind : RawKind) (h : Handle)
    (carries : kind = .string ∨ kind = .object ∨ kind = .function) :
    t.meaning (.ofHandle kind h) = t.get h := by
  rcases carries with rfl | rfl | rfl <;>
    exact congrArg t.get h.ofWire_toWire

/-- A value of the key of a text or an object is that text or object. -/
theorem eq_of_key (u v : Host.Value) (same : u.key = v.key)
    (kept : (∃ s, v = .string s) ∨ ∃ o, v = .object o) : u = v := by
  rcases kept with ⟨s, rfl⟩ | ⟨o, rfl⟩ <;> cases u <;> simp_all [Host.Value.key]

/-- A text or an object that is retained stands at its handle, and nothing that was live is
disturbed. -/
theorem Sound.retain_known (sound : t.Sound g) {n : Nat} (room : t.RoomFor (n + 1))
    (v : Host.Value) (kept : (∃ s, v = .string s) ∨ ∃ o, v = .object o) :
    (t.retain v).2.get (t.retain v).1 = .ok v ∧ Steady t (t.retain v).2 := by
  obtain ⟨⟨u, known, same⟩, steady⟩ := sound.value?_retain_within v (room.fits_retain v)
  rw [eq_of_key u v same kept] at known
  exact ⟨(get_eq_ok_iff _ _).mpr known, steady⟩

/-- Whatever is given back, a handle that stays live stands for what it stood for. -/
theorem Sound.value?_releaseAll (sound : t.Sound g) (hs : List Handle) (h : Handle)
    (live : 0 < (hs.foldl RefTable.releaseQuietly t).count h) :
    (hs.foldl RefTable.releaseQuietly t).value? h = t.value? h := by
  induction hs generalizing t with
  | nil => rfl
  | cons k hs ih =>
    have kept := (sound.releaseQuietly k).1
    have between : 0 < (t.releaseQuietly k).count h := by
      have last := (kept.releaseAll hs).1.count_eq_lent h
      have less := (kept.releaseAll hs).2 h
      have first := kept.count_eq_lent h
      rw [List.foldl_cons] at live
      omega
    rw [List.foldl_cons, ih kept live]
    rcases Nat.eq_zero_or_pos (t.count k) with dead | here
    · rw [RefTable.releaseQuietly, release_of_dead k (find?_of_count_eq_zero sound k dead)]
    · obtain ⟨t', released, _, _, values⟩ := sound.release k here
      rw [RefTable.releaseQuietly, released] at between ⊢
      exact values h between

/-- A table that holds references more than another one did. What was live is undisturbed. -/
structure Gains (g : Host.Value) (t : RefTable) (more : List Handle) (t' : RefTable) : Prop where
  sound : t'.Sound g
  lent : ∀ h, t'.lent h = t.lent h + more.count h
  steady : Steady t t'

variable {more others : List Handle}

theorem Sound.gains_nothing (sound : t.Sound g) : Gains g t [] t := ⟨sound, fun _ => rfl, .refl t⟩

theorem Gains.trans (first : Gains g t more t') (rest : Gains g t' others t'') (sound : t.Sound g) :
    Gains g t (more ++ others) t'' where
  sound := rest.sound
  lent h := by rw [rest.lent, first.lent, List.count_append, Nat.add_assoc]
  steady := first.steady.trans rest.steady sound first.sound

theorem Sound.gains_retain (sound : t.Sound g) {n : Nat} (room : t.RoomFor (n + 1))
    (v : Host.Value) (kept : (∃ s, v = .string s) ∨ ∃ o, v = .object o) :
    Gains g t [(t.retain v).1] (t.retain v).2 := by
  obtain ⟨sound', _, lent⟩ := sound.retain_lent v room
  refine ⟨sound', fun h => ?_, (sound.retain_known room v kept).2⟩
  rw [lent h, Handle.count_cons, List.count_nil, Nat.zero_add]

/-- Of what was gained some is given back again. -/
theorem Gains.releaseAll (gains : Gains g t more t') (sound : t.Sound g) (hs rest : List Handle)
    (all : ∀ h, more.count h = hs.count h + rest.count h) :
    Gains g t rest (hs.foldl RefTable.releaseQuietly t') := by
  have held : ∀ h, hs.count h + rooted h ≤ t'.count h := fun h => by
    rw [gains.sound.count_eq_lent, gains.lent, all]
    omega
  have shift := gains.sound.shift_releaseAll hs t' held
  have lent : ∀ h, (hs.foldl RefTable.releaseQuietly t').lent h = t.lent h + rest.count h :=
    fun h => by
      rw [(gains.sound.releaseAll hs).2 h, gains.lent, all]
      omega
  refine ⟨shift.sound, lent, fun h live => ?_⟩
  have still : 0 < (hs.foldl RefTable.releaseQuietly t').count h := by
    have before := sound.count_eq_lent h
    rw [shift.sound.count_eq_lent, lent h]
    omega
  rw [shift.steady h (gains.steady.live sound gains.sound h live) still, gains.steady h live]

theorem Gains.count (gains : Gains g t more t') (sound : t.Sound g) (h : Handle) :
    t'.count h = t.count h + more.count h := by
  have before := sound.count_eq_lent h
  rw [gains.sound.count_eq_lent, gains.lent]
  omega

/-- Each reference that is gained takes one place of the room. -/
theorem Gains.roomFor (gains : Gains g t more t') (sound : t.Sound g) {n : Nat}
    (room : t.RoomFor (n + more.length)) : t'.RoomFor n := by
  have counts := gains.count sound
  have fewer : t'.dynamicHandles ⊆ t.dynamicHandles ∪ more.toFinset := by
    rintro h ⟨dynamic, live⟩
    have positive := gains.sound.count_pos_of_contains h live
    rw [counts h] at positive
    by_cases listed : h ∈ more
    · exact .inr (List.mem_toFinset.mpr listed)
    · rw [List.count_eq_zero_of_not_mem listed] at positive
      exact .inl ⟨dynamic, (sound.count_pos_iff h).mp positive⟩
  have union := (Set.ncard_le_ncard fewer (Set.toFinite _)).trans (Set.ncard_union_le _ _)
  rw [Set.ncard_coe_finset] at union
  have few := List.toFinset_card_le more
  refine ⟨fun h => ?_, by have all := room.2; omega⟩
  have bound := room.1 h
  have listed := List.count_le_length (a := h) (l := more)
  rw [counts h]
  omega

/-- What each of several values stands for. -/
theorem mapM_sight (args : List Guest.Value) (values : List Host.Value)
    (seen : List.Forall₂ (fun a v => t.sight a = .ok v) args values) :
    args.mapM t.sight = .ok values := by
  induction seen with
  | nil => rfl
  | cons first _ ih =>
    rw [List.mapM_cons, first, ih]
    rfl

end RefTable

namespace Act

open World RefTable

variable {r : RealmId} {g : Host.Value}

/-- An encoding is lifted as what it stands for. -/
theorem exec_liftRaw_meaning (w : World) (x : Realm) (present : w.realms[r]? = some x)
    (owner : x.owner = w.here) (raw : Raw) :
    exec (liftRaw r raw) w = (.ok (x.table.meaning raw), w) := by
  unfold liftRaw meaning
  cases raw.kind with
  | undefined | null | boolean | number => rfl
  | string | object | function => exact exec_read w r x present owner _

theorem exec_liftAll (w : World) (x : Realm) (present : w.realms[r]? = some x)
    (owner : x.owner = w.here) (raws : List Raw) :
    exec (liftAll r raws) w = (.ok (raws.mapM x.table.meaning), w) := by
  induction raws with
  | nil => rfl
  | cons raw raws ih =>
    rw [liftAll, exec_bind, exec_liftRaw_meaning w x present owner, goOn_ok, List.mapM_cons]
    cases x.table.meaning raw with
    | error e => rfl
    | ok v =>
      simp only [exec_bind, ih, goOn_ok, exec_pure]
      cases raws.mapM x.table.meaning <;> rfl

end Act

end Membrane
