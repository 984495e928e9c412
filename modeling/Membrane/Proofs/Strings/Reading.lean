import Membrane.Proofs.Strings.NextCall
/-!
Strings that are read while others of the same text are lowered. A read cannot tell whose reference
it gives back: it strikes off whatever is listed under its handle. Each string that was struck off
for a reader with a reference of its own is not given back by its call any more, so a reference to
it stays behind.
-/

set_option autoImplicit false

namespace Membrane

namespace Realm

/-- How often reads can strike a handle off. -/
def listed (x : Realm) (h : Handle) : Nat := x.innermost.count h + x.lowered.count h

variable {g : Host.Value}

theorem lists_iff (x : Realm) (h : Handle) : x.Lists h ↔ 0 < x.listed h := by
  rw [Lists, listed, ← List.count_pos_iff, ← List.count_pos_iff]
  omega

theorem listed_read (x : Realm) (k h : Handle) :
    (x.read k).listed h = x.listed h - k.only h := by
  rw [listed, listed, innermost_read, lowered_read]
  have struck := x.innermost_claimLowered k h
  by_cases inside : k ∈ x.innermost
  · obtain ⟨frame, outer, _, _, same⟩ := x.claimLowered_of_inside k inside
    have pending : (x.claimLowered k).lowered = x.lowered := by rw [same]
    rw [if_pos inside] at struck
    rw [pending]
    omega
  · have pending : (x.claimLowered k).lowered = claimFrom x.lowered k := by
      rw [x.claimLowered_of_outside k inside]
    have outside : h = k → x.innermost.count h = 0 := by
      rintro rfl
      exact List.count_eq_zero.mpr inside
    rw [if_neg inside] at struck
    rw [pending, count_claimFrom, Handle.only]
    split
    · next same =>
      have none := outside same
      omega
    · omega

/-- A read gives one reference back, and one string less is owed if the handle is listed. -/
theorem owed_read_add (x : Realm) (k h : Handle) :
    (x.read k).owed h + min (k.only h) (x.listed h) = x.owed h := by
  rw [owed_read]
  by_cases same : h = k
  · subst same
    rw [Handle.only_self]
    by_cases listed : x.Lists h
    · have struck := x.owed_claimLowered h listed h
      rw [Handle.only_self] at struck
      have positive := (x.lists_iff h).mp listed
      omega
    · have none := mt (x.lists_iff h).mpr listed
      rw [x.claimLowered_of_unlisted h listed]
      omega
  · rw [Handle.only_of_ne k h same]
    by_cases listed : x.Lists k
    · have struck := x.owed_claimLowered k listed h
      rw [Handle.only_of_ne k h same] at struck
      omega
    · rw [x.claimLowered_of_unlisted k listed]
      omega

/-- Several handles are read one after the other. -/
theorem reads_spec (ks : List Handle) (x : Realm) (sound : x.table.Sound g) :
    (ks.foldl read x).table.Sound g ∧
      ∀ h, (ks.foldl read x).table.lent h = x.table.lent h - ks.count h ∧
        (ks.foldl read x).owed h + min (ks.count h) (x.listed h) = x.owed h := by
  induction ks generalizing x with
  | nil => exact ⟨sound, fun h => ⟨rfl, by rw [List.count_nil, Nat.zero_min]; rfl⟩⟩
  | cons k ks ih =>
    obtain ⟨kept, less⟩ := sound.releaseQuietly k
    obtain ⟨rest, all⟩ := ih (x.read k) (by rwa [table_read])
    refine ⟨rest, fun h => ?_⟩
    obtain ⟨lent, owed⟩ := all h
    rw [table_read, less h] at lent
    rw [listed_read] at owed
    have first := x.owed_read_add k h
    rw [List.foldl_cons, k.count_cons]
    exact ⟨by omega, by omega⟩

end Realm

namespace Act

open World

variable {α : Type}

/-- The owner of a realm can read whatever it likes. -/
theorem exec_reads (r : RealmId) (ks : List Handle) (w : World) (x : Realm)
    (present : w.realms[r]? = some x) (owner : x.owner = w.here) :
    ∃ texts, exec (ks.mapM (loadString r)) w =
      (.ok texts, w.withRealm r (ks.foldl Realm.read x)) := by
  induction ks generalizing w x with
  | nil => exact ⟨[], by rw [List.foldl_nil, withRealm_self w r x present]; rfl⟩
  | cons k ks ih =>
    have there := realm_withRealm w r x (x.read k) present
    obtain ⟨texts, rest⟩ := ih (w.withRealm r (x.read k)) (x.read k) there
      ((x.owner_read k).trans owner)
    rw [withRealm_withRealm] at rest
    refine ⟨x.stringAt w.heap.typeName k :: texts, ?_⟩
    rw [List.mapM_cons, exec_bind, exec_loadString w r x present owner k, goOn_ok, exec_bind, rest,
      goOn_ok, exec_pure, List.foldl_cons]

/-- Some handles are read before code is run that does not read a handle. Of the references to it
that were read, as many stay behind as strings were struck off for them. -/
theorem lent_after_reads (depth : Nat) (r : RealmId) (ks : List Handle) (c : Code α) (w w' : World)
    (a : α) (x : Realm) (g : Host.Value) (present : w.realms[r]? = some x)
    (owner : x.owner = w.here) (sound : x.table.Sound g) :
    ∃ texts v, exec (ks.mapM (loadString r)) w = (.ok texts, v) ∧
      (exec (c.exec (performer depth)) v = (.ok a, w') →
        (∃ t, Recorded r (performer depth) c v t a w') ∧
          ∀ t, Recorded r (performer depth) c v t a w' → x.table.RoomFor t.taken →
            ∃ y, w'.realms[r]? = some y ∧
              ∀ h, t.reads h = 0 → x.owed h + ks.count h + t.lost h ≤ x.table.lent h →
                y.table.lent h + x.owed h + t.lost h + ks.count h =
                  x.table.lent h + y.owed h + t.gained h + min (ks.count h) (x.listed h)) := by
  obtain ⟨texts, read⟩ := exec_reads r ks w x present owner
  have there := realm_withRealm w r x (ks.foldl Realm.read x) present
  obtain ⟨kept, after⟩ := Realm.reads_spec ks x sound
  refine ⟨texts, _, read, fun run => ⟨exists_recorded depth c _ w' a _ there run,
    fun t recorded room => ?_⟩⟩
  have room : (ks.foldl Realm.read x).table.RoomFor (t.taken + 0) :=
    room.of_lent_le sound kept fun h => by
      rw [(after h).1]
      exact Nat.sub_le _ _
  obtain ⟨y, last, course⟩ := recorded.course _ there
  refine ⟨y, last, fun h unread enough => ?_⟩
  obtain ⟨lent, owed⟩ := after h
  have even := (course.balanced kept room).2.2 h
  have firm : t.claimed h + t.strayed h = 0 := unread
  have none := course.short_eq_zero kept room h (by omega)
  omega

/-- Somebody reads a text of his own that is lowered as well, and the call that follows leaves it
alone: a reference stays behind for good. -/
theorem lent_after_read_of_own :
    Realm.shared.lowered = [Realm.sharedHandle] ∧
      Realm.shared.table.lent Realm.sharedHandle = 2 ∧
      ∃ texts v w' y, exec ([Realm.sharedHandle].mapM (loadString 0))
            (lone .shared [("g", .ignoring)]) = (.ok texts, v) ∧
        exec ((Code.request (.invokeImport 0 "g" [])).exec (performer 1)) v = (.ok Wire.void, w') ∧
        w'.realms[0]? = some y ∧ y.owed Realm.sharedHandle = 0 ∧
        y.table.lent Realm.sharedHandle = 1 := by
  obtain ⟨sound, room, idle, pending, two⟩ := Realm.shared_state
  refine ⟨pending, two, ?_⟩
  let imports := [("g", Import.ignoring)]
  let x := Realm.shared.read Realm.sharedHandle
  have inside : Recorded 0 (performer 0) (Import.ignoring.run 0 []) (lone x.openFrame imports) .none
      (.ok .void) (lone x.openFrame imports) := .done _ _
  have called := exec_perform_invokeImport_lone x imports (performer 0)
    (Realm.shared.owner_read Realm.sharedHandle) "g" [] .ignoring rfl _ x.openFrame inside.exec
  have recorded : Recorded 0 (performer 1) (.request (.invokeImport 0 "g" [])) (lone x imports) _
      Wire.void (lone x.openFrame.closeFrame imports) :=
    .call (x := x) rfl rfl inside rfl called (.done _ _)
  obtain ⟨texts, v, read, rest⟩ := lent_after_reads 1 0 [Realm.sharedHandle]
    (.request (.invokeImport 0 "g" [])) (lone .shared imports) _ Wire.void .shared (.object 0) rfl
    rfl sound
  obtain ⟨_, same⟩ := exec_reads 0 [Realm.sharedHandle] (lone .shared imports) .shared rfl rfl
  cases read.symm.trans same
  obtain ⟨y, there, even⟩ := (rest recorded.exec).2 _ recorded (room.mono (Nat.zero_le _))
  have listed : Realm.shared.listed Realm.sharedHandle = 1 := by
    rw [Realm.listed, Realm.innermost, idle, pending, List.count_singleton_self]
    rfl
  have owed : Realm.shared.owed Realm.sharedHandle = 1 := by
    rw [Realm.owed, pending, idle, List.count_singleton_self]
    rfl
  have settled : y.owed Realm.sharedHandle = 0 := by
    obtain rfl : x.openFrame.closeFrame = y := Option.some.inj there
    have closed := x.openFrame.owed_closeFrame Realm.sharedHandle
    have read := ((Realm.reads_spec [Realm.sharedHandle] .shared sound).2 Realm.sharedHandle).2
    rw [Realm.owed_openFrame] at closed
    rw [listed, owed, List.count_singleton_self] at read
    have rest : x.owed Realm.sharedHandle + 1 = 1 := read
    omega
  refine ⟨_, _, _, y, read, recorded.exec, there, settled, ?_⟩
  have even := even Realm.sharedHandle rfl
  rw [owed, two, listed, settled, List.count_singleton_self] at even
  have even : y.table.lent Realm.sharedHandle + 1 + 0 + 1 = 2 + 0 + 0 + 1 := even (Nat.le_refl 2)
  omega

end Act

end Membrane
