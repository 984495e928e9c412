import Membrane.Proofs.Table.Shift
/-!
References that a table holds for others than itself. A reference that is given back where nobody
looks at a failure is one less of them, or leaves none if there was none. A table has room for a
number of references as long as no count and no number of handles can get out of range by them.
-/

set_option autoImplicit false

namespace Membrane

/-- One of a handle and none of any other. -/
def Handle.only (h k : Handle) : Nat := if k = h then 1 else 0

theorem Handle.only_self (h : Handle) : h.only h = 1 := if_pos rfl

theorem Handle.only_of_ne (h k : Handle) (other : k ≠ h) : h.only k = 0 := if_neg other

theorem Handle.count_cons (h : Handle) (hs : List Handle) (k : Handle) :
    (h :: hs).count k = hs.count k + h.only k := by
  rw [List.count_cons, only]
  simp only [beq_iff_eq, eq_comm (a := k)]

namespace RefTable

/-- How many references to a handle are held for others. -/
def lent (t : RefTable) (h : Handle) : Nat := t.count h - rooted h

/-- There is room for so many references, to whatever handles they are. -/
def RoomFor (t : RefTable) (n : Nat) : Prop :=
  (∀ h, t.count h + n < 2 ^ 32) ∧ t.dynamicHandles.ncard + n ≤ 2 ^ 32 - 3

variable {g : Host.Value} {t t' : RefTable} {n : Nat}

theorem rooted_le_one (h : Handle) : rooted h ≤ 1 := by
  unfold rooted
  split <;> omega

theorem Sound.rooted_le_count (sound : t.Sound g) (h : Handle) : rooted h ≤ t.count h := by
  unfold rooted
  split
  · next root => exact root ▸ sound.count_globalObject_pos
  · exact Nat.zero_le _

theorem Sound.count_eq_lent (sound : t.Sound g) (h : Handle) :
    t.count h = t.lent h + rooted h := by
  have held := sound.rooted_le_count h
  rw [lent]
  omega

theorem lent_le_count (t : RefTable) (h : Handle) : t.lent h ≤ t.count h := Nat.sub_le _ _

/-- What is lent of a handle that gets one more reference. -/
theorem Sound.lent_of_taken (sound : t.Sound g) (h : Handle)
    (counts : ∀ k, t'.count k = if k = h then t.count k + 1 else t.count k) (k : Handle) :
    t'.lent k = t.lent k + h.only k := by
  have held := sound.rooted_le_count k
  rw [lent, lent, counts k, Handle.only]
  split <;> omega

theorem lent_of_countAfterRelease (h : Handle) (m : Nat) (held : rooted h ≤ m) :
    countAfterRelease h m - rooted h = m - rooted h - 1 := by
  unfold countAfterRelease rooted at *
  split <;> simp_all
  omega

theorem Sound.lent_of_released (sound : t.Sound g) (h : Handle)
    (counts : ∀ k, t'.count k = if k = h then countAfterRelease h (t.count h) else t.count k)
    (k : Handle) : t'.lent k = t.lent k - h.only k := by
  rw [lent, lent, counts k, Handle.only]
  split
  · next same => rw [same, lent_of_countAfterRelease h _ (sound.rooted_le_count h)]
  · rfl

/-- Giving a reference back quietly takes one of those that are lent, if there is one. -/
theorem Sound.releaseQuietly (sound : t.Sound g) (h : Handle) :
    (t.releaseQuietly h).Sound g ∧
      ∀ k, (t.releaseQuietly h).lent k = t.lent k - h.only k := by
  rcases Nat.eq_zero_or_pos (t.count h) with dead | live
  · have same : t.releaseQuietly h = t := by
      rw [RefTable.releaseQuietly, release_of_dead h (find?_of_count_eq_zero sound h dead)]
    refine ⟨same.symm ▸ sound, fun k => ?_⟩
    rw [same, Handle.only]
    split
    · next here =>
      have none := t.lent_le_count h
      rw [here]
      omega
    · rfl
  · obtain ⟨t', done, kept, counts, _⟩ := sound.release h live
    have same : t.releaseQuietly h = t' := by rw [RefTable.releaseQuietly, done]
    rw [same]
    exact ⟨kept, sound.lent_of_released h counts⟩

/-- The references to several handles are given back one after the other. -/
theorem Sound.releaseAll (sound : t.Sound g) (hs : List Handle) :
    (hs.foldl RefTable.releaseQuietly t).Sound g ∧
      ∀ k, (hs.foldl RefTable.releaseQuietly t).lent k = t.lent k - hs.count k := by
  induction hs generalizing t with
  | nil => exact ⟨sound, fun k => rfl⟩
  | cons h hs ih =>
    obtain ⟨kept, less⟩ := sound.releaseQuietly h
    obtain ⟨rest, all⟩ := ih kept
    refine ⟨rest, fun k => ?_⟩
    rw [List.foldl_cons, all k, less k, Handle.count_cons, Nat.sub_sub, Nat.add_comm]

theorem dynamicHandles_subset (sound : t.Sound g) (h : Handle)
    (only : ∀ k, k ≠ h → t'.count k ≤ t.count k) (kept : t'.Sound g) :
    t'.dynamicHandles ⊆ insert h t.dynamicHandles := by
  rintro k ⟨dynamic, live⟩
  by_cases same : k = h
  · exact Or.inl same
  · have positive := kept.count_pos_of_contains k live
    have before := only k same
    exact Or.inr ⟨dynamic, (sound.count_pos_iff k).mp (by omega)⟩

/-- A reference takes one place of the room. -/
theorem RoomFor.of_taken (room : t.RoomFor (n + 1)) (sound : t.Sound g) (kept : t'.Sound g)
    (h : Handle) (counts : ∀ k, t'.count k = if k = h then t.count k + 1 else t.count k) :
    t'.RoomFor n := by
  have more := Set.ncard_le_ncard (dynamicHandles_subset sound h (fun k other => by
    rw [counts k, if_neg other]) kept) (Set.toFinite _)
  have one := Set.ncard_insert_le h t.dynamicHandles
  refine ⟨fun k => ?_, by have all := room.2; omega⟩
  have bound := room.1 k
  rw [counts k]
  split <;> omega

theorem RoomFor.of_le (room : t.RoomFor n) (sound : t.Sound g) (kept : t'.Sound g)
    (less : ∀ k, t'.count k ≤ t.count k) : t'.RoomFor n := by
  have fewer : t'.dynamicHandles ⊆ t.dynamicHandles := by
    rintro k ⟨dynamic, live⟩
    have positive := kept.count_pos_of_contains k live
    exact ⟨dynamic, (sound.count_pos_iff k).mp (Nat.lt_of_lt_of_le positive (less k))⟩
  have bound := Set.ncard_le_ncard fewer (Set.toFinite _)
  exact ⟨fun k => Nat.lt_of_le_of_lt (Nat.add_le_add_right (less k) n) (room.1 k),
    Nat.le_trans (Nat.add_le_add_right bound n) room.2⟩

theorem RoomFor.of_lent_le (room : t.RoomFor n) (sound : t.Sound g) (kept : t'.Sound g)
    (less : ∀ k, t'.lent k ≤ t.lent k) : t'.RoomFor n := by
  refine room.of_le sound kept fun k => ?_
  rw [sound.count_eq_lent, kept.count_eq_lent]
  exact Nat.add_le_add_right (less k) _

theorem RoomFor.mono {m : Nat} (room : t.RoomFor m) (less : n ≤ m) : t.RoomFor n :=
  ⟨fun h => Nat.lt_of_le_of_lt (Nat.add_le_add_left less _) (room.1 h),
    Nat.le_trans (Nat.add_le_add_left less _) room.2⟩

/-- References that are given back leave the room there was. -/
theorem RoomFor.releaseAll (room : t.RoomFor n) (sound : t.Sound g) (hs : List Handle) :
    (hs.foldl RefTable.releaseQuietly t).RoomFor n := by
  obtain ⟨kept, less⟩ := sound.releaseAll hs
  exact room.of_lent_le sound kept fun k => (less k).trans_le (Nat.sub_le _ _)

theorem RoomFor.releaseQuietly (room : t.RoomFor n) (sound : t.Sound g) (h : Handle) :
    (t.releaseQuietly h).RoomFor n := room.releaseAll sound [h]

theorem RoomFor.fits_retain (room : t.RoomFor (n + 1)) (v : Host.Value) :
    (Call.retain v).Fits t := by
  refine ⟨fun h m _ live => ?_, fun _ => by have all := room.2; omega⟩
  have bound := room.1 h
  rw [count_of_refcount? h m live] at bound
  omega

/-- Whatever is retained within the room, there is a reference more to its handle. -/
theorem Sound.retain_lent (sound : t.Sound g) (v : Host.Value) (room : t.RoomFor (n + 1)) :
    (t.retain v).2.Sound g ∧ (t.retain v).2.RoomFor n ∧
      ∀ k, (t.retain v).2.lent k = t.lent k + (t.retain v).1.only k := by
  obtain ⟨kept, counts⟩ := sound.retain_within v (room.fits_retain v)
  exact ⟨kept, room.of_taken sound kept _ counts, sound.lent_of_taken _ counts⟩

theorem Sound.retainHandle_lent (sound : t.Sound g) (h : Handle) (room : t.RoomFor (n + 1))
    (done : t.retainHandle h = .ok t') :
    t'.Sound g ∧ t'.RoomFor n ∧
      ∀ k, t'.lent k = t.lent k + h.only k := by
  rcases Nat.eq_zero_or_pos (t.count h) with dead | live
  · rw [retainHandle_of_dead h (find?_of_count_eq_zero sound h dead)] at done
    cases done
  · obtain ⟨u, same, kept, counts, _⟩ := sound.retainHandle h live (by
      have bound := room.1 h
      omega)
    obtain rfl := Except.ok.inj (same.symm.trans done)
    have more : ∀ k, u.count k = if k = h then t.count k + 1 else t.count k := by
      intro k
      rw [counts k]
      split
      · next here => rw [here]
      · rfl
    exact ⟨kept, room.of_taken sound kept h more, sound.lent_of_taken h more⟩

/-- A value that was retained is retained at the same handle again. -/
theorem Sound.retain_retain_fst (sound : t.Sound g) (v : Host.Value)
    (room : t.RoomFor (n + 1)) : ((t.retain v).2.retain v).1 = (t.retain v).1 := by
  have fits := room.fits_retain v
  have kept := (sound.retain_within v fits).1
  have known := (lookup?_eq_some_iff kept v _).mpr (sound.value?_retain_within v fits).1
  obtain ⟨e, live, same⟩ := kept.exists_known v _ known
  rw [retain_of_known kept v _ e live same]

theorem lent_create (layout : Layout) (globalObject : Host.Value) (h : Handle) :
    (create layout globalObject).lent h = 0 := by
  rw [lent, count, find?_create, rooted]
  split <;> rfl

theorem create_roomFor (layout : Layout) (globalObject : Host.Value) (few : n ≤ 2 ^ 32 - 3) :
    (create layout globalObject).RoomFor n := by
  have sound := create_sound layout globalObject
  refine ⟨fun h => ?_, ?_⟩
  · have none := lent_create layout globalObject h
    have one := rooted_le_one h
    rw [sound.count_eq_lent]
    omega
  · rw [dynamicHandles_create, Set.ncard_empty]
    omega

end RefTable

end Membrane
