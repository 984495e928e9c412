import Membrane.Proofs.Table.Lent
/-!
Strings that are lowered for imports. A realm owes every one of them: those that are pending to the
next import that is called, those in a frame to the import that runs. A read looks for its handle in
the innermost frame and then among the pending ones, and strikes it off there, whoever the reference
that is read belongs to.
-/

set_option autoImplicit false

namespace Membrane.Realm

theorem swapRemove_perm (items : List Handle) (place : Nat) (inside : place < items.length) :
    (swapRemove items place).Perm (items.eraseIdx place) := by
  obtain rfl | ⟨init, last, rfl⟩ := items.eq_nil_or_concat
  · exact absurd inside (Nat.not_lt_zero _)
  · simp only [List.concat_eq_append, List.length_append, List.length_singleton] at inside ⊢
    simp only [swapRemove, List.getLast?_append, List.getLast?_singleton, Option.some_or]
    rcases Nat.lt_or_eq_of_le (Nat.le_of_lt_succ inside) with before | rfl
    · rw [List.set_append_left _ _ before, List.dropLast_concat,
        List.eraseIdx_append_of_lt_length before]
      exact (List.set_perm_cons_eraseIdx before last).trans (List.perm_append_singleton last _).symm
    · rw [List.set_append_right _ _ (Nat.le_refl _),
        List.eraseIdx_append_of_length_le (Nat.le_refl _), Nat.sub_self]
      simp

/-- What is claimed from a list is one occurrence of a handle, if there is one. -/
theorem claimFrom_perm (items : List Handle) (h : Handle) :
    (claimFrom items h).Perm (items.erase h) := by
  rw [claimFrom, List.erase_eq_eraseIdx]
  cases place : items.idxOf? h with
  | none => exact List.Perm.refl items
  | some i =>
    obtain ⟨inside, _⟩ := List.findIdx?_eq_some_iff_getElem.mp place
    exact swapRemove_perm items i inside

example : claimFrom [⟨3⟩, ⟨2⟩, ⟨3⟩, ⟨4⟩] ⟨3⟩ = [⟨4⟩, ⟨2⟩, ⟨3⟩] := by decide

theorem count_claimFrom (items : List Handle) (h k : Handle) :
    (claimFrom items h).count k = items.count k - h.only k := by
  rw [(claimFrom_perm items h).count_eq, List.count_erase, Handle.only]
  simp only [beq_iff_eq, eq_comm (a := k)]

theorem count_concat (items : List Handle) (h k : Handle) :
    (items ++ [h]).count k = items.count k + h.only k := by
  rw [List.count_append, h.count_cons, List.count_nil, Nat.zero_add]

theorem claimFrom_subperm (items : List Handle) (h : Handle) : (claimFrom items h).Subperm items :=
  (claimFrom_perm items h).subperm.trans (List.erase_subperm h items)

/-- The strings that the innermost running import owns. -/
def innermost (x : Realm) : List Handle := x.frames.headD []

/-- Whether a read of a handle strikes a string off: one that the innermost import owns or one that
is pending. -/
def Lists (x : Realm) (h : Handle) : Prop := h ∈ x.innermost ∨ h ∈ x.lowered

instance (x : Realm) (h : Handle) : Decidable (x.Lists h) :=
  inferInstanceAs (Decidable (h ∈ x.innermost ∨ h ∈ x.lowered))

/-- How many references to a handle are to be given back by imports, running ones and the next. -/
def owed (x : Realm) (h : Handle) : Nat := x.lowered.count h + x.frames.flatten.count h

/-- A string that is read is struck off, and the reference that is read is given back. -/
def read (x : Realm) (h : Handle) : Realm := (x.claimLowered h).releaseQuietly h

variable (x : Realm)

theorem takeString_realm (names : Host.Value → String) (h : Handle) :
    (x.takeString names h).2 = x.releaseQuietly h := by
  unfold takeString
  split
  · rfl
  · next dead =>
    have absent : x.table.find? h = none := by
      rwa [RefTable.contains_eq, Option.not_isSome_iff_eq_none] at dead
    rw [releaseQuietly_eq, RefTable.releaseQuietly, RefTable.release_of_dead h absent]

theorem claimLowered_of_inside (h : Handle) (inside : h ∈ x.innermost) :
    ∃ frame outer, x.frames = frame :: outer ∧ h ∈ frame ∧
      x.claimLowered h = { x with frames := claimFrom frame h :: outer } := by
  unfold innermost at inside
  cases frames : x.frames with
  | nil =>
    rw [frames, List.headD_nil] at inside
    exact absurd inside List.not_mem_nil
  | cons frame outer =>
    rw [frames, List.headD_cons] at inside
    refine ⟨frame, outer, rfl, inside, ?_⟩
    simp only [claimLowered, frames, inside, ↓reduceIte]

theorem claimLowered_of_outside (h : Handle) (outside : h ∉ x.innermost) :
    x.claimLowered h = { x with lowered := claimFrom x.lowered h } := by
  unfold innermost at outside
  cases frames : x.frames with
  | nil => simp only [claimLowered, frames]
  | cons frame outer =>
    rw [frames, List.headD_cons] at outside
    simp only [claimLowered, frames, outside, ↓reduceIte]

/-- A handle that is not listed strikes nothing off. -/
theorem claimLowered_of_unlisted (h : Handle) (unlisted : ¬ x.Lists h) : x.claimLowered h = x := by
  obtain ⟨outside, settled⟩ := not_or.mp unlisted
  rw [x.claimLowered_of_outside h outside, claimFrom, List.idxOf?_eq_none_iff.mpr settled]

/-- A claim changes the lists of strings and nothing else. -/
theorem claimLowered_eq (h : Handle) :
    ∃ lowered frames, x.claimLowered h = { x with lowered, frames } := by
  by_cases inside : h ∈ x.innermost
  · obtain ⟨frame, outer, _, _, same⟩ := x.claimLowered_of_inside h inside
    exact ⟨x.lowered, _, same⟩
  · exact ⟨_, x.frames, x.claimLowered_of_outside h inside⟩

theorem claimLowered_kept (h : Handle) :
    (x.claimLowered h).table = x.table ∧ (x.claimLowered h).owner = x.owner := by
  obtain ⟨lowered, frames, same⟩ := x.claimLowered_eq h
  rw [same]
  exact ⟨rfl, rfl⟩

/-- A handle that is struck off a list is there once less. -/
theorem count_claimFrom_of_mem (items : List Handle) (h : Handle) (member : h ∈ items)
    (k : Handle) : (claimFrom items h).count k + h.only k = items.count k := by
  have positive : 0 < items.count h := List.count_pos_iff.mpr member
  rw [count_claimFrom, Handle.only]
  split
  · next same => exact same ▸ Nat.sub_add_cancel positive
  · rfl

theorem innermost_claimLowered (h k : Handle) :
    (x.claimLowered h).innermost.count k + (if h ∈ x.innermost then h.only k else 0) =
      x.innermost.count k := by
  split
  · next inside =>
    obtain ⟨frame, outer, frames, member, same⟩ := x.claimLowered_of_inside h inside
    rw [same, innermost, innermost, frames]
    exact count_claimFrom_of_mem frame h member k
  · next outside =>
    rw [x.claimLowered_of_outside h outside]
    rfl

theorem lowered_claimLowered (h k : Handle) (other : k ≠ h) :
    (x.claimLowered h).lowered.count k = x.lowered.count k := by
  by_cases inside : h ∈ x.innermost
  · obtain ⟨frame, outer, _, _, same⟩ := x.claimLowered_of_inside h inside
    rw [same]
  · rw [x.claimLowered_of_outside h inside]
    show (claimFrom x.lowered h).count k = x.lowered.count k
    rw [count_claimFrom, Handle.only_of_ne h k other, Nat.sub_zero]

/-- A handle that is listed is owed once less after it was read. -/
theorem owed_claimLowered (h : Handle) (listed : x.Lists h) (k : Handle) :
    (x.claimLowered h).owed k + h.only k = x.owed k := by
  by_cases inside : h ∈ x.innermost
  · obtain ⟨frame, outer, frames, member, same⟩ := x.claimLowered_of_inside h inside
    have rest := count_claimFrom_of_mem frame h member k
    rw [same]
    simp only [owed, frames, List.flatten_cons, List.count_append]
    omega
  · have rest := count_claimFrom_of_mem x.lowered h (listed.resolve_left inside) k
    rw [x.claimLowered_of_outside h inside]
    simp only [owed]
    omega

/-- A string that is lowered is owed to the next import that is called. -/
theorem owed_lowerString (text : String) (k : Handle) :
    (x.lowerString text).2.owed k = x.owed k + (x.lowerString text).1.only k := by
  have pending : (x.lowerString text).2.lowered = x.lowered ++ [(x.lowerString text).1] := rfl
  have frames : (x.lowerString text).2.frames = x.frames := rfl
  rw [owed, owed, pending, frames, count_concat]
  omega

theorem owed_read (h k : Handle) : (x.read h).owed k = (x.claimLowered h).owed k := by
  rw [read, releaseQuietly_eq]
  rfl

theorem table_read (h : Handle) : (x.read h).table = x.table.releaseQuietly h := by
  rw [read, releaseQuietly_eq, (x.claimLowered_kept h).1]

theorem owner_read (h : Handle) : (x.read h).owner = x.owner := by
  rw [read, releaseQuietly_eq]
  exact (x.claimLowered_kept h).2

theorem lowered_read (h : Handle) : (x.read h).lowered = (x.claimLowered h).lowered := by
  rw [read, releaseQuietly_eq]

theorem innermost_read (h : Handle) : (x.read h).innermost = (x.claimLowered h).innermost := by
  rw [read, releaseQuietly_eq]
  rfl

theorem closeFrame_eq (frame : List Handle) (outer : List (List Handle))
    (running : x.frames = frame :: outer) :
    x.closeFrame =
      { x with frames := outer, table := frame.foldl RefTable.releaseQuietly x.table } := by
  have all : ∀ (hs : List Handle) (y : Realm),
      hs.foldl releaseQuietly y = { y with table := hs.foldl RefTable.releaseQuietly y.table } := by
    intro hs
    induction hs with
    | nil => exact fun _ => rfl
    | cons h hs ih =>
      intro y
      rw [List.foldl_cons, ih, releaseQuietly_eq, List.foldl_cons]
  rw [closeFrame, running]
  exact all frame _

theorem closeFrame_of_idle (idle : x.frames = []) : x.closeFrame = x := by
  rw [closeFrame, idle]

theorem owed_openFrame (h : Handle) : x.openFrame.owed h = x.owed h := by
  simp only [owed, openFrame, List.count_nil, List.flatten_cons, List.count_append, Nat.zero_add]

/-- With a frame goes all that its import owns. -/
theorem owed_closeFrame (h : Handle) :
    x.closeFrame.owed h + x.innermost.count h = x.owed h := by
  unfold innermost
  cases running : x.frames with
  | nil => rw [x.closeFrame_of_idle running, List.headD_nil, List.count_nil, Nat.add_zero]
  | cons frame outer =>
    rw [x.closeFrame_eq frame outer running]
    simp only [owed, running, List.headD_cons, List.flatten_cons, List.count_append]
    omega

theorem table_closeFrame :
    x.closeFrame.table = x.innermost.foldl RefTable.releaseQuietly x.table := by
  unfold innermost
  cases running : x.frames with
  | nil => rw [x.closeFrame_of_idle running, List.headD_nil, List.foldl_nil]
  | cons frame outer => rw [x.closeFrame_eq frame outer running, List.headD_cons]

end Membrane.Realm
