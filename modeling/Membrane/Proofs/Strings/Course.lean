import Membrane.Proofs.Strings.Claim
/-!
What a realm goes through as far as its references are concerned, with calls of imports inside one
another. A tally counts what was done; the references that are held and those that are owed stay
balanced by it, whatever the order of events is.
-/

set_option autoImplicit false

namespace Membrane

/-- What was done to the references of a realm, handle by handle. -/
structure Tally where
  /-- The references taken, to all handles together. -/
  taken : Nat
  /-- The calls of imports. -/
  calls : Nat
  /-- References taken that are nobody's but the taker's. -/
  gained : Handle → Nat
  /-- References given back that were lent. -/
  lost : Handle → Nat
  /-- Strings lowered. -/
  lowered : Handle → Nat
  /-- Reads that struck a lowered string off. -/
  claimed : Handle → Nat
  /-- Reads that gave back a reference and struck nothing off. -/
  strayed : Handle → Nat
  /-- References that were owed and no longer there when they were to be given back. -/
  short : Handle → Nat

namespace Tally

def none : Tally := ⟨0, 0, 0, 0, 0, 0, 0, 0⟩

/-- One after the other. -/
def followedBy (s t : Tally) : Tally :=
  { taken := s.taken + t.taken, calls := s.calls + t.calls
    gained := s.gained + t.gained, lost := s.lost + t.lost
    lowered := s.lowered + t.lowered, claimed := s.claimed + t.claimed
    strayed := s.strayed + t.strayed, short := s.short + t.short }

theorem followedBy_none (t : Tally) : t.followedBy none = t := by
  cases t
  simp only [followedBy, none, add_zero]

def gain (h : Handle) : Tally := { none with taken := 1, gained := h.only }

/-- A reference is given back; where none is lent, nothing is. -/
def loss (x : Realm) (h : Handle) : Tally :=
  { none with lost := fun k => min (h.only k) (x.table.lent k) }

def lowering (h : Handle) : Tally := { none with taken := 1, lowered := h.only }

/-- A handle is read. -/
def reading (x : Realm) (h : Handle) : Tally :=
  if x.Lists h then
    { none with claimed := h.only, short := fun k => h.only k - x.table.lent k }
  else { none with strayed := fun k => min (h.only k) (x.table.lent k) }

theorem reading_of_listed (x : Realm) (h : Handle) (listed : x.Lists h) :
    reading x h =
      { none with claimed := h.only, short := fun k => h.only k - x.table.lent k } :=
  if_pos listed

theorem reading_of_unlisted (x : Realm) (h : Handle) (unlisted : ¬ x.Lists h) :
    reading x h = { none with strayed := fun k => min (h.only k) (x.table.lent k) } :=
  if_neg unlisted

/-- A read is a read of one handle. -/
theorem reading_of_ne (x : Realm) (h k : Handle) (other : k ≠ h) :
    (reading x h).claimed k = 0 ∧ (reading x h).strayed k = 0 := by
  unfold reading
  split <;> simp [none, Handle.only_of_ne h k other]

/-- An import was called for that all this was done, and what it owns is given back in the end. -/
def closing (t : Tally) (x : Realm) : Tally :=
  { t with
    calls := t.calls + 1
    short := fun h => t.short h + (x.innermost.count h - x.table.lent h) }

/-- The reads of a handle that was live. -/
def reads (t : Tally) (h : Handle) : Nat := t.claimed h + t.strayed h

end Tally

/-- What strings and references depend on. -/
structure Holdings where
  owner : ThreadId
  table : RefTable
  lowered : List Handle
  frames : List (List Handle)

namespace Realm

def holdings (x : Realm) : Holdings := ⟨x.owner, x.table, x.lowered, x.frames⟩

/-- What a realm goes through. -/
inductive Course : Realm → Tally → Realm → Prop
  | aside {x y : Realm} (same : y.holdings = x.holdings) : Course x .none y
  | retain (x : Realm) (v : Host.Value) : Course x (.gain (x.retain v).1) (x.retain v).2
  | copy (x : Realm) (h : Handle) {table : RefTable} (done : x.table.retainHandle h = .ok table) :
      Course x (.gain h) { x with table }
  | release (x : Realm) (h : Handle) :
      Course x (.loss x h) { x with table := x.table.releaseQuietly h }
  | lower (x : Realm) (text : String) :
      Course x (.lowering (x.lowerString text).1) (x.lowerString text).2
  | read (x : Realm) (h : Handle) : Course x (.reading x h) (x.read h)
  | call {x y : Realm} {t : Tally} (inside : Course x.openFrame t y) :
      Course x (t.closing y) y.closeFrame
  | andThen {x y z : Realm} {s t : Tally} (first : Course x s y) (rest : Course y t z) :
      Course x (s.followedBy t) z

/-- The frames of running imports, of which the innermost one may have lost some of its strings. -/
inductive Shrunk : List (List Handle) → List (List Handle) → Prop
  | idle : Shrunk [] []
  | running {frame left : List Handle} (outer : List (List Handle)) (less : left.Subperm frame) :
      Shrunk (frame :: outer) (left :: outer)

theorem Shrunk.refl (frames : List (List Handle)) : Shrunk frames frames := by
  cases frames with
  | nil => exact .idle
  | cons frame outer => exact .running outer (List.Subperm.refl frame)

theorem Shrunk.trans {a b c : List (List Handle)} (first : Shrunk a b) (rest : Shrunk b c) :
    Shrunk a c := by
  cases first with
  | idle => exact rest
  | running outer less =>
    cases rest with
    | running _ again => exact .running outer (again.trans less)

theorem Shrunk.eq_nil {b : List (List Handle)} (shrunk : Shrunk [] b) : b = [] := by
  cases shrunk
  rfl

theorem Shrunk.exists_left {frame : List Handle} {outer b : List (List Handle)}
    (shrunk : Shrunk (frame :: outer) b) : ∃ left, b = left :: outer ∧ left.Subperm frame := by
  cases shrunk with
  | running _ less => exact ⟨_, rfl, less⟩

theorem claimLowered_shrunk (x : Realm) (h : Handle) :
    Shrunk x.frames (x.claimLowered h).frames := by
  by_cases inside : h ∈ x.innermost
  · obtain ⟨frame, outer, frames, _, same⟩ := x.claimLowered_of_inside h inside
    rw [same, frames]
    exact .running outer (claimFrom_subperm frame h)
  · rw [x.claimLowered_of_outside h inside]
    exact Shrunk.refl _

variable {g : Host.Value} {x y : Realm} {t : Tally}

/-- What stays of a realm in whatever it goes through: its owner, and the frames but for what is
read of the innermost one. -/
theorem Course.frames (course : Course x t y) : y.owner = x.owner ∧ Shrunk x.frames y.frames := by
  induction course with
  | @aside x y same =>
    have frames : y.frames = x.frames := congrArg Holdings.frames same
    exact ⟨congrArg Holdings.owner same, frames ▸ Shrunk.refl _⟩
  | retain | copy | release | lower => exact ⟨rfl, Shrunk.refl _⟩
  | read x h =>
    rw [Realm.read, releaseQuietly_eq]
    exact ⟨(x.claimLowered_kept h).2, x.claimLowered_shrunk h⟩
  | @call x y t _ ih =>
    obtain ⟨owner, shrunk⟩ := ih
    obtain ⟨left, running, _⟩ := shrunk.exists_left
    rw [y.closeFrame_eq left _ running]
    exact ⟨owner, Shrunk.refl _⟩
  | andThen _ _ first rest => exact ⟨rest.1.trans first.1, first.2.trans rest.2⟩

/-- When a call is over, the imports that were running before it own what they owned, and what it
owned itself was pending when it began. -/
theorem Course.frames_call (inside : Course x.openFrame t y) :
    y.frames = y.innermost :: x.frames ∧ y.innermost.Subperm x.lowered ∧
      y.closeFrame.frames = x.frames := by
  obtain ⟨left, running, less⟩ := inside.frames.2.exists_left
  rw [y.closeFrame_eq left _ running, innermost, running]
  exact ⟨rfl, less, rfl⟩

theorem closeFrame_lowered (x : Realm) : x.closeFrame.lowered = x.lowered := by
  cases running : x.frames with
  | nil => rw [x.closeFrame_of_idle running]
  | cons frame outer => rw [x.closeFrame_eq frame outer running]

/-- What is pending was pending before or was lowered meanwhile; after a call it was lowered
meanwhile. -/
theorem Course.pending (course : Course x t y) (h : Handle) :
    y.lowered.count h ≤ x.lowered.count h + t.lowered h ∧
      (0 < t.calls → y.lowered.count h ≤ t.lowered h) := by
  induction course with
  | @aside x y same =>
    have pending : y.lowered = x.lowered := congrArg Holdings.lowered same
    exact ⟨Nat.le_of_eq (pending ▸ rfl), fun called => absurd called (Nat.lt_irrefl 0)⟩
  | retain | copy | release => exact ⟨Nat.le_refl _, fun called => absurd called (Nat.lt_irrefl 0)⟩
  | lower x text =>
    refine ⟨?_, fun called => absurd called (Nat.lt_irrefl 0)⟩
    exact Nat.le_of_eq (count_concat x.lowered (x.lowerString text).1 h)
  | read x k =>
    have less : (x.claimLowered k).lowered.count h ≤ x.lowered.count h := by
      by_cases inside : k ∈ x.innermost
      · obtain ⟨frame, outer, _, _, same⟩ := x.claimLowered_of_inside k inside
        rw [same]
      · rw [x.claimLowered_of_outside k inside]
        exact (claimFrom_subperm _ _).count_le h
    rw [lowered_read]
    refine ⟨Nat.le_trans less (Nat.le_add_right _ _), fun called => ?_⟩
    unfold Tally.reading at called
    split at called <;> exact absurd called (Nat.lt_irrefl 0)
  | @call x y t _ ih =>
    rw [closeFrame_lowered]
    have inside : y.lowered.count h ≤ t.lowered h := by
      have bound := ih.1
      rwa [openFrame, List.count_nil, Nat.zero_add] at bound
    exact ⟨Nat.le_trans inside (Nat.le_add_left _ _), fun _ => inside⟩
  | andThen _ _ first rest =>
    simp only [Tally.followedBy, Pi.add_apply]
    omega

/-- As long as nothing is called and nothing read of what is pending, all stays pending. -/
theorem Course.pending_eq (course : Course x t y) (h : Handle) (quiet : t.calls = 0)
    (unread : t.claimed h = 0) : y.lowered.count h = x.lowered.count h + t.lowered h := by
  induction course with
  | @aside x y same =>
    have pending : y.lowered = x.lowered := congrArg Holdings.lowered same
    rw [pending]
    rfl
  | retain | copy | release => rfl
  | lower x text => exact count_concat x.lowered (x.lowerString text).1 h
  | read x k =>
    rw [lowered_read]
    by_cases listed : x.Lists k
    · rw [Tally.reading_of_listed x k listed] at unread ⊢
      have other : h ≠ k := by
        rintro rfl
        exact absurd ((Handle.only_self h).symm.trans unread) Nat.one_ne_zero
      exact x.lowered_claimLowered k h other
    · rw [Tally.reading_of_unlisted x k listed, x.claimLowered_of_unlisted k listed]
      rfl
  | call => exact absurd quiet (Nat.succ_ne_zero _)
  | @andThen x y z s t _ _ first rest =>
    have calm : s.calls + t.calls = 0 := quiet
    have unread : s.claimed h + t.claimed h = 0 := unread
    rw [rest (by omega) (by omega), first (by omega) (by omega)]
    exact Nat.add_assoc _ _ _

/-- The references that are held and those that are owed, after what a tally counts. -/
def Balanced (x : Realm) (t : Tally) (y : Realm) : Prop :=
  ∀ h, y.table.lent h + x.owed h + t.strayed h + t.lost h =
    x.table.lent h + y.owed h + t.gained h + t.short h

/-- Within the room of its table a realm stays sound, and nothing happens to its references that
the tally does not count. -/
theorem Course.balanced (course : Course x t y) {n : Nat} (sound : x.table.Sound g)
    (room : x.table.RoomFor (t.taken + n)) :
    y.table.Sound g ∧ y.table.RoomFor n ∧ Balanced x t y := by
  induction course generalizing n with
  | @aside x y same =>
    have table : y.table = x.table := congrArg Holdings.table same
    have owed : ∀ h, y.owed h = x.owed h := fun h => by
      have pending : y.lowered = x.lowered := congrArg Holdings.lowered same
      have frames : y.frames = x.frames := congrArg Holdings.frames same
      rw [Realm.owed, Realm.owed, pending, frames]
    refine ⟨table ▸ sound, table ▸ room.mono (Nat.le_add_left _ _), fun h => ?_⟩
    rw [table, owed h]
    rfl
  | retain x v =>
    obtain ⟨kept, left, more⟩ := sound.retain_lent v (room.mono (Nat.add_comm n 1).le)
    refine ⟨kept, left, fun h => ?_⟩
    show (x.table.retain v).2.lent h + x.owed h + 0 + 0 =
      x.table.lent h + x.owed h + (x.table.retain v).1.only h + 0
    have more := more h
    omega
  | @copy x h table done =>
    obtain ⟨kept, left, more⟩ := sound.retainHandle_lent h (room.mono (Nat.add_comm n 1).le) done
    refine ⟨kept, left, fun k => ?_⟩
    show table.lent k + x.owed k + 0 + 0 = x.table.lent k + x.owed k + h.only k + 0
    have more := more k
    omega
  | release x h =>
    obtain ⟨kept, less⟩ := sound.releaseQuietly h
    refine ⟨kept, (room.mono (Nat.le_add_left _ _)).releaseQuietly sound h, fun k => ?_⟩
    show (x.table.releaseQuietly h).lent k + x.owed k + 0 + min (h.only k) (x.table.lent k) =
      x.table.lent k + x.owed k + 0 + 0
    have less := less k
    omega
  | lower x text =>
    obtain ⟨kept, left, more⟩ :=
      sound.retain_lent (.string text) (room.mono (Nat.add_comm n 1).le)
    refine ⟨kept, left, fun h => ?_⟩
    show (x.table.retain (.string text)).2.lent h + x.owed h + 0 + 0 =
      x.table.lent h + (x.lowerString text).2.owed h + 0 + 0
    have more : _ = _ + (x.lowerString text).1.only h := more h
    have owed := x.owed_lowerString text h
    omega
  | read x k =>
    obtain ⟨kept, less⟩ := sound.releaseQuietly k
    rw [table_read]
    refine ⟨kept, (room.mono (Nat.le_add_left _ _)).releaseQuietly sound k, fun h => ?_⟩
    rw [table_read, owed_read]
    have less := less h
    by_cases listed : x.Lists k
    · rw [Tally.reading_of_listed x k listed]
      show (x.table.releaseQuietly k).lent h + x.owed h + 0 + 0 =
        x.table.lent h + (x.claimLowered k).owed h + 0 + (k.only h - x.table.lent h)
      have struck := x.owed_claimLowered k listed h
      omega
    · rw [Tally.reading_of_unlisted x k listed, x.claimLowered_of_unlisted k listed]
      show (x.table.releaseQuietly k).lent h + x.owed h + min (k.only h) (x.table.lent h) + 0 =
        x.table.lent h + x.owed h + 0 + 0
      omega
  | @call x y t _ ih =>
    -- The frame that is closed gives back what it lists, as far as that is still held.
    obtain ⟨kept, left, even⟩ := ih sound room
    obtain ⟨closed, less⟩ := kept.releaseAll y.innermost
    rw [table_closeFrame]
    refine ⟨closed, left.releaseAll kept y.innermost, fun h => ?_⟩
    rw [table_closeFrame]
    show _ + _ + t.strayed h + t.lost h =
      _ + _ + t.gained h + (t.short h + (y.innermost.count h - y.table.lent h))
    have even := even h
    rw [owed_openFrame] at even
    have owed := y.owed_closeFrame h
    have less := less h
    have table : x.openFrame.table = x.table := rfl
    rw [table] at even
    omega
  | @andThen x y z s t _ _ first rest =>
    obtain ⟨kept, left, even⟩ := first sound (n := t.taken + n) (by
      rw [← Nat.add_assoc]
      exact room)
    obtain ⟨kept, left, more⟩ := rest kept left
    refine ⟨kept, left, fun h => ?_⟩
    show _ + _ + (s.strayed h + t.strayed h) + (s.lost h + t.lost h) =
      _ + _ + (s.gained h + t.gained h) + (s.short h + t.short h)
    have even := even h
    have more := more h
    omega

/-- Nothing that is owed is missing as long as the references that are owed and those that are given
back are held. -/
theorem Course.short_eq_zero (course : Course x t y) {n : Nat} (sound : x.table.Sound g)
    (room : x.table.RoomFor (t.taken + n)) (h : Handle)
    (enough : x.owed h + t.strayed h + t.lost h ≤ x.table.lent h) : t.short h = 0 := by
  induction course generalizing n with
  | aside | retain | copy | release | lower => rfl
  | read x k =>
    by_cases listed : x.Lists k
    · rw [Tally.reading_of_listed x k listed]
      have struck := x.owed_claimLowered k listed h
      show k.only h - x.table.lent h = 0
      omega
    · rw [Tally.reading_of_unlisted x k listed]
      rfl
  | @call x y t inside ih =>
    obtain ⟨kept, left, even⟩ := inside.balanced (g := g) sound room
    have even := even h
    rw [owed_openFrame] at even
    have none : t.short h = 0 := ih sound room (by rwa [owed_openFrame])
    have table : x.openFrame.table = x.table := rfl
    have owed := y.owed_closeFrame h
    rw [table] at even
    have enough : x.owed h + t.strayed h + t.lost h ≤ x.table.lent h := enough
    show t.short h + (y.innermost.count h - y.table.lent h) = 0
    omega
  | @andThen x y z s t first _ ihFirst ihRest =>
    have room : x.table.RoomFor (s.taken + (t.taken + n)) := by
      rw [← Nat.add_assoc]
      exact room
    obtain ⟨kept, left, even⟩ := first.balanced sound room
    have enough : x.owed h + (s.strayed h + t.strayed h) + (s.lost h + t.lost h) ≤
        x.table.lent h := enough
    have before : s.short h = 0 := ihFirst sound room (by omega)
    have even := even h
    have after : t.short h = 0 := ihRest kept left (by omega)
    show s.short h + t.short h = 0
    omega

/-- Without calls and lowering of its own an import reads what its frame has of a handle, and strays
only when that has run out. -/
theorem Course.reads_of_quiet (course : Course x t y) (h : Handle) (quiet : t.calls = 0)
    (dry : x.lowered.count h + t.lowered h = 0) :
    y.innermost.count h + t.claimed h = x.innermost.count h ∧
      (0 < t.strayed h → y.innermost.count h = 0) := by
  induction course with
  | @aside x y same =>
    have frames : y.frames = x.frames := congrArg Holdings.frames same
    rw [innermost, innermost, frames]
    exact ⟨rfl, fun strayed => absurd strayed (Nat.lt_irrefl 0)⟩
  | retain | copy | release | lower => exact ⟨rfl, fun strayed => absurd strayed (Nat.lt_irrefl 0)⟩
  | read x k =>
    have struck := x.innermost_claimLowered k h
    rw [innermost_read]
    by_cases same : h = k
    · subst same
      have pending : h ∉ x.lowered := by
        rw [← List.count_eq_zero]
        omega
      by_cases inside : h ∈ x.innermost
      · rw [if_pos inside] at struck
        rw [Tally.reading_of_listed x h (Or.inl inside)]
        exact ⟨struck, fun strayed => absurd strayed (Nat.lt_irrefl 0)⟩
      · rw [if_neg inside, Nat.add_zero] at struck
        rw [Tally.reading_of_unlisted x h (not_or.mpr ⟨inside, pending⟩), struck]
        exact ⟨rfl, fun _ => List.count_eq_zero.mpr inside⟩
    · obtain ⟨unclaimed, firm⟩ := Tally.reading_of_ne x k h same
      rw [Handle.only_of_ne k h same, ite_self, Nat.add_zero] at struck
      rw [unclaimed, firm, struck]
      exact ⟨rfl, fun strayed => absurd strayed (Nat.lt_irrefl 0)⟩
  | call => exact absurd quiet (Nat.succ_ne_zero _)
  | @andThen x y z s t first rest ihFirst ihRest =>
    have calm : s.calls + t.calls = 0 := quiet
    have dry : x.lowered.count h + (s.lowered h + t.lowered h) = 0 := dry
    have pending := (first.pending h).1
    obtain ⟨before, strays⟩ := ihFirst (by omega) (by omega)
    obtain ⟨after, more⟩ := ihRest (by omega) (by omega)
    show _ + (s.claimed h + t.claimed h) = _ ∧ (0 < s.strayed h + t.strayed h → _)
    refine ⟨by omega, fun strayed => ?_⟩
    rcases Nat.eq_zero_or_pos (t.strayed h) with none | some
    · have gone := strays (by omega)
      omega
    · exact more some

end Realm

end Membrane
