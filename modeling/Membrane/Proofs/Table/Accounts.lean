import Membrane.Proofs.Table.RefTable
/-!
Calls on a table in any order, with any values and handles. The count of a handle is the number of
references taken since the handle was last handed out less the number given back, and the handle is
live as long as that is not zero.
-/

set_option autoImplicit false

namespace Membrane.RefTable

inductive Call where
  | retain (v : Host.Value)
  | retainHandle (h : Handle)
  | release (h : Handle)
deriving DecidableEq

/-- What was done for a handle. -/
inductive Event where
  /-- The handle was handed out for a value that had none. -/
  | allocated (h : Handle)
  | retained (h : Handle)
  | released (h : Handle)
deriving DecidableEq

namespace Call

/-- The handle that a call answers with, and the table after it. A call that is refused leaves the
table as it was. -/
def perform (t : RefTable) : Call → Except Fault Handle × RefTable
  | .retain v => (.ok (t.retain v).1, (t.retain v).2)
  | .retainHandle h =>
    match t.retainHandle h with
    | .ok t' => (.ok h, t')
    | .error e => (.error e, t)
  | .release h =>
    match t.release h with
    | .ok t' => (.ok h, t')
    | .error e => (.error e, t)

/-- What a call that succeeds has done. -/
def events (t : RefTable) (c : Call) : List Event :=
  match c, (c.perform t).1 with
  | .retain v, .ok h => [if (t.lookup? v).isNone then .allocated h else .retained h]
  | .retainHandle _, .ok h => [.retained h]
  | .release _, .ok h => [.released h]
  | _, .error _ => []

end Call

/-- The live handles but that of the global object. -/
def dynamicHandles (t : RefTable) : Set Handle := { h | 2 ≤ h.raw.toNat ∧ t.contains h }

/-- No count passes its greatest value, and of the dynamic handles two are left before one is handed
out. -/
def Call.Fits (t : RefTable) : Call → Prop
  | .retain v =>
    (∀ h n, t.lookup? v = some h → t.refcount? h = some n → n.toNat < 2 ^ 32 - 1) ∧
      (t.lookup? v = none → t.dynamicHandles.ncard ≤ 2 ^ 32 - 4)
  | .retainHandle h => ∀ n, t.refcount? h = some n → n.toNat < 2 ^ 32 - 1
  | .release _ => True

/-- The tables that calls within the limits lead to, with what was done so far, the last first. -/
inductive Course (layout : Layout) (globalObject : Host.Value) : List Event → RefTable → Prop
  | create : Course layout globalObject [] (.create layout globalObject)
  | call {past : List Event} {t : RefTable} (c : Call) (course : Course layout globalObject past t)
      (fits : c.Fits t) : Course layout globalObject (c.events t ++ past) (c.perform t).2

/-- What was done since a handle was last handed out. -/
def sinceAllocated (h : Handle) : List Event → List Event
  | [] => []
  | e :: past => if e = .allocated h then [e] else e :: sinceAllocated h past

/-- The references taken to a handle since it was last handed out. -/
def taken (h : Handle) (past : List Event) : Nat :=
  (sinceAllocated h past).count (.allocated h) + (sinceAllocated h past).count (.retained h)

/-- The references to a handle given back since it was last handed out. -/
def givenBack (h : Handle) (past : List Event) : Nat :=
  (sinceAllocated h past).count (.released h)

/-- The state of a table after what was done. -/
structure Accounted (globalObject : Host.Value) (past : List Event) (t : RefTable) : Prop where
  lookup : ∀ v h, t.lookup? v = some h ↔ ∃ u, t.get h = .ok u ∧ u.key = v.key
  unique : ∀ h k u v, t.get h = .ok u → t.get k = .ok v → u.key = v.key → h = k
  counted : ∀ h n, h ≠ .globalObject → t.refcount? h = some n →
    0 < n.toNat ∧ n.toNat + givenBack h past = taken h past
  dead : ∀ h, h ≠ .globalObject → t.contains h = false → givenBack h past = taken h past
  invalid : t.contains .invalid = false
  root : t.get .globalObject = .ok globalObject ∧
    ∃ n, t.refcount? .globalObject = some n ∧ 0 < n.toNat
  size : t.liveCount = { h | t.contains h }.ncard

/-- What a call comes to on a table. -/
structure Answered (t : RefTable) (c : Call) : Prop where
  fresh : ∀ v, c = .retain v → t.lookup? v = none →
    t.contains (t.retain v).1 = false ∧ (t.retain v).2.refcount? (t.retain v).1 = some 1
  ended : ∀ h, t.contains h → ((c.perform t).2.contains h = false ↔
    c = .release h ∧ h ≠ .globalObject ∧ t.refcount? h = some 1)
  granted : ∀ h, t.contains h → (c = .retainHandle h ∨ c = .release h) → (c.perform t).1 = .ok h
  refusedRetain : ∀ h, t.contains h = false → c = .retainHandle h →
    c.perform t = (.error (.invalidReference h .retain), t)
  refusedRelease : ∀ h, t.contains h = false → c = .release h →
    c.perform t = (.error (.invalidReference h .release), t)

variable {layout : Layout} {g : Host.Value} {past : List Event} {t : RefTable}

theorem refcount?_eq_some_iff (h : Handle) (n : UInt32) :
    t.refcount? h = some n ↔ ∃ e, t.find? h = some e ∧ e.refcount = n := by
  simp only [refcount?, Option.map_eq_some_iff]

theorem count_of_refcount? (h : Handle) (n : UInt32) (live : t.refcount? h = some n) :
    t.count h = n.toNat := by
  obtain ⟨e, present, rfl⟩ := (refcount?_eq_some_iff h n).mp live
  exact count_of_entry h e present

theorem Sound.refcount?_of_count (sound : t.Sound g) (h : Handle) (n : UInt32)
    (positive : 0 < n.toNat) (same : t.count h = n.toNat) : t.refcount? h = some n := by
  obtain ⟨e, present⟩ := sound.exists_entry h (by omega)
  rw [count_of_entry h e present] at same
  exact (refcount?_eq_some_iff h n).mpr ⟨e, present, UInt32.toNat_inj.mp same⟩

theorem Sound.contains_eq_false_iff (sound : t.Sound g) (h : Handle) :
    t.contains h = false ↔ t.count h = 0 := by
  have live := sound.count_pos_iff h
  rw [← contains_eq] at live
  cases known : t.contains h <;> simp_all; omega

theorem Sound.hasRoom (sound : t.Sound g) (few : t.dynamicHandles.ncard ≤ 2 ^ 32 - 4) :
    t.slots.HasRoom := by
  have all : t.slots.handles = insert .globalObject t.dynamicHandles := by
    ext h
    rw [Set.mem_insert_iff]
    by_cases root : h = .globalObject
    · subst root
      have live := (sound.count_pos_iff .globalObject).mp sound.count_globalObject_pos
      exact iff_of_true live (Or.inl rfl)
    · simp only [root, false_or]
      exact ⟨fun live => ⟨sound.slots.dynamic h live root, live⟩, fun member => member.2⟩
  have only : .globalObject ∉ t.dynamicHandles := by
    rintro ⟨dynamic, _⟩
    have one : Handle.globalObject.raw.toNat = 1 := rfl
    omega
  rw [Slots.HasRoom, sound.slots.counted, all, Set.ncard_insert_of_notMem only]
  omega

/-- A value that is retained has its count in range afterwards, by the limits. -/
theorem Sound.countable (sound : t.Sound g) (v : Host.Value) (fits : (Call.retain v).Fits t) :
    t.count (t.retain v).1 + 1 < 2 ^ 32 := by
  cases known : t.lookup? v with
  | some h =>
    obtain ⟨e, present, -, done⟩ := sound.retain_of_lookup v h known
    have bound := fits.1 h e.refcount known ((refcount?_eq_some_iff h _).mpr ⟨e, present, rfl⟩)
    rw [done, count_of_entry h e present]
    omega
  | none =>
    rw [count_eq_zero _ (sound.retain_fresh (sound.hasRoom (fits.2 known)) v known).2]
    decide

/-- The slots need room only for a value without a handle. -/
theorem Sound.retain_within (sound : t.Sound g) (v : Host.Value) (fits : (Call.retain v).Fits t) :
    (t.retain v).2.Sound g ∧
      ∀ k, (t.retain v).2.count k = if k = (t.retain v).1 then t.count k + 1 else t.count k := by
  have countable := sound.countable v fits
  have room (new : t.lookup? v = none) : t.slots.HasRoom := sound.hasRoom (fits.2 new)
  exact ⟨sound.retain v room countable, sound.count_retain v room countable⟩

theorem Call.perform_retainHandle_live (sound : t.Sound g) (h : Handle) (live : 0 < t.count h)
    (fits : (Call.retainHandle h).Fits t) :
    ∃ t', (Call.retainHandle h).perform t = (.ok h, t') ∧ t'.Sound g ∧
      ∀ k, t'.count k = if k = h then t.count k + 1 else t.count k := by
  obtain ⟨e, present⟩ := sound.exists_entry h live
  have bound := fits e.refcount ((refcount?_eq_some_iff h _).mpr ⟨e, present, rfl⟩)
  have number := count_of_entry h e present
  obtain ⟨t', done, kept, counts, _⟩ := sound.retainHandle h live (by omega)
  refine ⟨t', ?_, kept, fun k => ?_⟩
  · simp only [perform, done]
  · rw [counts k]
    by_cases here : k = h
    · rw [if_pos here, if_pos here, here]
    · rw [if_neg here, if_neg here]

theorem Call.perform_release_live (sound : t.Sound g) (h : Handle) (live : 0 < t.count h) :
    ∃ t', (Call.release h).perform t = (.ok h, t') ∧ t'.Sound g ∧
      ∀ k, t'.count k = if k = h then countAfterRelease h (t.count k) else t.count k := by
  obtain ⟨t', done, kept, counts, _⟩ := sound.release h live
  refine ⟨t', ?_, kept, fun k => ?_⟩
  · simp only [perform, done]
  · rw [counts k]
    by_cases here : k = h
    · rw [if_pos here, if_pos here, here]
    · rw [if_neg here, if_neg here]

theorem find?_of_count_eq_zero (sound : t.Sound g) (h : Handle) (dead : t.count h = 0) :
    t.find? h = none := by
  by_contra live
  have positive := (sound.count_pos_iff h).mpr (Option.isSome_iff_ne_none.mpr live)
  omega

theorem Call.perform_retainHandle_dead (sound : t.Sound g) (h : Handle) (dead : t.count h = 0) :
    (Call.retainHandle h).perform t = (.error (.invalidReference h .retain), t) := by
  simp only [perform, retainHandle_of_dead h (find?_of_count_eq_zero sound h dead)]

theorem Call.perform_release_dead (sound : t.Sound g) (h : Handle) (dead : t.count h = 0) :
    (Call.release h).perform t = (.error (.invalidReference h .release), t) := by
  simp only [perform, release_of_dead h (find?_of_count_eq_zero sound h dead)]

/-- The count of every handle but that of the global object is what is taken and not given back. -/
def Balanced (past : List Event) (t : RefTable) : Prop :=
  ∀ h, h ≠ .globalObject → t.count h + givenBack h past = taken h past

theorem taken_allocated (h : Handle) : taken h (.allocated h :: past) = 1 := by
  simp [taken, sinceAllocated]

theorem givenBack_allocated (h : Handle) : givenBack h (.allocated h :: past) = 0 := by
  simp [givenBack, sinceAllocated]

theorem taken_retained (h : Handle) : taken h (.retained h :: past) = taken h past + 1 := by
  simp [taken, sinceAllocated, Nat.add_assoc]

theorem givenBack_retained (h : Handle) :
    givenBack h (.retained h :: past) = givenBack h past := by
  simp [givenBack, sinceAllocated]

theorem taken_released (h : Handle) : taken h (.released h :: past) = taken h past := by
  simp [taken, sinceAllocated]

theorem givenBack_released (h : Handle) :
    givenBack h (.released h :: past) = givenBack h past + 1 := by
  simp [givenBack, sinceAllocated]

/-- The handle that something was done for. -/
def Event.handle : Event → Handle
  | .allocated h | .retained h | .released h => h

/-- What is done for one handle does not count for another one. -/
theorem balance_of_other (past : List Event) (h : Handle) (e : Event) (other : h ≠ e.handle) :
    taken h (e :: past) = taken h past ∧ givenBack h (e :: past) = givenBack h past := by
  cases e <;> simp_all [taken, givenBack, sinceAllocated, Event.handle, eq_comm]

/-- A reference more, for the handle that was handed out or retained. -/
theorem Balanced.retained (balanced : Balanced past t) (t' : RefTable) (h : Handle)
    (counts : ∀ k, t'.count k = if k = h then t.count k + 1 else t.count k) :
    Balanced (.retained h :: past) t' := by
  intro k other
  rw [counts k]
  have former := balanced k other
  by_cases here : k = h
  · subst here
    rw [if_pos rfl, taken_retained, givenBack_retained]
    omega
  · obtain ⟨sameTaken, sameGiven⟩ := balance_of_other past k (.retained h) here
    rw [if_neg here, sameTaken, sameGiven]
    exact former

theorem Balanced.allocated (balanced : Balanced past t) (t' : RefTable) (h : Handle)
    (fresh : t.count h = 0)
    (counts : ∀ k, t'.count k = if k = h then t.count k + 1 else t.count k) :
    Balanced (.allocated h :: past) t' := by
  intro k other
  rw [counts k]
  by_cases here : k = h
  · subst here
    rw [if_pos rfl, taken_allocated, givenBack_allocated, fresh]
  · obtain ⟨sameTaken, sameGiven⟩ := balance_of_other past k (.allocated h) here
    rw [if_neg here, sameTaken, sameGiven]
    exact balanced k other

theorem Balanced.released (balanced : Balanced past t) (t' : RefTable) (h : Handle)
    (live : 0 < t.count h)
    (counts : ∀ k, t'.count k = if k = h then countAfterRelease h (t.count k) else t.count k) :
    Balanced (.released h :: past) t' := by
  intro k other
  rw [counts k]
  have former := balanced k other
  by_cases here : k = h
  · subst here
    rw [if_pos rfl, taken_released, givenBack_released, countAfterRelease, if_neg other]
    omega
  · obtain ⟨sameTaken, sameGiven⟩ := balance_of_other past k (.released h) here
    rw [if_neg here, sameTaken, sameGiven]
    exact former

theorem Call.sound (sound : t.Sound g) (c : Call) (fits : c.Fits t) : (c.perform t).2.Sound g := by
  cases c with
  | retain v => exact (sound.retain_within v fits).1
  | retainHandle h =>
    rcases Nat.eq_zero_or_pos (t.count h) with dead | live
    · rw [perform_retainHandle_dead sound h dead]
      exact sound
    · obtain ⟨t', done, kept, _⟩ := perform_retainHandle_live sound h live fits
      rw [done]
      exact kept
  | release h =>
    rcases Nat.eq_zero_or_pos (t.count h) with dead | live
    · rw [perform_release_dead sound h dead]
      exact sound
    · obtain ⟨t', done, kept, _⟩ := perform_release_live sound h live
      rw [done]
      exact kept

/-- What one call has done balances its change of the counts. -/
theorem Balanced.call (balanced : Balanced past t) (sound : t.Sound g) (c : Call)
    (fits : c.Fits t) : Balanced (c.events t ++ past) (c.perform t).2 := by
  cases c with
  | retain v =>
    have counts := (sound.retain_within v fits).2
    cases known : t.lookup? v with
    | some h =>
      simp only [Call.events, Call.perform, known, Option.isNone_some, Bool.false_eq_true,
        ↓reduceIte]
      exact balanced.retained _ _ counts
    | none =>
      simp only [Call.events, Call.perform, known, Option.isNone_none, ↓reduceIte]
      have fresh := (sound.retain_fresh (sound.hasRoom (fits.2 known)) v known).2
      exact balanced.allocated _ _ (count_eq_zero _ fresh) counts
  | retainHandle h =>
    rcases Nat.eq_zero_or_pos (t.count h) with dead | live
    · simp only [Call.events, Call.perform_retainHandle_dead sound h dead, List.nil_append]
      exact balanced
    · obtain ⟨t', done, _, counts⟩ := Call.perform_retainHandle_live sound h live fits
      simp only [Call.events, done]
      exact balanced.retained t' h counts
  | release h =>
    rcases Nat.eq_zero_or_pos (t.count h) with dead | live
    · simp only [Call.events, Call.perform_release_dead sound h dead, List.nil_append]
      exact balanced
    · obtain ⟨t', done, _, counts⟩ := Call.perform_release_live sound h live
      simp only [Call.events, done]
      exact balanced.released t' h live counts

theorem create_balanced (layout : Layout) (globalObject : Host.Value) :
    Balanced [] (create layout globalObject) := by
  intro h other
  have dead : (create layout globalObject).find? h = none := by
    rw [find?_create, if_neg other]
  rw [count_eq_zero h dead]
  rfl

theorem dynamicHandles_create (layout : Layout) (globalObject : Host.Value) :
    (create layout globalObject).dynamicHandles = ∅ := by
  apply Set.eq_empty_of_forall_notMem
  rintro h ⟨dynamic, live⟩
  rw [contains_eq, find?_create] at live
  by_cases root : h = .globalObject
  · have one : Handle.globalObject.raw.toNat = 1 := rfl
    rw [root, one] at dynamic
    omega
  · simp [root] at live

/-- Every call is within the limits of a table that holds the global object alone. -/
theorem create_fits (layout : Layout) (globalObject : Host.Value) (c : Call) :
    c.Fits (create layout globalObject) := by
  have single : ∀ h n, (create layout globalObject).refcount? h = some n → n.toNat < 2 ^ 32 - 1 := by
    intro h n live
    obtain ⟨e, present, rfl⟩ := (refcount?_eq_some_iff h n).mp live
    rw [find?_create] at present
    split at present
    · simp only [Option.some.injEq] at present
      subst present
      show (1 : UInt32).toNat < 2 ^ 32 - 1
      decide
    · cases present
  cases c with
  | retain v =>
    refine ⟨fun h n _ live => single h n live, fun _ => ?_⟩
    rw [dynamicHandles_create, Set.ncard_empty]
    exact Nat.zero_le _
  | retainHandle h => exact fun n live => single h n live
  | release h => trivial

/-- A value can be retained in a table that has come to hold the global object alone. -/
theorem Sound.fits_alone (sound : t.Sound g) (alone : t.slots.size = 1)
    (few : t.count .globalObject < 2 ^ 32 - 1) (v : Host.Value) : (Call.retain v).Fits t := by
  have root := (sound.count_pos_iff .globalObject).mp sound.count_globalObject_pos
  have single := sound.slots.counted.symm.trans alone
  refine ⟨fun h n _ live => ?_, fun _ => ?_⟩
  · have member : h ∈ t.slots.handles := by
      rw [Slots.mem_handles]
      obtain ⟨e, present, _⟩ := (refcount?_eq_some_iff h n).mp live
      exact Option.isSome_of_eq_some present
    obtain ⟨only, all⟩ := Set.ncard_eq_one.mp single
    obtain rfl : h = .globalObject := by
      have here : Handle.globalObject ∈ t.slots.handles := root
      rw [all, Set.mem_singleton_iff] at member here
      rw [member, here]
    rwa [count_of_refcount? _ n live] at few
  · have all : t.dynamicHandles ⊆ t.slots.handles := fun h member => member.2
    have fewer := Set.ncard_le_ncard all (Set.toFinite _)
    rw [single] at fewer
    omega

theorem Course.keeps (course : Course layout g past t) : t.Sound g ∧ Balanced past t := by
  induction course with
  | create => exact ⟨create_sound layout g, create_balanced layout g⟩
  | call c _ fits ih => exact ⟨c.sound ih.1 fits, ih.2.call ih.1 c fits⟩

theorem Sound.accounted (sound : t.Sound g) (balanced : Balanced past t) : Accounted g past t where
  lookup v h := by simp only [lookup?_eq_some_iff sound, get_eq_ok_iff]
  unique h k u v hu hv same :=
    sound.handle_unique h k u v ((get_eq_ok_iff h u).mp hu) ((get_eq_ok_iff k v).mp hv) same
  counted h n other live := by
    have number := count_of_refcount? h n live
    obtain ⟨e, present, rfl⟩ := (refcount?_eq_some_iff h n).mp live
    exact ⟨sound.held h e present, number ▸ balanced h other⟩
  dead h other dead := by
    have balance := balanced h other
    rw [(sound.contains_eq_false_iff h).mp dead, Nat.zero_add] at balance
    exact balance
  invalid := by
    rw [contains_eq, sound.find?_invalid]
    rfl
  root := by
    refine ⟨(get_eq_ok_iff _ _).mpr sound.root, ?_⟩
    obtain ⟨e, present⟩ := sound.exists_entry _ sound.count_globalObject_pos
    exact ⟨e.refcount, (refcount?_eq_some_iff _ _).mpr ⟨e, present, rfl⟩, sound.held _ e present⟩
  size := sound.slots.counted

/-- Only a release ends the life of a handle, and only the last one. -/
theorem Sound.ended_iff (sound : t.Sound g) (c : Call) (fits : c.Fits t) (h : Handle)
    (live : 0 < t.count h) :
    (c.perform t).2.count h = 0 ↔ c = .release h ∧ h ≠ .globalObject ∧ t.count h = 1 := by
  cases c with
  | retain v =>
    have counts := (sound.retain_within v fits).2 h
    have stays : (t.retain v).2.count h ≠ 0 := by rw [counts]; split <;> omega
    simp only [Call.perform, stays, reduceCtorEq, false_and]
  | retainHandle k =>
    have stays : ((Call.retainHandle k).perform t).2.count h ≠ 0 := by
      rcases Nat.eq_zero_or_pos (t.count k) with dead | alive
      · rw [Call.perform_retainHandle_dead sound k dead]
        exact Nat.pos_iff_ne_zero.mp live
      · obtain ⟨t', done, _, counts⟩ := Call.perform_retainHandle_live sound k alive fits
        rw [done, counts h]
        split <;> omega
    simp only [stays, reduceCtorEq, false_and]
  | release k =>
    by_cases here : h = k
    · subst here
      obtain ⟨t', done, _, counts⟩ := Call.perform_release_live sound h live
      rw [done, counts h, if_pos rfl, countAfterRelease]
      by_cases root : h = .globalObject
      · rw [if_pos root]
        simp only [root, ne_eq, not_true_eq_false, false_and, and_false, iff_false]
        omega
      · rw [if_neg root]
        simp only [root, ne_eq, not_false_eq_true, true_and]
        omega
    · have apart : Call.release k ≠ Call.release h := fun same => here (Call.release.inj same).symm
      have stays : ((Call.release k).perform t).2.count h ≠ 0 := by
        rcases Nat.eq_zero_or_pos (t.count k) with dead | alive
        · rw [Call.perform_release_dead sound k dead]
          exact Nat.pos_iff_ne_zero.mp live
        · obtain ⟨t', done, _, counts⟩ := Call.perform_release_live sound k alive
          rw [done, counts h, if_neg here]
          exact Nat.pos_iff_ne_zero.mp live
      simp only [stays, apart, false_and]

theorem Sound.refcount?_eq_one_iff (sound : t.Sound g) (h : Handle) :
    t.refcount? h = some 1 ↔ t.count h = 1 :=
  ⟨fun live => count_of_refcount? h 1 live, fun one => sound.refcount?_of_count h 1 Nat.one_pos one⟩

theorem Sound.count_pos_of_contains (sound : t.Sound g) (h : Handle) (live : t.contains h) :
    0 < t.count h := by
  rw [sound.count_pos_iff]
  exact live

theorem Sound.answered (sound : t.Sound g) (c : Call) (fits : c.Fits t) : Answered t c where
  fresh := by
    rintro v rfl new
    have dead := (sound.retain_fresh (sound.hasRoom (fits.2 new)) v new).2
    obtain ⟨kept, counts⟩ := sound.retain_within v fits
    refine ⟨by rw [contains_eq, dead]; rfl, ?_⟩
    rw [kept.refcount?_eq_one_iff, counts, if_pos rfl, count_eq_zero _ dead]
  ended h live := by
    rw [(c.sound sound fits).contains_eq_false_iff, sound.refcount?_eq_one_iff]
    exact sound.ended_iff c fits h (sound.count_pos_of_contains h live)
  granted := by
    rintro h live (rfl | rfl)
    · obtain ⟨t', done, _⟩ :=
        Call.perform_retainHandle_live sound h (sound.count_pos_of_contains h live) fits
      rw [done]
    · obtain ⟨t', done, _⟩ :=
        Call.perform_release_live sound h (sound.count_pos_of_contains h live)
      rw [done]
  refusedRetain := by
    rintro h dead rfl
    exact Call.perform_retainHandle_dead sound h ((sound.contains_eq_false_iff h).mp dead)
  refusedRelease := by
    rintro h dead rfl
    exact Call.perform_release_dead sound h ((sound.contains_eq_false_iff h).mp dead)

/-- After any calls within the limits the table is accounted for, in either layout, and so is what
the next call comes to. -/
theorem course_accounted (course : Course layout g past t) :
    Accounted g past t ∧ ∀ c : Call, c.Fits t → Answered t c := by
  obtain ⟨sound, balanced⟩ := course.keeps
  exact ⟨sound.accounted balanced, fun c fits => sound.answered c fits⟩

theorem course_accounted_payload :
    let t := ((create .dense (.object 0)).retain (.string "payload")).2
    Accounted (.object 0) [.allocated ⟨2⟩] t ∧ ∀ c : Call, c.Fits t → Answered t c := by
  have start : Course .dense (.object 0) [] (create .dense (.object 0)) := Course.create
  have new : (create .dense (.object 0)).lookup? (.string "payload") = none := by
    cases known : (create .dense (.object 0)).lookup? (.string "payload") with
    | none => rfl
    | some h =>
      obtain ⟨e, present, same⟩ := start.keeps.1.exists_known _ h known
      rw [find?_create] at present
      split at present
      · cases present
        cases same
      · cases present
  have handle : ((create .dense (.object 0)).retain (.string "payload")).1 = ⟨2⟩ := by
    rw [retain_of_new _ new]
    rfl
  have done : (Call.retain (.string "payload")).events (create .dense (.object 0)) =
      [.allocated ⟨2⟩] := by
    show [if _ then Event.allocated _ else Event.retained _] = _
    rw [new, handle]
    rfl
  have course := start.call (.retain (.string "payload")) (create_fits _ _ _)
  rw [done] at course
  exact course_accounted course

end Membrane.RefTable
