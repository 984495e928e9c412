import Membrane.Proofs.Table.Slots
import Membrane.Table.RefTable
/-!
The slots of a table and its index are inverse to each other. Each operation is described by what it
does to the number of references held to each handle and to the value behind it.
-/

set_option autoImplicit false

namespace Membrane.RefTable

/-- How many references are held to a handle, none if it is not live. -/
def count (t : RefTable) (h : Handle) : Nat := ((t.find? h).map (·.refcount.toNat)).getD 0

/-- The value of a live handle. -/
def value? (t : RefTable) (h : Handle) : Option Host.Value := (t.find? h).map (·.value)

/-- The index holds the keys of the values that are live, and nothing else. -/
structure Sound (t : RefTable) (globalObject : Host.Value) : Prop where
  slots : t.slots.Sound
  indexed : ∀ (k : Host.Key) (h : Handle),
    t.index[k]? = some h ↔ ∃ e, t.find? h = some e ∧ e.value.key = k
  held : ∀ (h : Handle) (e : Entry), t.find? h = some e → 0 < e.refcount.toNat
  root : t.value? .globalObject = some globalObject

/-- What is known of a table whatever its counts are. -/
structure Linked (t : RefTable) : Prop where
  slots : t.slots.Sound
  indexed : ∀ (k : Host.Key) (h : Handle),
    t.index[k]? = some h ↔ ∃ e, t.find? h = some e ∧ e.value.key = k

variable {t : RefTable} {g : Host.Value}

theorem Sound.linked (sound : t.Sound g) : t.Linked := ⟨sound.slots, sound.indexed⟩

theorem count_of_entry (h : Handle) (e : Entry) (live : t.find? h = some e) :
    t.count h = e.refcount.toNat := by
  simp only [count, live, Option.map_some, Option.getD_some]

theorem count_eq_zero (h : Handle) (dead : t.find? h = none) : t.count h = 0 := by
  simp only [count, dead, Option.map_none, Option.getD_none]

theorem Sound.count_pos_iff (sound : t.Sound g) (h : Handle) :
    0 < t.count h ↔ (t.find? h).isSome := by
  cases live : t.find? h with
  | none => simp [count_eq_zero h live]
  | some e => simpa [count_of_entry h e live] using sound.held h e live

theorem Sound.exists_entry (sound : t.Sound g) (h : Handle) (live : 0 < t.count h) :
    ∃ e, t.find? h = some e :=
  Option.isSome_iff_exists.mp ((sound.count_pos_iff h).mp live)

theorem Sound.count_globalObject_pos (sound : t.Sound g) : 0 < t.count .globalObject := by
  rw [sound.count_pos_iff]
  have root := congrArg Option.isSome sound.root
  simpa only [value?, Option.isSome_map, Option.isSome_some] using root

theorem Sound.find?_invalid (sound : t.Sound g) : t.find? .invalid = none :=
  sound.slots.get?_invalid

theorem contains_eq (h : Handle) : t.contains h = (t.find? h).isSome := rfl

theorem get_eq_ok_iff (h : Handle) (v : Host.Value) : t.get h = .ok v ↔ t.value? h = some v := by
  cases live : t.find? h <;> simp [get, value?, live]

theorem lookup?_eq_some_iff (sound : t.Sound g) (v : Host.Value) (h : Handle) :
    t.lookup? v = some h ↔ ∃ u, t.value? h = some u ∧ u.key = v.key := by
  rw [lookup?, sound.indexed]
  simp only [value?, Option.map_eq_some_iff]
  constructor
  · rintro ⟨e, live, same⟩
    exact ⟨e.value, ⟨e, live, rfl⟩, same⟩
  · rintro ⟨u, ⟨e, live, rfl⟩, same⟩
    exact ⟨e, live, same⟩

/-- Two live handles of values with one key are one handle. -/
theorem Sound.handle_unique (sound : t.Sound g) (h k : Handle) (u v : Host.Value)
    (hu : t.value? h = some u) (hv : t.value? k = some v) (same : u.key = v.key) : h = k := by
  have first := (lookup?_eq_some_iff sound v h).mpr ⟨u, hu, same⟩
  have second := (lookup?_eq_some_iff sound v k).mpr ⟨v, hv, rfl⟩
  exact Option.some.inj (first.symm.trans second)

/-- What a table holds is known from the entries of one handle that changed. -/
theorem count_of_update (t' : RefTable) (h : Handle) (x : Option Entry)
    (changed : t'.find? = Function.update t.find? h x) (k : Handle) :
    t'.count k = if k = h then (x.map (·.refcount.toNat)).getD 0 else t.count k := by
  rw [count, changed, Function.update_apply]
  by_cases same : k = h <;> simp [same, count]

theorem value?_of_update (t' : RefTable) (h : Handle) (x : Option Entry)
    (changed : t'.find? = Function.update t.find? h x) (k : Handle) :
    t'.value? k = if k = h then x.map (·.value) else t.value? k := by
  rw [value?, changed, Function.update_apply]
  by_cases same : k = h <;> simp [same, value?]

/-- The table with another count for a handle. -/
def recount (t : RefTable) (h : Handle) (n : UInt32) : RefTable :=
  { t with slots := t.slots.setRefcount h n }

theorem find?_recount (h : Handle) (e : Entry) (n : UInt32) (live : t.find? h = some e) :
    (t.recount h n).find? = Function.update t.find? h (some { e with refcount := n }) :=
  Slots.get?_setRefcount t.slots h e n live

theorem Linked.recount (linked : t.Linked) (h : Handle) (e : Entry) (n : UInt32)
    (live : t.find? h = some e) : (t.recount h n).Linked := by
  refine ⟨linked.slots.setRefcount h e n live, fun k other => ?_⟩
  have former := linked.indexed k other
  show t.index[k]? = some other ↔ _
  rw [former, find?_recount h e n live, Function.update_apply]
  by_cases same : other = h
  · subst same
    simp [live]
  · simp only [same, ↓reduceIte]

/-- As long as the new count is not zero nothing else is at stake. -/
theorem Sound.recount (sound : t.Sound g) (h : Handle) (e : Entry) (n : UInt32)
    (live : t.find? h = some e) (positive : 0 < n.toNat) : (t.recount h n).Sound g := by
  have changed := find?_recount h e n live
  have kept := sound.linked.recount h e n live
  refine ⟨kept.slots, kept.indexed, ?_, ?_⟩
  · intro other x present
    rw [changed, Function.update_apply] at present
    by_cases same : other = h
    · simp only [same, ↓reduceIte, Option.some.injEq] at present
      exact present ▸ positive
    · simp only [same, ↓reduceIte] at present
      exact sound.held other x present
  · rw [value?_of_update _ h _ changed, ← sound.root]
    by_cases same : Handle.globalObject = h
    · subst same
      simp [value?, live]
    · simp only [same, ↓reduceIte]

theorem count_recount (h : Handle) (e : Entry) (n : UInt32) (live : t.find? h = some e)
    (k : Handle) : (t.recount h n).count k = if k = h then n.toNat else t.count k := by
  rw [count_of_update _ h _ (find?_recount h e n live)]
  rfl

theorem value?_recount (h : Handle) (e : Entry) (n : UInt32) (live : t.find? h = some e)
    (k : Handle) : (t.recount h n).value? k = t.value? k := by
  rw [value?_of_update _ h _ (find?_recount h e n live)]
  by_cases same : k = h <;> simp [same, value?, live]

theorem Linked.retain_of_known (linked : t.Linked) (v : Host.Value) (h : Handle) (e : Entry)
    (live : t.find? h = some e) (same : e.value.key = v.key) :
    t.retain v = (h, t.recount h (e.refcount + 1)) := by
  have found : t.index[v.key]? = some h := (linked.indexed v.key h).mpr ⟨e, live, same⟩
  simp only [retain, found, Option.bind_some, live, Option.map_some]
  rfl

theorem retain_of_known (sound : t.Sound g) (v : Host.Value) (h : Handle) (e : Entry)
    (live : t.find? h = some e) (same : e.value.key = v.key) :
    t.retain v = (h, t.recount h (e.refcount + 1)) := sound.linked.retain_of_known v h e live same

theorem retain_of_new (v : Host.Value) (new : t.lookup? v = none) :
    t.retain v =
      ((t.slots.allocate ⟨v, 1⟩).1,
        { t with
          slots := (t.slots.allocate ⟨v, 1⟩).2
          index := t.index.insert v.key (t.slots.allocate ⟨v, 1⟩).1 }) := by
  have absent : t.index[v.key]? = none := new
  simp only [retain, absent, Option.bind_none]

theorem Sound.exists_known (sound : t.Sound g) (v : Host.Value) (h : Handle)
    (known : t.lookup? v = some h) : ∃ e, t.find? h = some e ∧ e.value.key = v.key :=
  (sound.indexed v.key h).mp known

theorem Sound.retain_of_lookup (sound : t.Sound g) (v : Host.Value) (h : Handle)
    (known : t.lookup? v = some h) :
    ∃ e, t.find? h = some e ∧ e.value.key = v.key ∧
      t.retain v = (h, t.recount h (e.refcount + 1)) := by
  obtain ⟨e, live, same⟩ := sound.exists_known v h known
  exact ⟨e, live, same, retain_of_known sound v h e live same⟩

/-- A value that is retained for the first time is at a handle that was not live. -/
theorem Linked.retain_fresh (linked : t.Linked) (room : t.slots.HasRoom) (v : Host.Value)
    (new : t.lookup? v = none) :
    2 ≤ (t.retain v).1.raw.toNat ∧ t.find? (t.retain v).1 = none := by
  rw [retain_of_new v new]
  exact linked.slots.allocate_fresh room ⟨v, 1⟩

theorem Sound.retain_fresh (sound : t.Sound g) (room : t.slots.HasRoom) (v : Host.Value)
    (new : t.lookup? v = none) :
    2 ≤ (t.retain v).1.raw.toNat ∧ t.find? (t.retain v).1 = none :=
  sound.linked.retain_fresh room v new

theorem Linked.find?_retain_new (linked : t.Linked) (room : t.slots.HasRoom) (v : Host.Value)
    (new : t.lookup? v = none) :
    (t.retain v).2.find? = Function.update t.find? (t.retain v).1 (some ⟨v, 1⟩) := by
  rw [retain_of_new v new]
  exact linked.slots.get?_allocate room ⟨v, 1⟩

theorem Sound.find?_retain_new (sound : t.Sound g) (room : t.slots.HasRoom) (v : Host.Value)
    (new : t.lookup? v = none) :
    (t.retain v).2.find? = Function.update t.find? (t.retain v).1 (some ⟨v, 1⟩) :=
  sound.linked.find?_retain_new room v new

theorem Linked.retain_new (linked : t.Linked) (room : t.slots.HasRoom) (v : Host.Value)
    (new : t.lookup? v = none) : (t.retain v).2.Linked := by
  have changed := linked.find?_retain_new room v new
  have fresh := (linked.retain_fresh room v new).2
  refine ⟨?_, ?_⟩
  · rw [retain_of_new v new]
    exact linked.slots.allocate room ⟨v, 1⟩
  · intro k other
    have former := linked.indexed k other
    have indexed : (t.retain v).2.index = t.index.insert v.key (t.retain v).1 := by
      rw [retain_of_new v new]
    rw [indexed, Std.HashMap.getElem?_insert, changed, Function.update_apply]
    by_cases key : v.key = k
    · subst key
      have absent : t.index[v.key]? = none := new
      rw [absent] at former
      by_cases same : other = (t.retain v).1
      · simp [same]
      · simpa [same, eq_comm] using former
    · by_cases same : other = (t.retain v).1
      · rw [same] at former ⊢
        simp only [fresh, reduceCtorEq, false_and, exists_false, iff_false] at former
        simp [key, former]
      · simpa [key, same] using former

theorem Sound.retain_new (sound : t.Sound g) (room : t.slots.HasRoom) (v : Host.Value)
    (new : t.lookup? v = none) : (t.retain v).2.Sound g := by
  have changed := sound.find?_retain_new room v new
  have fresh := (sound.retain_fresh room v new).2
  have kept := sound.linked.retain_new room v new
  refine ⟨kept.slots, kept.indexed, ?_, ?_⟩
  · intro other x present
    rw [changed, Function.update_apply] at present
    by_cases same : other = (t.retain v).1
    · simp only [same, ↓reduceIte, Option.some.injEq] at present
      subst present
      exact Nat.one_pos
    · simp only [same, ↓reduceIte] at present
      exact sound.held other x present
  · have apart : Handle.globalObject ≠ (t.retain v).1 := by
      intro same
      have live := sound.count_globalObject_pos
      rw [same, count_eq_zero _ fresh] at live
      exact Nat.lt_irrefl 0 live
    rw [value?_of_update _ _ _ changed, if_neg apart, sound.root]

/-- Whatever a value may be, there is a reference more to its handle afterwards. -/
theorem Sound.count_retain (sound : t.Sound g) (v : Host.Value)
    (room : t.lookup? v = none → t.slots.HasRoom)
    (countable : t.count (t.retain v).1 + 1 < 2 ^ 32) (k : Handle) :
    (t.retain v).2.count k = if k = (t.retain v).1 then t.count k + 1 else t.count k := by
  cases known : t.lookup? v with
  | some h =>
    obtain ⟨e, live, -, done⟩ := sound.retain_of_lookup v h known
    rw [done] at countable ⊢
    rw [count_recount h e _ live]
    by_cases here : k = h
    · subst here
      rw [count_of_entry k e live] at countable ⊢
      simp only [↓reduceIte, UInt32.toNat_add, UInt32.toNat_one]
      exact Nat.mod_eq_of_lt countable
    · simp only [here, ↓reduceIte]
  | none =>
    have fresh := (sound.retain_fresh (room known) v known).2
    rw [count_of_update _ _ _ (sound.find?_retain_new (room known) v known)]
    by_cases here : k = (t.retain v).1
    · rw [here, count_eq_zero _ fresh]
      rfl
    · simp only [here, ↓reduceIte]

theorem Sound.retain (sound : t.Sound g) (v : Host.Value)
    (room : t.lookup? v = none → t.slots.HasRoom)
    (countable : t.count (t.retain v).1 + 1 < 2 ^ 32) : (t.retain v).2.Sound g := by
  cases known : t.lookup? v with
  | some h =>
    obtain ⟨e, live, -, done⟩ := sound.retain_of_lookup v h known
    rw [done] at countable ⊢
    rw [count_of_entry h e live] at countable
    apply sound.recount h e _ live
    rw [UInt32.toNat_add, UInt32.toNat_one, Nat.mod_eq_of_lt countable]
    omega
  | none => exact sound.retain_new (room known) v known

/-- The handle that a value is retained at has a value of the same key. -/
theorem Sound.value?_retain_self (sound : t.Sound g) (v : Host.Value)
    (room : t.lookup? v = none → t.slots.HasRoom) :
    ∃ u, (t.retain v).2.value? (t.retain v).1 = some u ∧ u.key = v.key := by
  cases known : t.lookup? v with
  | some h =>
    obtain ⟨e, live, same, done⟩ := sound.retain_of_lookup v h known
    rw [done]
    exact ⟨e.value, by rw [value?_recount h e _ live, value?, live, Option.map_some], same⟩
  | none =>
    refine ⟨v, ?_, rfl⟩
    rw [value?_of_update _ _ _ (sound.find?_retain_new (room known) v known), if_pos rfl]
    rfl

/-- Retaining leaves the values of live handles as they are. -/
theorem Sound.value?_retain (sound : t.Sound g) (v : Host.Value)
    (room : t.lookup? v = none → t.slots.HasRoom) (k : Handle) (live : 0 < t.count k) :
    (t.retain v).2.value? k = t.value? k := by
  cases known : t.lookup? v with
  | some h =>
    obtain ⟨e, present, -, done⟩ := sound.retain_of_lookup v h known
    rw [done]
    exact value?_recount h e _ present k
  | none =>
    have apart : k ≠ (t.retain v).1 := by
      rintro rfl
      rw [count_eq_zero _ (sound.retain_fresh (room known) v known).2] at live
      exact Nat.lt_irrefl 0 live
    rw [value?_of_update _ _ _ (sound.find?_retain_new (room known) v known), if_neg apart]

theorem retainHandle_of_live (h : Handle) (e : Entry) (live : t.find? h = some e) :
    t.retainHandle h = .ok (t.recount h (e.refcount + 1)) := by
  simp only [retainHandle, live]
  rfl

theorem retainHandle_of_dead (h : Handle) (dead : t.find? h = none) :
    t.retainHandle h = .error (.invalidReference h .retain) := by
  simp only [retainHandle, dead]

theorem release_of_dead (h : Handle) (dead : t.find? h = none) :
    t.release h = .error (.invalidReference h .release) := by
  simp only [release, dead]

/-- A reference that is not the last one, or one to the global object, is counted off. -/
theorem release_of_shared (h : Handle) (e : Entry) (live : t.find? h = some e)
    (stays : 1 < e.refcount ∨ h = .globalObject) :
    t.release h =
      .ok (t.recount h (if 1 < e.refcount then e.refcount - 1 else 1)) := by
  simp only [release, live, stays, ↓reduceIte]
  rfl

/-- A table without a handle and its key. -/
def without (t : RefTable) (h : Handle) (k : Host.Key) : RefTable :=
  { t with slots := t.slots.remove h, index := t.index.erase k }

/-- With its last reference a handle goes, and its key goes from the index. -/
theorem Linked.release_of_last (linked : t.Linked) (h : Handle) (e : Entry)
    (live : t.find? h = some e) (last : ¬ (1 < e.refcount ∨ h = .globalObject)) :
    t.release h = .ok (t.without h e.value.key) := by
  have found : t.index[e.value.key]? = some h := (linked.indexed _ h).mpr ⟨e, live, rfl⟩
  simp only [RefTable.release, live, last, ↓reduceIte, found, without]

theorem Linked.dynamic (linked : t.Linked) (h : Handle) (e : Entry) (live : t.find? h = some e)
    (other : h ≠ .globalObject) : 2 ≤ h.raw.toNat := by
  refine linked.slots.dynamic h ?_ other
  show (t.find? h).isSome
  rw [live]
  rfl

theorem Linked.removed (linked : t.Linked) (h : Handle) (e : Entry) (live : t.find? h = some e)
    (other : h ≠ .globalObject) :
    (t.without h e.value.key).find? = Function.update t.find? h none ∧
      (t.without h e.value.key).Linked := by
  have dynamic := linked.dynamic h e live other
  have changed : (t.without h e.value.key).find? = Function.update t.find? h none :=
    Slots.get?_remove t.slots h e live dynamic
  refine ⟨changed, linked.slots.remove h e live dynamic, ?_⟩
  · intro k place
    have former := linked.indexed k place
    show (t.index.erase e.value.key)[k]? = some place ↔ _
    simp only [Std.HashMap.getElem?_erase, changed, Function.update_apply]
    by_cases key : e.value.key = k
    · subst key
      simp only [beq_self_eq_true, ↓reduceIte, reduceCtorEq, false_iff]
      rintro ⟨x, present, same⟩
      by_cases here : place = h
      · simp [here] at present
      · simp only [here, ↓reduceIte] at present
        have found : t.index[e.value.key]? = some h := (linked.indexed _ h).mpr ⟨e, live, rfl⟩
        rw [found, Option.some.injEq] at former
        exact here (former.mpr ⟨x, present, same⟩).symm
    · simp only [key, beq_iff_eq, ↓reduceIte, former]
      by_cases here : place = h
      · simp [here, live, key]
      · simp only [here, ↓reduceIte]

theorem Sound.removed (sound : t.Sound g) (h : Handle) (e : Entry) (live : t.find? h = some e)
    (other : h ≠ .globalObject) : (t.without h e.value.key).Sound g := by
  obtain ⟨changed, kept⟩ := sound.linked.removed h e live other
  refine ⟨kept.slots, kept.indexed, ?_, ?_⟩
  · intro place x present
    rw [changed, Function.update_apply] at present
    by_cases here : place = h
    · simp [here] at present
    · simp only [here, ↓reduceIte] at present
      exact sound.held place x present
  · rw [value?_of_update _ _ _ changed, if_neg (Ne.symm other), sound.root]

/-- What giving a reference back leaves of the count. -/
def countAfterRelease (h : Handle) (n : Nat) : Nat := if h = .globalObject then max (n - 1) 1 else n - 1

/-- Releasing a live handle succeeds, counts one reference off, and keeps the values of all handles
that stay. -/
theorem Sound.release (sound : t.Sound g) (h : Handle) (live : 0 < t.count h) :
    ∃ t', t.release h = .ok t' ∧ t'.Sound g ∧
      (∀ k, t'.count k = if k = h then countAfterRelease h (t.count h) else t.count k) ∧
      (∀ k, 0 < t'.count k → t'.value? k = t.value? k) := by
  obtain ⟨e, present⟩ := sound.exists_entry h live
  have number := count_of_entry h e present
  by_cases stays : 1 < e.refcount ∨ h = .globalObject
  · have left : (if 1 < e.refcount then e.refcount - 1 else 1).toNat =
        countAfterRelease h (t.count h) := by
      rw [number, countAfterRelease]
      by_cases many : 1 < e.refcount
      · have amount : 1 < e.refcount.toNat := UInt32.lt_iff_toNat_lt.mp many
        have atLeast : 1 ≤ e.refcount := UInt32.le_iff_toNat_le.mpr (Nat.le_of_lt amount)
        rw [if_pos many, UInt32.toNat_sub_of_le _ _ atLeast, UInt32.toNat_one]
        split <;> omega
      · have amount : e.refcount.toNat ≤ 1 := by
          have bound := (UInt32.lt_iff_toNat_lt (a := 1) (b := e.refcount)).not.mp many
          rw [UInt32.toNat_one] at bound
          omega
        have root : h = .globalObject := stays.resolve_left many
        rw [if_neg many, if_pos root, UInt32.toNat_one]
        omega
    refine ⟨_, release_of_shared h e present stays, ?_, ?_, ?_⟩
    · apply sound.recount h e _ present
      rw [left, countAfterRelease]
      by_cases root : h = .globalObject
      · rw [if_pos root]
        omega
      · have many := UInt32.lt_iff_toNat_lt.mp (stays.resolve_right root)
        rw [UInt32.toNat_one] at many
        rw [if_neg root, number]
        omega
    · intro k
      rw [count_recount h e _ present, left]
    · intro k _
      exact value?_recount h e _ present k
  · have other : h ≠ .globalObject := fun root => stays (Or.inr root)
    have changed := (sound.linked.removed h e present other).1
    have single : e.refcount.toNat ≤ 1 := by
      have bound := (UInt32.lt_iff_toNat_lt (a := 1) (b := e.refcount)).not.mp
        (fun many => stays (Or.inl many))
      rw [UInt32.toNat_one] at bound
      omega
    refine ⟨_, sound.linked.release_of_last h e present stays, sound.removed h e present other,
      ?_, ?_⟩
    · intro k
      rw [count_of_update _ _ _ changed, countAfterRelease, if_neg other, number]
      by_cases here : k = h
      · simp only [here, ↓reduceIte, Option.map_none, Option.getD_none]
        omega
      · simp only [here, ↓reduceIte]
    · intro k stays
      rw [count_of_update _ _ _ changed] at stays
      rw [value?_of_update _ _ _ changed]
      by_cases here : k = h
      · simp [here] at stays
      · simp only [here, ↓reduceIte]

theorem Sound.retainHandle (sound : t.Sound g) (h : Handle) (live : 0 < t.count h)
    (countable : t.count h + 1 < 2 ^ 32) :
    ∃ t', t.retainHandle h = .ok t' ∧ t'.Sound g ∧
      (∀ k, t'.count k = if k = h then t.count h + 1 else t.count k) ∧
      (∀ k, t'.value? k = t.value? k) := by
  obtain ⟨e, present⟩ := sound.exists_entry h live
  rw [count_of_entry h e present] at countable ⊢
  have sum : (e.refcount + 1).toNat = e.refcount.toNat + 1 := by
    rw [UInt32.toNat_add, UInt32.toNat_one, Nat.mod_eq_of_lt countable]
  refine ⟨_, retainHandle_of_live h e present, ?_, ?_, ?_⟩
  · exact sound.recount h e _ present (by omega)
  · intro k
    rw [count_recount h e _ present, sum]
  · exact value?_recount h e _ present

theorem create_slots (layout : Layout) (globalObject : Host.Value) :
    (create layout globalObject).slots = Slots.rooted layout ⟨globalObject, 1⟩ := by
  cases layout <;> rfl

theorem find?_create (layout : Layout) (globalObject : Host.Value) (h : Handle) :
    (create layout globalObject).find? h =
      if h = .globalObject then some ⟨globalObject, 1⟩ else none := by
  rw [find?, create_slots, Slots.get?_rooted]

theorem create_sound (layout : Layout) (globalObject : Host.Value) :
    (create layout globalObject).Sound globalObject := by
  refine ⟨?_, ?_, ?_, ?_⟩
  · rw [create_slots]
    exact Slots.rooted_sound layout _
  · intro k h
    have indexed : (create layout globalObject).index =
        (∅ : Std.HashMap Host.Key Handle).insert globalObject.key .globalObject := rfl
    rw [indexed, Std.HashMap.getElem?_insert, Std.HashMap.getElem?_empty, find?_create]
    by_cases root : h = .globalObject
    · by_cases key : globalObject.key = k <;> simp [root, key]
    · by_cases key : globalObject.key = k <;> simp [root, key, Ne.symm root]
  · intro h e present
    rw [find?_create] at present
    by_cases root : h = .globalObject
    · simp only [root, ↓reduceIte, Option.some.injEq] at present
      subst present
      exact Nat.one_pos
    · simp [root] at present
  · rw [value?, find?_create, if_pos rfl]
    rfl

end Membrane.RefTable
