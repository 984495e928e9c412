import Membrane.Proofs.Number.Equality
import Membrane.Proofs.Table.Accounts
/-!
Which values share a handle. Values have one key if the host takes them for equal, or if both are
numbers in name only. So keys tell values apart by an equivalence, and a table answers for a value
with the handle of the first one that was the same, as long as this handle is live.
-/

set_option autoImplicit false

namespace Membrane

namespace Number

/-- The word that stands for all words of one key. -/
def canonical (x : Number) : Number := if x.isNaN then nan else if x.isZero then zero else x

variable (x y : Number)

theorem isNaN_canonical : x.canonical.isNaN = x.isNaN := by
  rw [canonical]
  split_ifs with none null
  · rw [none]
    decide
  · rw [Bool.not_eq_true] at none
    rw [none]
    decide
  · rfl

theorem isZero_canonical (number : x.isNaN = false) : x.canonical.isZero = x.isZero := by
  rw [canonical, number, if_neg Bool.false_ne_true]
  split_ifs with null
  · rw [null]
    decide
  · rfl

theorem canonical_eq_iff :
    x.canonical = y.canonical ↔ x.eq y = true ∨ x.isNaN = true ∧ y.isNaN = true := by
  rw [eq_iff_words]
  constructor
  · intro same
    have kinds : x.isNaN = y.isNaN := by rw [← isNaN_canonical, same, isNaN_canonical]
    cases number : x.isNaN with
    | true => exact .inr ⟨rfl, kinds ▸ number⟩
    | false =>
      have number' : y.isNaN = false := kinds ▸ number
      have zeros : x.isZero = y.isZero := by
        rw [← isZero_canonical x number, same, isZero_canonical y number']
      refine .inl ⟨⟨rfl, number'⟩, ?_⟩
      cases null : x.isZero with
      | true => exact .inr ⟨rfl, zeros ▸ null⟩
      | false =>
        have null' : y.isZero = false := zeros ▸ null
        simp only [canonical, number, number', null, null', Bool.false_eq_true, ↓reduceIte] at same
        exact .inl same
  · rintro (⟨⟨number, number'⟩, rfl | ⟨null, null'⟩⟩ | ⟨none, none'⟩)
    · rfl
    · simp only [canonical, number, number', null, null', Bool.false_eq_true, ↓reduceIte]
    · simp only [canonical, none, none', ↓reduceIte]

end Number

namespace Host.Value

/-- A value of the type of numbers that is not a number. -/
def IsNaN : Value → Prop
  | .number x => x.isNaN = true
  | _ => False

/-- The host takes both for equal, or neither of them is a number although both are of that type. -/
def Same (a b : Value) : Prop := a.strictEq b = true ∨ a.IsNaN ∧ b.IsNaN

theorem key_number (x : Number) : (number x).key = .number x.canonical.bits := by
  rw [key, Number.canonical]
  split_ifs <;> rfl

/-- Keys tell apart what is not the same, and nothing else. -/
theorem key_eq_iff (a b : Value) : a.key = b.key ↔ a.Same b := by
  cases a with
  | number x =>
    cases b with
    | number y =>
      have words : x.canonical.bits = y.canonical.bits ↔ x.canonical = y.canonical :=
        ⟨fun same => congrArg Number.mk same, congrArg Number.bits⟩
      rw [key_number, key_number, Key.number.injEq, words, Number.canonical_eq_iff]
      rfl
    | _ => simp [key, Same, strictEq, IsNaN]
  | _ => cases b <;> simp [key, Same, strictEq, IsNaN]

theorem same_equivalence : Equivalence Same where
  refl a := (key_eq_iff a a).mp rfl
  symm same := (key_eq_iff _ _).mp ((key_eq_iff _ _).mpr same).symm
  trans first second :=
    (key_eq_iff _ _).mp (((key_eq_iff _ _).mpr first).trans ((key_eq_iff _ _).mpr second))

/-- Only what is not a number is unequal to itself. -/
theorem strictEq_self (a : Value) : a.strictEq a = false ↔ a.IsNaN := by
  cases a with
  | number x =>
    have words := Number.eq_iff_words x x
    rw [strictEq, IsNaN, ← Bool.not_eq_true, words]
    simp
  | _ => simp [strictEq, IsNaN]

end Host.Value

namespace RefTable

variable {t start : RefTable} {h : Handle}

/-- A value that has no handle needs one that is left. -/
def Call.InRange (t : RefTable) : Call → Prop
  | .retain v => t.lookup? v = none → t.liveCount ≤ 2 ^ 32 - 3
  | .retainHandle _ | .release _ => True

/-- Calls lead from one table to another, whatever the counts come to, and all along something is
so. -/
inductive Leads (kept : RefTable → Prop) (start : RefTable) : RefTable → Prop
  | start (now : kept start) : Leads kept start start
  | call {t : RefTable} (former : Leads kept start t) (c : Call) (inRange : c.InRange t)
      (now : kept (c.perform t).2) : Leads kept start (c.perform t).2

/-- A call leaves the table in order and the values of the handles that stay live. -/
structure Follows (t t' : RefTable) : Prop where
  linked : t'.Linked
  values : ∀ h, t.contains h → t'.contains h → t'.get h = t.get h

theorem follows_recount (linked : t.Linked) (k : Handle) (e : Entry) (n : UInt32)
    (live : t.find? k = some e) : Follows t (t.recount k n) := by
  refine ⟨linked.recount k e n live, fun h _ _ => ?_⟩
  rw [get, get, find?_recount k e n live, Function.update_apply]
  by_cases same : h = k
  · rw [if_pos same, same, live]
  · rw [if_neg same]

theorem follows_retain (linked : t.Linked) (v : Host.Value) (inRange : (Call.retain v).InRange t) :
    Follows t (t.retain v).2 := by
  cases known : t.lookup? v with
  | some k =>
    obtain ⟨e, live, same⟩ := (linked.indexed v.key k).mp known
    rw [linked.retain_of_known v k e live same]
    exact follows_recount linked k e _ live
  | none =>
    have room : t.slots.HasRoom := inRange known
    refine ⟨linked.retain_new room v known, fun h live _ => ?_⟩
    have other : h ≠ (t.retain v).1 := by
      rintro rfl
      rw [contains_eq, (linked.retain_fresh room v known).2] at live
      cases live
    rw [get, get, linked.find?_retain_new room v known, Function.update_of_ne other]

/-- Retaining ends no handle. -/
theorem contains_retain (linked : t.Linked) (v : Host.Value) (inRange : (Call.retain v).InRange t)
    (live : t.contains h) : (t.retain v).2.contains h := by
  cases known : t.lookup? v with
  | some k =>
    obtain ⟨e, there, same⟩ := (linked.indexed v.key k).mp known
    rw [linked.retain_of_known v k e there same, contains_eq, find?_recount k e _ there,
      Function.update_apply]
    split
    · rfl
    · exact live
  | none =>
    rw [contains_eq, linked.find?_retain_new (inRange known) v known, Function.update_apply]
    split
    · rfl
    · exact live

theorem follows_release (linked : t.Linked) (k : Handle) :
    Follows t ((Call.release k).perform t).2 := by
  cases live : t.find? k with
  | none =>
    rw [Call.perform, release_of_dead k live]
    exact ⟨linked, fun _ _ _ => rfl⟩
  | some e =>
    by_cases stays : 1 < e.refcount ∨ k = .globalObject
    · rw [Call.perform, release_of_shared k e live stays]
      exact follows_recount linked k e _ live
    · have other : k ≠ .globalObject := fun root => stays (.inr root)
      obtain ⟨changed, kept⟩ := linked.removed k e live other
      rw [Call.perform, linked.release_of_last k e live stays]
      refine ⟨kept, fun h _ still => ?_⟩
      have apart : h ≠ k := by
        rintro rfl
        rw [contains_eq, changed, Function.update_self] at still
        cases still
      rw [get, get, changed, Function.update_of_ne apart]

theorem Call.follows (linked : t.Linked) (c : Call) (inRange : c.InRange t) :
    Follows t (c.perform t).2 := by
  cases c with
  | retain v => exact follows_retain linked v inRange
  | release k => exact follows_release linked k
  | retainHandle k =>
    cases live : t.find? k with
    | none =>
      rw [perform, retainHandle_of_dead k live]
      exact ⟨linked, fun _ _ _ => rfl⟩
    | some e =>
      rw [perform, retainHandle_of_live k e live]
      exact follows_recount linked k e _ live

theorem Leads.linked {kept : RefTable → Prop} (leads : Leads kept start t)
    (linked : start.Linked) : t.Linked := by
  induction leads with
  | start _ => exact linked
  | call _ c inRange _ ih => exact (c.follows ih inRange).linked

theorem Leads.now {kept : RefTable → Prop} (leads : Leads kept start t) : kept t := by
  cases leads with
  | start now => exact now
  | call _ _ _ now => exact now

/-- As long as a handle is live its value stays. -/
theorem Leads.get (leads : Leads (·.contains h) start t) (linked : start.Linked) :
    t.get h = start.get h := by
  induction leads with
  | start _ => rfl
  | call former c inRange now ih =>
    rw [(c.follows (former.linked linked) inRange).values h former.now now, ih]

/-- A value is retained at a handle that is live, where the first value that was the same stands. -/
theorem Linked.get_retain (linked : t.Linked) (a : Host.Value)
    (inRange : (Call.retain a).InRange t) :
    ∃ v, (t.lookup? a = none ∧ v = a ∨ t.get (t.retain a).1 = .ok v) ∧ v.Same a ∧
      (t.retain a).2.get (t.retain a).1 = .ok v := by
  cases known : t.lookup? a with
  | some k =>
    obtain ⟨e, live, same⟩ := (linked.indexed a.key k).mp known
    rw [linked.retain_of_known a k e live same]
    have read : t.get k = .ok e.value := by rw [get, live]
    refine ⟨e.value, .inr read, (Host.Value.key_eq_iff _ _).mp same, ?_⟩
    rw [get, find?_recount k e _ live, Function.update_self]
  | none =>
    have room : t.slots.HasRoom := inRange known
    refine ⟨a, .inl ⟨rfl, rfl⟩, Host.Value.same_equivalence.refl a, ?_⟩
    rw [get, linked.find?_retain_new room a known, Function.update_self]

/-- A value is retained at a handle that is live if, and only if, the value there is the same. -/
theorem Linked.retain_eq_iff (linked : t.Linked) (b v : Host.Value)
    (inRange : (Call.retain b).InRange t) (read : t.get h = .ok v) :
    (t.retain b).1 = h ↔ v.Same b := by
  obtain ⟨e, live, rfl⟩ : ∃ e, t.find? h = some e ∧ e.value = v := by
    cases live : t.find? h with
    | none => simp [get, live] at read
    | some e => exact ⟨e, rfl, by simpa [get, live] using read⟩
  rw [← Host.Value.key_eq_iff]
  constructor
  · rintro rfl
    cases known : t.lookup? b with
    | some k =>
      obtain ⟨d, there, same⟩ := (linked.indexed b.key k).mp known
      rw [linked.retain_of_known b k d there same, there] at live
      rw [← Option.some.inj live, same]
    | none =>
      rw [(linked.retain_fresh (inRange known) b known).2] at live
      cases live
  · intro same
    rw [linked.retain_of_known b h e live same]

/-- Keys are equal for equal numbers, which is to say for words that are read as the same value, for
words that are all not a number, and for what the host takes for equal among the other values; this
is an equivalence although what is not a number is unequal to itself. In a table that calls lead to,
whatever has happened since a value was retained, as long as its handle has been live another value
is retained at this handle if, and only if, it is the same, and the first of them all is read
there. -/
theorem one_handle_iff_same :
    (∀ a b : Host.Value, a.key = b.key ↔ a.Same b) ∧ Equivalence Host.Value.Same ∧
    (∀ a : Host.Value, a.strictEq a = false ↔ a.IsNaN) ∧
    (∀ x y : Number, x.eq y = true ↔ ∃ q, x.extended? = some q ∧ y.extended? = some q) ∧
    (∀ x : Number, x.isNaN = true ↔ 2047 * 2 ^ 52 < x.word % 2 ^ 63) ∧
    ∀ (layout : Layout) (globalObject : Host.Value) (before after : RefTable) (a b : Host.Value),
      Leads (fun _ => True) (.create layout globalObject) before →
      (Call.retain a).InRange before →
      Leads (·.contains (before.retain a).1) (before.retain a).2 after →
      (Call.retain b).InRange after →
      ((after.retain b).1 = (before.retain a).1 ↔ a.Same b) ∧
        ∃ v, (before.lookup? a = none ∧ v = a ∨ before.get (before.retain a).1 = .ok v) ∧
          v.Same a ∧ after.get (before.retain a).1 = .ok v ∧
          (after.retain b).2.get (before.retain a).1 = .ok v := by
  refine ⟨Host.Value.key_eq_iff, Host.Value.same_equivalence, Host.Value.strictEq_self,
    Number.eq_iff, Number.isNaN_iff, ?_⟩
  intro layout g before after a b reached inRange held inRange'
  have same := Host.Value.same_equivalence
  have linked : before.Linked := reached.linked (create_sound layout g).linked
  have retained := follows_retain linked a inRange
  obtain ⟨v, first, alike, read⟩ := linked.get_retain a inRange
  have later : after.get (before.retain a).1 = .ok v := (held.get retained.linked).trans read
  have linked' := held.linked retained.linked
  refine ⟨?_, v, first, alike, later, ?_⟩
  · rw [linked'.retain_eq_iff b v inRange' later]
    exact ⟨same.trans (same.symm alike), same.trans alike⟩
  · have next := follows_retain linked' b inRange'
    rw [next.values _ held.now (contains_retain linked' b inRange' held.now), later]

/-- Two words that are not a number differ in sign and payload, and share a handle. -/
theorem one_handle_iff_same_nan :
    let a : Host.Value := .number ⟨0x7ff8000000000001⟩
    let b : Host.Value := .number ⟨0xfff8000000000000⟩
    let before := create .dense (.object 0)
    a.strictEq b = false ∧ ((before.retain a).2.retain b).1 = (before.retain a).1 ∧
      ((before.retain a).2.retain b).2.get (before.retain a).1 = .ok a := by
  intro a b before
  have same : a.Same b :=
    .inr ⟨(by decide : Number.isNaN ⟨0x7ff8000000000001⟩ = true),
      (by decide : Number.isNaN ⟨0xfff8000000000000⟩ = true)⟩
  have linked : before.Linked := (create_sound .dense (.object 0)).linked
  have inRange : (Call.retain a).InRange before := fun _ => by decide
  have new : before.lookup? a = none := by
    rw [Option.eq_none_iff_forall_ne_some]
    intro h known
    obtain ⟨e, live, key⟩ := (linked.indexed _ h).mp known
    rw [find?_create] at live
    split at live
    · cases live
      cases key
    · cases live
  have room : before.slots.HasRoom := inRange new
  have stored : (before.retain a).2.find? (before.retain a).1 = some ⟨a, 1⟩ := by
    rw [linked.find?_retain_new room a new, Function.update_self]
  have live : (before.retain a).2.contains (before.retain a).1 := by
    rw [contains_eq, stored]
    rfl
  -- The second value has the handle of the first, and needs none that is left.
  have inRange' : (Call.retain b).InRange (before.retain a).2 := fun unknown => by
    have known := ((linked.retain_new room a new).indexed b.key _).mpr
      ⟨_, stored, (Host.Value.key_eq_iff a b).mpr same⟩
    cases known.symm.trans unknown
  obtain ⟨together, u, first, -, -, kept⟩ := one_handle_iff_same.2.2.2.2.2 .dense (.object 0)
    before (before.retain a).2 a b (.start trivial) inRange (.start live) inRange'
  refine ⟨by decide, together.mpr same, ?_⟩
  obtain ⟨-, rfl⟩ | old := first
  · exact kept
  · rw [get, (linked.retain_fresh room a new).2] at old
    cases old

end RefTable

end Membrane
