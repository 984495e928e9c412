import Membrane.Proofs.Table.RefTable
/-!
Two tables that hold the same. What a table holds of a value is told by the key of the value alone,
whatever its handle is. Where two tables hold the same of every key, the handles at which they hold it
belong together, and an operation on handles that belong together leaves tables that hold the same.
-/

set_option autoImplicit false

namespace Membrane.RefTable

/-- Two handles, each live in a table of its own, that stand for one value. -/
def Partners (s t : RefTable) (h k : Handle) : Prop :=
  ∃ u v, s.get h = .ok u ∧ t.get k = .ok v ∧ u.key = v.key

/-- Two tables that differ in their handles only. -/
structure Alike (s t : RefTable) : Prop where
  left : ∀ h, s.contains h → ∃! k, Partners s t h k
  right : ∀ k, t.contains k → ∃! h, Partners s t h k
  root : Partners s t .globalObject .globalObject
  same : ∀ h k, Partners s t h k → s.get h = t.get k ∧ s.refcount? h = t.refcount? k
  size : s.liveCount = t.liveCount

/-- What a table holds of the value with a key. -/
def held? (t : RefTable) (k : Host.Key) : Option Entry := t.index[k]?.bind t.find?

/-- What a table holds of a value once it is retained. -/
def retained (v : Host.Value) : Option Entry → Entry
  | some e => { e with refcount := e.refcount + 1 }
  | none => ⟨v, 1⟩

variable {s s' t t' : RefTable}

theorem Linked.held?_eq_some_iff (linked : t.Linked) (k : Host.Key) (e : Entry) :
    t.held? k = some e ↔ ∃ h, t.find? h = some e ∧ e.value.key = k := by
  rw [held?, Option.bind_eq_some_iff]
  constructor
  · rintro ⟨h, found, live⟩
    obtain ⟨d, present, same⟩ := (linked.indexed k h).mp found
    obtain rfl := Option.some.inj (live.symm.trans present)
    exact ⟨h, live, same⟩
  · rintro ⟨h, live, same⟩
    exact ⟨h, (linked.indexed k h).mpr ⟨e, live, same⟩, live⟩

theorem Linked.held?_of_live (linked : t.Linked) (h : Handle) (e : Entry)
    (live : t.find? h = some e) : t.held? e.value.key = some e :=
  (linked.held?_eq_some_iff _ e).mpr ⟨h, live, rfl⟩

theorem Linked.unique (linked : t.Linked) (h k : Handle) (d e : Entry) (hd : t.find? h = some d)
    (he : t.find? k = some e) (same : d.value.key = e.value.key) : h = k := by
  have first := (linked.indexed _ h).mpr ⟨d, hd, same⟩
  have second := (linked.indexed _ k).mpr ⟨e, he, rfl⟩
  exact Option.some.inj (first.symm.trans second)

theorem Linked.lookup?_eq_some_iff (linked : t.Linked) (v : Host.Value) (h : Handle) :
    t.lookup? v = some h ↔ ∃ e, t.find? h = some e ∧ e.value.key = v.key := linked.indexed v.key h

theorem Linked.lookup?_isNone (linked : t.Linked) (v : Host.Value) :
    t.lookup? v = none ↔ t.held? v.key = none := by
  constructor
  · intro unknown
    have absent : t.index[v.key]? = none := unknown
    rw [held?, absent, Option.bind_none]
  · intro none
    refine Option.eq_none_iff_forall_ne_some.mpr fun h known => ?_
    obtain ⟨e, live, same⟩ := (linked.lookup?_eq_some_iff v h).mp known
    rw [← same, linked.held?_of_live h e live] at none
    cases none

/-- A table after a change of what it holds of one key. Each handle stays with its key. -/
structure Updated (t t' : RefTable) (k : Host.Key) (x : Option Entry) : Prop where
  linked : t'.Linked
  entries : t'.held? = Function.update t.held? k x
  follows : ∀ h e, t.find? h = some e → t'.find? h = t'.held? e.value.key
  size : t'.liveCount + (t.held? k).toList.length = t.liveCount + x.toList.length

/-- A handle goes only if nothing is held of its key any more. -/
theorem Updated.exists_live {k : Host.Key} {x : Option Entry} (updated : Updated t t' k x)
    (linked : t.Linked) (h : Handle) (e : Entry) (live : t.find? h = some e)
    (stays : x = none → e.value.key ≠ k) : ∃ d, t'.find? h = some d := by
  rw [updated.follows h e live, updated.entries, Function.update_apply]
  split
  case isTrue here =>
    cases new : x with
    | none => exact absurd here (stays new)
    | some d => exact ⟨d, rfl⟩
  case isFalse => exact ⟨e, linked.held?_of_live h e live⟩

/-- One handle is written that is the only one of a key. -/
theorem Linked.updated (linked : t.Linked) (kept : t'.Linked) (h : Handle) (k : Host.Key)
    (x : Option Entry) (written : t'.find? = Function.update t.find? h x)
    (key : ∀ e, x = some e → e.value.key = k)
    (own : ∀ j e, t.find? j = some e → (j = h ↔ e.value.key = k))
    (size : t'.liveCount + (t.held? k).toList.length = t.liveCount + x.toList.length) :
    Updated t t' k x := by
  have entries : t'.held? = Function.update t.held? k x := by
    funext j
    refine Option.ext fun e => ?_
    rw [kept.held?_eq_some_iff, written, Function.update_apply]
    by_cases here : j = k
    · subst here
      rw [if_pos rfl]
      constructor
      · rintro ⟨p, live, same⟩
        rw [Function.update_apply] at live
        split at live
        · exact live
        · next other => exact absurd ((own p e live).mpr same) other
      · intro new
        exact ⟨h, by rw [Function.update_self, new], key e new⟩
    · rw [if_neg here, linked.held?_eq_some_iff]
      constructor
      · rintro ⟨p, live, same⟩
        rw [Function.update_apply] at live
        split at live
        · exact absurd (same.symm.trans (key e live)) here
        · exact ⟨p, live, same⟩
      · rintro ⟨p, live, same⟩
        have other : p ≠ h := fun equal => here (same.symm.trans ((own p e live).mp equal))
        exact ⟨p, by rw [Function.update_of_ne other, live], same⟩
  refine ⟨kept, entries, fun j e live => ?_, size⟩
  rw [written, entries, Function.update_apply, Function.update_apply]
  by_cases here : j = h
  · rw [if_pos here, if_pos ((own j e live).mp here)]
  · rw [if_neg here, if_neg (mt (own j e live).mpr here), live, linked.held?_of_live j e live]

theorem Linked.own_of_live (linked : t.Linked) (h : Handle) (d : Entry) (live : t.find? h = some d)
    (j : Handle) (e : Entry) (present : t.find? j = some e) :
    j = h ↔ e.value.key = d.value.key := by
  constructor
  · rintro rfl
    obtain rfl := Option.some.inj (present.symm.trans live)
    rfl
  · exact linked.unique j h e d present live

theorem Linked.updated_recount (linked : t.Linked) (h : Handle) (e : Entry) (n : UInt32)
    (live : t.find? h = some e) :
    Updated t (t.recount h n) e.value.key (some { e with refcount := n }) := by
  refine linked.updated (linked.recount h e n live) h _ _ (find?_recount h e n live) ?_
    (linked.own_of_live h e live) ?_
  · intro d same
    obtain rfl := Option.some.inj same
    rfl
  · rw [linked.held?_of_live h e live]
    exact congrArg (· + 1) (Slots.size_setRefcount t.slots h n)

theorem Linked.updated_without (linked : t.Linked) (h : Handle) (e : Entry)
    (live : t.find? h = some e) (other : h ≠ .globalObject) :
    Updated t (t.without h e.value.key) e.value.key none := by
  obtain ⟨written, kept⟩ := linked.removed h e live other
  refine linked.updated kept h _ _ written (fun _ none => by cases none)
    (linked.own_of_live h e live) ?_
  have positive : 0 < t.slots.size := by
    rw [linked.slots.counted]
    refine (Set.ncard_pos (Set.toFinite _)).mpr ⟨h, ?_⟩
    rw [Slots.mem_handles]
    exact Option.isSome_iff_exists.mpr ⟨e, live⟩
  have less := Slots.size_remove t.slots h e live (linked.dynamic h e live other)
  rw [linked.held?_of_live h e live]
  show (t.slots.remove h).size + 1 = t.slots.size + 0
  omega

/-- What is held of a value is retained, at the handle that is answered. -/
theorem Linked.updated_retain (linked : t.Linked) (v : Host.Value)
    (room : t.lookup? v = none → t.slots.HasRoom) :
    Updated t (t.retain v).2 v.key (some (retained v (t.held? v.key))) ∧
      (t.retain v).2.find? (t.retain v).1 = some (retained v (t.held? v.key)) := by
  cases known : t.lookup? v with
  | some h =>
    obtain ⟨e, live, same⟩ := (linked.lookup?_eq_some_iff v h).mp known
    have held := linked.held?_of_live h e live
    rw [same] at held
    rw [linked.retain_of_known v h e live same, held, ← same]
    refine ⟨linked.updated_recount h e _ live, ?_⟩
    rw [find?_recount h e _ live, Function.update_self]
    rfl
  | none =>
    have unknown := (linked.lookup?_isNone v).mp known
    have fresh := (linked.retain_fresh (room known) v known).2
    have written := linked.find?_retain_new (room known) v known
    rw [unknown]
    constructor
    case right =>
      rw [written, Function.update_self]
      rfl
    refine linked.updated (linked.retain_new (room known) v known) _ _ _ written ?_ ?_ ?_
    · intro d same
      obtain rfl := Option.some.inj same
      rfl
    · intro j e live
      constructor
      · rintro rfl
        rw [fresh] at live
        cases live
      · intro same
        rw [← same, linked.held?_of_live j e live] at unknown
        cases unknown
    · rw [unknown, retain_of_new v known]
      exact linked.slots.size_allocate _

/-- Two handles with one entry, each in a table of its own. -/
def Together (s t : RefTable) (h k : Handle) : Prop :=
  ∃ e, s.find? h = some e ∧ t.find? k = some e

/-- Two tables that hold the same of every key. -/
structure Twins (s t : RefTable) : Prop where
  left : s.Linked
  right : t.Linked
  entries : s.held? = t.held?
  root : Together s t .globalObject .globalObject
  size : s.liveCount = t.liveCount

theorem create_twins (layout layout' : Layout) (globalObject : Host.Value) :
    Twins (create layout globalObject) (create layout' globalObject) := by
  have left := (create_sound layout globalObject).linked
  have right := (create_sound layout' globalObject).linked
  have finds : (create layout globalObject).find? = (create layout' globalObject).find? := by
    funext h
    rw [find?_create, find?_create]
  refine ⟨left, right, ?_, ?_, ?_⟩
  · funext k
    refine Option.ext fun e => ?_
    rw [left.held?_eq_some_iff, right.held?_eq_some_iff, finds]
  · exact ⟨_, by rw [find?_create, if_pos rfl], by rw [find?_create, if_pos rfl]⟩
  · have handles : (create layout globalObject).slots.handles =
        (create layout' globalObject).slots.handles := by
      ext h
      show ((create layout globalObject).find? h).isSome ↔ _
      rw [finds]
      rfl
    rw [liveCount, liveCount, left.slots.counted, right.slots.counted, handles]

namespace Twins

theorem lookup?_isNone (twins : Twins s t) (v : Host.Value) :
    s.lookup? v = none ↔ t.lookup? v = none := by
  rw [twins.left.lookup?_isNone, twins.right.lookup?_isNone, twins.entries]

/-- Handles that are live and stand for one value have one entry. -/
theorem partners_iff (twins : Twins s t) (h k : Handle) :
    Partners s t h k ↔ Together s t h k := by
  constructor
  · rintro ⟨u, v, hu, hv, same⟩
    obtain ⟨d, left, rfl⟩ := Option.map_eq_some_iff.mp ((get_eq_ok_iff h u).mp hu)
    obtain ⟨e, right, rfl⟩ := Option.map_eq_some_iff.mp ((get_eq_ok_iff k v).mp hv)
    have held := twins.left.held?_of_live h d left
    rw [same, twins.entries, twins.right.held?_of_live k e right] at held
    obtain rfl := Option.some.inj held
    exact ⟨e, left, right⟩
  · rintro ⟨e, left, right⟩
    exact ⟨e.value, e.value, (get_eq_ok_iff h _).mpr (by rw [value?, left]; rfl),
      (get_eq_ok_iff k _).mpr (by rw [value?, right]; rfl), rfl⟩

theorem exists_right (twins : Twins s t) (h : Handle) (live : s.contains h) :
    ∃ k, Together s t h k := by
  obtain ⟨e, left⟩ := Option.isSome_iff_exists.mp live
  have held := twins.left.held?_of_live h e left
  rw [twins.entries] at held
  obtain ⟨k, right, _⟩ := (twins.right.held?_eq_some_iff _ e).mp held
  exact ⟨k, e, left, right⟩

theorem symm (twins : Twins s t) : Twins t s where
  left := twins.right
  right := twins.left
  entries := twins.entries.symm
  root := by
    obtain ⟨e, left, right⟩ := twins.root
    exact ⟨e, right, left⟩
  size := twins.size.symm

theorem unique_right (twins : Twins s t) (h k k' : Handle) (first : Together s t h k)
    (second : Together s t h k') : k = k' := by
  obtain ⟨d, left, right⟩ := first
  obtain ⟨e, again, other⟩ := second
  obtain rfl := Option.some.inj (left.symm.trans again)
  exact twins.right.unique k k' d d right other rfl

theorem together_symm (h k : Handle) : Together s t h k ↔ Together t s k h := by
  simp only [Together, and_comm]

theorem alike (twins : Twins s t) : Alike s t where
  left h live := by
    obtain ⟨k, together⟩ := twins.exists_right h live
    refine ⟨k, (twins.partners_iff h k).mpr together, fun k' other => ?_⟩
    exact twins.unique_right h k' k ((twins.partners_iff h k').mp other) together
  right k live := by
    obtain ⟨h, together⟩ := twins.symm.exists_right k live
    refine ⟨h, (twins.partners_iff h k).mpr ((together_symm k h).mp together), fun h' other => ?_⟩
    have back := (together_symm h' k).mp ((twins.partners_iff h' k).mp other)
    exact twins.symm.unique_right k h' h back together
  root := (twins.partners_iff _ _).mpr twins.root
  same h k partners := by
    obtain ⟨e, left, right⟩ := (twins.partners_iff h k).mp partners
    rw [get, get, refcount?, refcount?, left, right]
    exact ⟨rfl, rfl⟩
  size := twins.size

/-- Both tables change in what they hold of one key; that of the global object does not go. -/
theorem updated {k : Host.Key} {x : Option Entry} (twins : Twins s t) (left : Updated s s' k x)
    (right : Updated t t' k x)
    (rooted : x = none → ∀ e, s.find? .globalObject = some e → e.value.key ≠ k) :
    Twins s' t' ∧ ∀ h j, Together s t h j → s'.find? h = t'.find? j := by
  have entries : s'.held? = t'.held? := by rw [left.entries, right.entries, twins.entries]
  have follows : ∀ h j, Together s t h j → s'.find? h = t'.find? j := by
    rintro h j ⟨e, one, other⟩
    rw [left.follows h e one, right.follows j e other, entries]
  refine ⟨⟨left.linked, right.linked, entries, ?_, ?_⟩, follows⟩
  · obtain ⟨e, one, other⟩ := twins.root
    have same := follows _ _ twins.root
    have stays := left.exists_live twins.left _ e one fun gone => rooted gone e one
    obtain ⟨d, live⟩ := stays
    exact ⟨d, live, same ▸ live⟩
  · have first := left.size
    have second := right.size
    rw [twins.entries, twins.size] at first
    omega

theorem retain (twins : Twins s t) (v : Host.Value)
    (room : s.lookup? v = none → s.liveCount ≤ 2 ^ 32 - 3) :
    Twins (s.retain v).2 (t.retain v).2 ∧
      Together (s.retain v).2 (t.retain v).2 (s.retain v).1 (t.retain v).1 ∧
      ∀ h j, Together s t h j → Together (s.retain v).2 (t.retain v).2 h j := by
  obtain ⟨left, here⟩ := twins.left.updated_retain v room
  obtain ⟨right, there⟩ := twins.right.updated_retain v fun unknown => by
    have few := room ((twins.lookup?_isNone v).mpr unknown)
    rwa [twins.size] at few
  rw [← twins.entries] at right there
  obtain ⟨kept, follows⟩ := twins.updated left right fun none => by cases none
  refine ⟨kept, ⟨_, here, there⟩, fun h j together => ?_⟩
  have same := follows h j together
  obtain ⟨e, one, _⟩ := together
  obtain ⟨d, live⟩ := left.exists_live twins.left h e one fun none => by cases none
  exact ⟨d, live, same ▸ live⟩

theorem retainHandle (twins : Twins s t) (h k : Handle) (together : Together s t h k) :
    ∃ s' t', s.retainHandle h = .ok s' ∧ t.retainHandle k = .ok t' ∧ Twins s' t' ∧
      Together s' t' h k ∧ ∀ i j, Together s t i j → s'.find? i = t'.find? j := by
  obtain ⟨e, left, right⟩ := together
  obtain ⟨kept, follows⟩ := twins.updated (twins.left.updated_recount h e (e.refcount + 1) left)
    (twins.right.updated_recount k e (e.refcount + 1) right) fun none => by cases none
  refine ⟨_, _, retainHandle_of_live h e left, retainHandle_of_live k e right, kept, ?_, follows⟩
  exact ⟨_, by rw [find?_recount h e _ left, Function.update_self],
    by rw [find?_recount k e _ right, Function.update_self]⟩

theorem globalObject_iff (twins : Twins s t) (h k : Handle) (together : Together s t h k) :
    h = .globalObject ↔ k = .globalObject := by
  constructor
  · rintro rfl
    exact twins.unique_right _ k _ together twins.root
  · rintro rfl
    exact twins.symm.unique_right _ h _ ((together_symm _ _).mp together) twins.symm.root

theorem release (twins : Twins s t) (h k : Handle) (together : Together s t h k) :
    ∃ s' t', s.release h = .ok s' ∧ t.release k = .ok t' ∧ Twins s' t' ∧
      ∀ i j, Together s t i j → s'.find? i = t'.find? j := by
  have roots := twins.globalObject_iff h k together
  obtain ⟨e, left, right⟩ := together
  by_cases stays : 1 < e.refcount ∨ h = .globalObject
  · have stays' : 1 < e.refcount ∨ k = .globalObject := stays.imp_right roots.mp
    refine ⟨_, _, release_of_shared h e left stays, release_of_shared k e right stays', ?_⟩
    exact twins.updated (twins.left.updated_recount h e _ left)
      (twins.right.updated_recount k e _ right) fun none => by cases none
  · have stays' : ¬ (1 < e.refcount ∨ k = .globalObject) := mt (·.imp_right roots.mpr) stays
    have other : h ≠ .globalObject := fun root => stays (Or.inr root)
    have other' : k ≠ .globalObject := fun root => stays' (Or.inr root)
    refine ⟨_, _, twins.left.release_of_last h e left stays,
      twins.right.release_of_last k e right stays', ?_⟩
    refine twins.updated (twins.left.updated_without h e left other)
      (twins.right.updated_without k e right other') fun _ d root same => ?_
    exact other (twins.left.unique h _ e d left root same.symm)

end Twins

end Membrane.RefTable
