import Mathlib.Data.List.Forall2
import Membrane.Proofs.Crossing.RoundTrip
/-!
Host values that are passed to the guest together. Each is encoded with a reference of its own, and
each encoding becomes the guest's copy of its value. What becomes of one does not disturb the
others, though they may share a handle: a handle stays live as long as one of them needs it.
-/

set_option autoImplicit false

namespace Membrane

/-- The handles that guest values refer to. -/
def Guest.Value.handlesOf (values : List Guest.Value) : List Handle := values.flatMap handles

namespace RefTable

variable {g : Host.Value} {t t' : RefTable} {heap : Host.Heap} {r : RealmId} {a : Guest.Value}
  {v : Host.Value} {raw : Raw} {args : List Host.Value} {raws : List Raw}
  {values : List Guest.Value} {more others : List Handle}

/-- The order in which references were gained does not count. -/
theorem Gains.of_count (gains : Gains g t more t') (same : ∀ h, others.count h = more.count h) :
    Gains g t others t' :=
  ⟨gains.sound, fun h => by rw [gains.lent, same], gains.steady⟩

/-- What was gained is live. -/
theorem Gains.count_pos (gains : Gains g t more t') (h : Handle) (member : h ∈ more) :
    0 < t'.count h := by
  have taken := List.count_pos_iff.mpr member
  have counted := gains.sound.count_eq_lent h
  rw [gains.lent] at counted
  omega

/-- An encoding stands for the same wherever its handle does. -/
theorem Depicts.of_same (depicts : Depicts heap t v raw)
    (same : ∀ h ∈ raw.handle?, t'.value? h = t.value? h) : Depicts heap t' v raw := by
  refine ⟨?_, depicts.string_iff, depicts.function_iff, depicts.isSome_handle?⟩
  rw [← depicts.means, meaning, meaning]
  cases kind : raw.kind with
  | undefined | null | boolean | number => rfl
  | string | object | function =>
    exact get_congr _ (same _ (by rw [Raw.handle?, kind]; rfl))

theorem Copies.of_same (copies : Copies heap r t a v)
    (same : ∀ h ∈ a.handles, t'.value? h = t.value? h) : Copies heap r t' a v := by
  cases copies with
  | undefined => exact .undefined
  | null => exact .null
  | bool b => exact .bool b
  | number x => exact .number x
  | string s => exact .string s
  | object held plain =>
    exact .object ((get_congr _ (same _ List.mem_cons_self)).trans held) plain
  | function held callable =>
    exact .function ((get_congr _ (same _ List.mem_cons_self)).trans held) callable

/-- As long as the handles of all of them stand for what they stood for. -/
theorem depicts_of_same (depicts : List.Forall₂ (Depicts heap t) args raws)
    (same : ∀ h ∈ Raw.carried raws, t'.value? h = t.value? h) :
    List.Forall₂ (Depicts heap t') args raws := by
  induction depicts with
  | nil => exact .nil
  | @cons v raw _ _ first _ ih =>
    rw [Raw.carried_cons] at same
    refine .cons (first.of_same fun h carried => same h ?_) (ih fun h listed => same h ?_)
    · exact List.mem_append_left _ (Option.mem_toList.mpr carried)
    · exact List.mem_append_right _ listed

theorem copies_of_same (copies : List.Forall₂ (Copies heap r t) values args)
    (same : ∀ h ∈ Guest.Value.handlesOf values, t'.value? h = t.value? h) :
    List.Forall₂ (Copies heap r t') values args := by
  induction copies with
  | nil => exact .nil
  | @cons a v _ _ first _ ih =>
    refine .cons (first.of_same fun h held => same h ?_) (ih fun h listed => same h ?_)
    · exact List.mem_append_left _ held
    · exact List.mem_append_right _ listed

end RefTable

namespace Act

open World RefTable Guest.Value

variable {r : RealmId} {g : Host.Value} {t : RefTable} {heap : Host.Heap} {args : List Host.Value}
  {values : List Guest.Value}

/-- The references of copies are those of one realm, to the handles that they carry. -/
theorem refsAre_of_copies (copies : List.Forall₂ (Copies heap r t) values args) :
    RefsAre r values (handlesOf values) := by
  induction copies with
  | nil => rfl
  | @cons a v values _ first _ ih =>
    have one : RefsAre r [a] a.handles := by
      cases first <;> rfl
    exact one.append ih

/-- Values are encoded one after the other, each with a reference of its own if it needs one. -/
theorem exec_lowerRaws_depicted (args : List Host.Value) (w : World) (x : Realm)
    (present : w.realms[r]? = some x) (owner : x.owner = w.here) (sound : x.table.Sound g) {n : Nat}
    (room : x.table.RoomFor (n + args.length)) :
    ∃ raws t, exec (args.mapM (lowerRaw r)) w = (.ok raws, w.withRealm r { x with table := t }) ∧
      List.Forall₂ (Depicts w.heap t) args raws ∧ Gains g x.table (Raw.carried raws) t := by
  induction args generalizing w x with
  | nil =>
    refine ⟨[], x.table, ?_, .nil, sound.gains_nothing⟩
    rw [withRealm_self w r x present]
    rfl
  | cons v args ih =>
    obtain ⟨raw, t, first, encoding⟩ :=
      exec_lowerRaw_encoding w x present owner sound (n := n + args.length) room v
    have there := realm_withRealm w r x { x with table := t } present
    have one : raw.handle?.toList.length ≤ 1 := Option.length_toList_le
    have left : t.RoomFor (n + args.length) :=
      encoding.gains.roomFor sound (room.mono (Nat.add_le_add_left one _))
    obtain ⟨raws, t', rest, depicts, gains⟩ :=
      ih _ { x with table := t } there owner encoding.gains.sound left
    have still : Depicts w.heap t' v raw := encoding.toDepicts.of_same fun h carried =>
      gains.steady h (encoding.gains.count_pos h (Option.mem_toList.mpr carried))
    refine ⟨raw :: raws, t', ?_, .cons still depicts, ?_⟩
    · rw [List.mapM_cons, exec_bind, first, goOn_ok, exec_bind, rest, goOn_ok, exec_pure,
        withRealm_withRealm]
    · rw [Raw.carried_cons]
      exact encoding.gains.trans gains sound

/-- Encodings become copies one after the other. The induction is on the encodings that are left;
what was lifted before goes on to be a copy, as its references are still held. -/
theorem exec_liftGuests_depicted (given : t.Sound g) (raws : List Raw)
    (lifted : List Guest.Value) (before : List Host.Value) (w : World) (x : Realm)
    (present : w.realms[r]? = some x) (owner : x.owner = w.here)
    (depicts : List.Forall₂ (Depicts heap x.table) args raws)
    (copies : List.Forall₂ (Copies heap r x.table) lifted before)
    (gains : Gains g t (handlesOf lifted ++ Raw.carried raws) x.table) :
    ∃ values table lowered frames,
      exec (liftGuests r lifted raws) w =
        (.ok (.ok (lifted ++ values)), w.withRealm r { x with table, lowered, frames }) ∧
      List.Forall₂ (Copies heap r table) (lifted ++ values) (before ++ args) ∧
      Gains g t (handlesOf (lifted ++ values)) table := by
  induction raws generalizing args lifted before w x with
  | nil =>
    cases depicts
    refine ⟨[], x.table, x.lowered, x.frames, ?_, ?_, ?_⟩
    · rw [List.append_nil]
      show _ = (_, w.withRealm r x)
      rw [withRealm_self w r x present]
      rfl
    · rw [List.append_nil, List.append_nil]
      exact copies
    · rwa [Raw.carried_nil, List.append_nil, ← List.append_nil lifted] at gains
  | cons raw raws ih =>
    cases depicts with
    | @cons v _ args _ depicted rest =>
      rw [Raw.carried_cons] at gains
      have next : Gains g t (raw.handle?.toList ++ (handlesOf lifted ++ Raw.carried raws))
          x.table := gains.of_count fun h => by
        simp only [List.count_append]
        omega
      obtain ⟨a, table, strings, frames, read, copy, more, same⟩ :=
        exec_liftGuest_depicted w x present owner t given heap v raw depicted _ next
      have kept (h : Handle) (member : h ∈ a.handles ++ (handlesOf lifted ++ Raw.carried raws)) :
          table.value? h = x.table.value? h := same h (more.count_pos h member)
      have left := depicts_of_same rest fun h listed =>
        kept h (List.mem_append_right _ (List.mem_append_right _ listed))
      have all : List.Forall₂ (Copies heap r table) (lifted ++ [a]) (before ++ [v]) := by
        refine List.rel_append (copies_of_same copies fun h listed => kept h ?_) (.cons copy .nil)
        exact List.mem_append_right _ (List.mem_append_left _ listed)
      have together : handlesOf (lifted ++ [a]) = handlesOf lifted ++ a.handles := by
        rw [handlesOf, List.flatMap_append, List.flatMap_singleton, handlesOf]
      have held : Gains g t (handlesOf (lifted ++ [a]) ++ Raw.carried raws) table :=
        more.of_count fun h => by
          simp only [together, List.count_append]
          omega
      obtain ⟨values, table', strings', frames', done, copies', gains'⟩ :=
        ih (lifted ++ [a]) (before ++ [v]) _ { x with table, lowered := strings, frames }
          (realm_withRealm w r x _ present) owner left all held
      refine ⟨a :: values, table', strings', frames', ?_, ?_, ?_⟩
      · rw [liftGuests, exec_bind, read, goOn_ok]
        rw [List.append_assoc, withRealm_withRealm] at done
        exact done
      · rwa [List.append_assoc, List.append_assoc] at copies'
      · rwa [List.append_assoc] at gains'

end Act

end Membrane
