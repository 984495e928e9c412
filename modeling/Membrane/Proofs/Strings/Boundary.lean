import Membrane.Proofs.Crossing.Meaning
import Membrane.Proofs.Strings.Calls
import Membrane.World.Entry
/-!
Texts as bytes at the entry points of generated code. Bytes become a text at a handle if they encode
one. The same bytes come back through a buffer of any size, and a buffer of their length is always
taken for the same text again.
-/

set_option autoImplicit false

namespace Membrane

theorem fromUTF8?_toUTF8 (text : String) : String.fromUTF8? text.toUTF8 = some text := by
  simp only [String.fromUTF8?, String.toUTF8_eq_toByteArray, dif_pos text.isValidUTF8]
  rfl

namespace Entry

theorem lengthStatus_of_short (n : Nat) (short : n < 2 ^ 31) : lengthStatus n = n := if_pos short

/-- A buffer after bytes were copied to its front. -/
def filled (buffer bytes : ByteArray) : ByteArray :=
  bytes ++ buffer.extract bytes.size buffer.size

/-- The front of a buffer holds what fits of the bytes, and the rest is untouched. -/
theorem filled_extract (buffer bytes : ByteArray) (i : Nat) :
    (filled buffer (bytes.extract 0 (min buffer.size bytes.size))).data[i]? =
      if i < min bytes.size buffer.size then bytes.data[i]? else buffer.data[i]? := by
  have copied : (bytes.extract 0 (min buffer.size bytes.size)).size =
      min bytes.size buffer.size := by
    rw [ByteArray.size_extract]
    omega
  rw [filled, copied, ByteArray.data_append, Array.getElem?_append, ByteArray.data_extract,
    ByteArray.data_extract, Array.getElem?_extract, Array.getElem?_extract]
  have front : (bytes.data.extract 0 (min buffer.size bytes.size)).size =
      min bytes.size buffer.size := by
    rw [← ByteArray.data_extract]
    exact copied
  have all : buffer.data.size = buffer.size := rfl
  have some : bytes.data.size = bytes.size := rfl
  rw [front, all, some]
  by_cases inside : i < min bytes.size buffer.size
  · rw [if_pos inside, if_pos inside, if_pos (by omega), Nat.zero_add]
  · rw [if_neg inside, if_neg inside]
    have back : min bytes.size buffer.size + (i - min bytes.size buffer.size) = i := by omega
    rw [back]
    split
    · rfl
    · rw [Array.getElem?_eq_none (by omega)]

end Entry

namespace Act

open World

/-- What becomes of a handle once its text was read: it is given back if it is live. -/
def giveBackRead (r : RealmId) (h : Handle) (decoded : Except Fault String) :
    Act (Except Fault String) := do
  if ← contains r h then
    match ← release r h with
    | .error e => return .error e
    | .ok () => return decoded
  else return decoded

/-- Reads a text in the steps in which it is done: as many bytes as it has are copied to a buffer and
taken for a text again. -/
def loadThroughBuffer (invalid : ByteArray → Fault) (r : RealmId) (h : Handle) :
    Act (Except Fault String) := do
  onRealm r fun x => ((), x.claimLowered h)
  let decoded ← match ← stringLength r h with
    | .error e => pure (.error e)
    | .ok length => match ← decodeString r h length with
      | .error e => pure (.error e)
      | .ok bytes => match String.fromUTF8? bytes with
        | some text => pure (.ok text)
        | none => pure (.error (invalid bytes))
  giveBackRead r h decoded

section

variable (w : World) (r : RealmId) (x : Realm) (present : w.realms[r]? = some x)
  (owner : x.owner = w.here)
include present owner

theorem exec_stringAt (h : Handle) :
    exec (stringAt r h) w = (.ok (x.stringAt w.heap.typeName h), w) := by
  simp only [stringAt, exec_bind, exec_assertOwner w r x present owner, goOn_ok, exec_get,
    exec_realm w r x present, exec_pure]

theorem exec_stringLength (h : Handle) :
    exec (stringLength r h) w = (.ok ((x.stringAt w.heap.typeName h).map (·.utf8ByteSize)), w) := by
  simp only [stringLength, exec_bind, exec_stringAt w r x present owner, goOn_ok, exec_pure]

theorem exec_decodeString (h : Handle) (room : Nat) :
    exec (decodeString r h room) w =
      (.ok ((x.stringAt w.heap.typeName h).map fun s =>
        s.toUTF8.extract 0 (min room s.utf8ByteSize)), w) := by
  simp only [decodeString, exec_bind, exec_stringAt w r x present owner, goOn_ok, exec_pure]

theorem exec_contains (h : Handle) :
    exec (contains r h) w = (.ok (x.table.contains h), w) := by
  simp only [contains, exec_bind, exec_assertOwner w r x present owner, goOn_ok,
    exec_realm w r x present, exec_pure]

end

/-- A handle that is live is given back without a fault. -/
theorem exec_giveBackRead (w : World) (r : RealmId) (x : Realm) (present : w.realms[r]? = some x)
    (owner : x.owner = w.here) (h : Handle) (decoded : Except Fault String) :
    exec (giveBackRead r h decoded) w = (.ok decoded, w.withRealm r (x.releaseQuietly h)) := by
  simp only [giveBackRead, exec_bind, exec_contains w r x present owner, goOn_ok]
  cases live : x.table.find? h with
  | none =>
    have same : x.releaseQuietly h = x := by
      rw [x.releaseQuietly_eq, RefTable.releaseQuietly, RefTable.release_of_dead h live]
    simp only [RefTable.contains_eq, live, Option.isSome_none, Bool.false_eq_true, ↓reduceIte,
      exec_pure, same, w.withRealm_self r x present]
  | some e =>
    obtain ⟨t, given⟩ : ∃ t, x.table.release h = .ok t := by
      simp only [RefTable.release, live]
      split <;> exact ⟨_, rfl⟩
    have released : x.release h = .ok { x with table := t } := by
      rw [Realm.release, given]
      rfl
    simp only [RefTable.contains_eq, live, Option.isSome_some, ↓reduceIte, exec_bind,
      exec_release w r x present owner, released, goOn_ok, exec_pure, Realm.releaseQuietly]

/-- A buffer of the length of a text holds all of it, so it is taken for that text again. -/
theorem exec_loadThroughBuffer (invalid : ByteArray → Fault) (r : RealmId) (h : Handle) (w : World) :
    exec (loadThroughBuffer invalid r h) w = exec (loadString r h) w := by
  cases there : w.realms[r]? with
  | none => simp only [loadThroughBuffer, loadString, onRealm, realm, fetch, exec_bind, exec_get,
      goOn_ok, there, exec_throw, goOn_error]
  | some x =>
    have claimed := realm_withRealm w r x (x.claimLowered h) there
    by_cases owner : x.owner = w.here
    · have stays : (x.claimLowered h).owner = (w.withRealm r (x.claimLowered h)).here :=
        (x.claimLowered_kept h).2.trans owner
      rw [exec_loadString w r x there owner, Realm.read]
      simp only [loadThroughBuffer, exec_bind, exec_onRealm w r x there, goOn_ok,
        exec_stringLength _ r _ claimed stays, stringAt_claimLowered]
      have names : (w.withRealm r (x.claimLowered h)).heap.typeName = w.heap.typeName := rfl
      rw [names]
      cases read : x.stringAt w.heap.typeName h with
      | error e =>
        simp only [Except.map, exec_bind, exec_pure, goOn_ok, exec_giveBackRead _ r _ claimed stays,
          withRealm_withRealm]
      | ok text =>
        have whole : text.toUTF8.extract 0 (min text.utf8ByteSize text.utf8ByteSize) =
            text.toUTF8 := by
          rw [Nat.min_self]
          exact ByteArray.extract_zero_size
        simp only [Except.map, exec_bind, exec_decodeString _ r _ claimed stays,
          stringAt_claimLowered, names, read, goOn_ok, whole, fromUTF8?_toUTF8, exec_pure,
          exec_giveBackRead _ r _ claimed stays, withRealm_withRealm]
    · have foreign : (x.claimLowered h).owner ≠ (w.withRealm r (x.claimLowered h)).here := by
        rw [(x.claimLowered_kept h).2]
        exact owner
      simp only [loadThroughBuffer, loadString, stringLength, stringAt, exec_bind,
        exec_onRealm w r x there, goOn_ok, exec_assertOwner_foreign _ r _ claimed foreign,
        goOn_error]

section

variable {w : World} {c : Context} {x : Realm} {g : Host.Value}
variable (present : w.realms[c.realm]? = some x) (owner : x.owner = w.here)
include present owner

section

variable (attached : w.current.lookup w.here = some c)
include attached

theorem exec_entry_stringLength (h : Handle) (text : String)
    (known : x.table.get h = .ok (.string text)) :
    exec (Entry.stringLength h) w = (.ok (Entry.lengthStatus text.toUTF8.size), w) := by
  have read := (x.stringAt_eq_ok_iff w.heap.typeName h text).mpr known
  simp only [Entry.stringLength, Entry.inRealm, exec_bind, exec_get, goOn_ok, attached,
    exec_stringLength w c.realm x present owner, read, Except.map, exec_pure]
  rfl

theorem exec_entry_decodeString (h : Handle) (text : String)
    (known : x.table.get h = .ok (.string text)) (size : Nat) (absent : Bool)
    (given : absent = true → size = 0) :
    exec (Entry.decodeString h size absent) w =
      (.ok (Entry.lengthStatus (min text.toUTF8.size size),
        text.toUTF8.extract 0 (min size text.toUTF8.size)), w) := by
  have read := (x.stringAt_eq_ok_iff w.heap.typeName h text).mpr known
  have room : (absent && size != 0) = false := by
    cases absent with
    | false => rfl
    | true => rw [given rfl]; rfl
  have copied : (text.toUTF8.extract 0 (min size text.utf8ByteSize)).size =
      min text.toUTF8.size size := by
    rw [ByteArray.size_extract, Nat.sub_zero]
    show min (min size text.toUTF8.size) text.toUTF8.size = _
    omega
  simp only [Entry.decodeString, room, Bool.false_eq_true, ↓reduceIte, Entry.inRealm, exec_bind,
    exec_get, goOn_ok, attached, exec_decodeString w c.realm x present owner, read, Except.map,
    exec_pure, copied]
  rfl

end

/-- What is not a text is not read, and the reference is given back all the same. -/
theorem exec_loadString_of_other (sound : x.table.Sound g) (k : Handle) (v : Host.Value)
    (other : k ≠ .globalObject) (known : x.table.get k = .ok v) (noText : ∀ s, v ≠ .string s) :
    ∃ z, exec (loadString c.realm k) w =
        (.ok (.error (.valueMismatch "string" (w.heap.typeName v))), w.withRealm c.realm z) ∧
      z.table.count k + 1 = x.table.count k ∧
      ∀ j, j ≠ k → z.table.count j = x.table.count j := by
  have live : 0 < x.table.count k := sound.count_pos_of_contains k (by
    obtain ⟨e, found, _⟩ := Option.map_eq_some_iff.mp ((RefTable.get_eq_ok_iff k v).mp known)
    rw [RefTable.contains_eq, found]
    rfl)
  obtain ⟨t, given, _, counts, _⟩ := sound.release k live
  have read : x.stringAt w.heap.typeName k = .error (.valueMismatch "string" (w.heap.typeName v)) := by
    rw [Realm.stringAt, known]
    cases v with
    | string s => exact absurd rfl (noText s)
    | undefined | null | bool | number | object => rfl
  have left : (x.read k).table = t := by
    rw [x.table_read, RefTable.releaseQuietly, given]
  refine ⟨x.read k, ?_, ?_, fun j apart => ?_⟩
  · rw [exec_loadString w c.realm x present owner, read]
  · rw [left, counts, if_pos rfl, RefTable.countAfterRelease, if_neg other]
    omega
  · rw [left, counts, if_neg apart]

end

/-- Bytes that generated code makes a text of, with a realm attached. The answer is a handle if the
bytes encode a text, and otherwise nothing has changed. At the handle their length and, through a
buffer of any size, their first bytes are found, the rest of the buffer being untouched. A read of the
handle has the same text and leaves every count as it was before the text was made; the step in which
its bytes are taken for a text never fails. At a handle that holds no text a read fails, and one
reference is given back just the same. -/
theorem bytes_come_back (w : World) (c : Context) (x : Realm) (g : Host.Value) (bytes : ByteArray)
    (attached : w.current.lookup w.here = some c) (present : w.realms[c.realm]? = some x)
    (owner : x.owner = w.here) (sound : x.table.Sound g) (short : bytes.size < 2 ^ 31)
    (fits : ∀ text : String, text.toUTF8 = bytes →
      (RefTable.Call.retain (.string text)).Fits x.table) :
    (∃ h w', exec (Entry.makeString (.present bytes)) w = (.ok h, w') ∧
      (h ≠ .invalid ↔ bytes.IsValidUTF8) ∧ (h = .invalid → w' = w) ∧
      ∀ text : String, text.toUTF8 = bytes →
        exec (Entry.stringLength h) w' = (.ok bytes.size, w') ∧
        (∀ (buffer : ByteArray) (absent : Bool), (absent = true → buffer.size = 0) →
          ∃ copied, exec (Entry.decodeString h buffer.size absent) w' =
              (.ok (((min bytes.size buffer.size : Nat) : Int), copied), w') ∧
            ∀ i : Nat, (Entry.filled buffer copied).data[i]? =
              if i < min bytes.size buffer.size then bytes.data[i]? else buffer.data[i]?) ∧
        ∃ y z, w'.realms[c.realm]? = some y ∧
          exec (loadString c.realm h) w' = (.ok (.ok text), w'.withRealm c.realm z) ∧
          (∀ k, y.table.count k = if k = h then x.table.count k + 1 else x.table.count k) ∧
          ∀ k, z.table.count k = x.table.count k) ∧
    (∀ invalid r k v, exec (loadThroughBuffer invalid r k) v = exec (loadString r k) v) ∧
    (∀ k v, k ≠ .globalObject → x.table.get k = .ok v → (∀ s, v ≠ .string s) →
      ∃ z, exec (loadString c.realm k) w =
          (.ok (.error (.valueMismatch "string" (w.heap.typeName v))), w.withRealm c.realm z) ∧
        z.table.count k + 1 = x.table.count k ∧
        ∀ j, j ≠ k → z.table.count j = x.table.count j) := by
  refine ⟨?_, exec_loadThroughBuffer, exec_loadString_of_other present owner sound⟩
  by_cases valid : bytes.IsValidUTF8
  · obtain ⟨text, rfl⟩ : ∃ text : String, text.toUTF8 = bytes := ⟨.fromUTF8 bytes valid, rfl⟩
    have fits := fits text rfl
    let y := (x.retain (.string text)).2
    let h := (x.retain (.string text)).1
    have made : exec (Entry.makeString (.present text.toUTF8)) w =
        (.ok h, w.withRealm c.realm y) := by
      simp only [Entry.makeString, Entry.Bytes.text?, fromUTF8?_toUTF8, Entry.inRealm, exec_bind,
        exec_get, goOn_ok, attached]
      exact exec_retain w c.realm x present owner _
    obtain ⟨kept, counts⟩ := sound.retain_within _ fits
    have there := realm_withRealm w c.realm x y present
    have known : y.table.get h = .ok (.string text) := by
      obtain ⟨⟨u, found, same⟩, _⟩ := sound.value?_retain_within _ fits
      rw [RefTable.eq_of_key u _ same (Or.inl ⟨text, rfl⟩)] at found
      exact (RefTable.get_eq_ok_iff _ _).mpr found
    have taken : h ≠ .invalid := by
      intro none
      have dead := kept.find?_invalid
      rw [none, RefTable.get] at known
      rw [show y.table.find? .invalid = Option.none from dead] at known
      cases known
    refine ⟨h, _, made, iff_of_true taken valid, fun none => absurd none taken, fun other same => ?_⟩
    obtain rfl : other = text := String.toByteArray_inj.mp same
    refine ⟨?_, fun buffer absent given => ⟨_, ?_, Entry.filled_extract buffer other.toUTF8⟩,
      y, y.read h, there, ?_, counts, fun k => ?_⟩
    · rw [exec_entry_stringLength (w := w.withRealm c.realm y) there owner attached h other known,
        Entry.lengthStatus_of_short _ short]
    · rw [exec_entry_decodeString (w := w.withRealm c.realm y) there owner attached h other known
        _ absent given,
        Entry.lengthStatus_of_short _ (lt_of_le_of_lt (Nat.min_le_left _ _) short)]
    · rw [exec_loadString _ c.realm y there owner,
        (y.stringAt_eq_ok_iff _ h other).mpr known]
    · rw [y.table_read]
      exact (sound.shift_retainFor _ fits).counts k
  · have none : Entry.Bytes.text? (.present bytes) = none := dif_neg valid
    have refused : exec (Entry.makeString (.present bytes)) w = (.ok .invalid, w) := by
      simp only [Entry.makeString, none, exec_pure]
    refine ⟨.invalid, w, refused, ?_, fun _ => rfl, fun text same => ?_⟩
    · exact iff_of_false (fun other => other rfl) valid
    · exact absurd (same ▸ text.isValidUTF8) valid

/-- A thread that is attached to a realm of its own. -/
def attachedAlone : World :=
  { World.create .default with
    realms := #[.create ⟨0⟩ 0 0 ⟨Features.weakFlag⟩ .dense 0]
    current := [(0, ⟨⟨0⟩, 0, 0, 0⟩)] }

/-- Bytes of a text of two characters in a buffer of two bytes, which cuts the second one off. -/
theorem bytes_come_back_cut :
    ∃ h w' copied, exec (Entry.makeString (.present "aß".toUTF8)) attachedAlone = (.ok h, w') ∧
      exec (Entry.decodeString h 2 false) w' = (.ok (2, copied), w') := by
  have sound := RefTable.create_sound .dense (.object 0)
  obtain ⟨⟨h, w', made, _, _, found⟩, _⟩ := bytes_come_back attachedAlone ⟨⟨0⟩, 0, 0, 0⟩
    (.create ⟨0⟩ 0 0 ⟨Features.weakFlag⟩ .dense 0) (.object 0) "aß".toUTF8 rfl rfl rfl sound
    (by decide) fun text _ => RefTable.create_fits .dense (.object 0) _
  obtain ⟨_, decoded, _⟩ := found "aß" rfl
  obtain ⟨copied, done, _⟩ := decoded ⟨#[0, 0]⟩ false (by decide)
  exact ⟨h, w', copied, made, done⟩

end Act

end Membrane
