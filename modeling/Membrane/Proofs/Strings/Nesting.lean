import Membrane.Proofs.Strings.Record
/-!
Imports that call one another. When the outermost call is over, each string that was lowered for it
has been given back once, by a read or with the frame that owned it. A read that found its string in
neither the innermost frame nor the pending list has given back one reference more: that of the
string, which its frame gives back again, or one that belongs to somebody else.
-/

set_option autoImplicit false

namespace Membrane

open Realm (Course)

namespace Import

/-- Calls another import with its own words. -/
def forwarding (name : String) : Import where
  holds := []
  run r args := .ask (.invokeImport r name args) fun word => .done (.ok word)

/-- Reads its first word as a string. -/
def reading : Import where
  holds := []
  run r args := match args with
    | .i32 n :: _ => .ask (.loadString r (.ofWire n)) fun _ => .done (.ok .void)
    | _ => .done (.ok .void)

end Import

namespace Act

open World

/-- What a call of an import, with all the calls inside it, does to the references of a realm. -/
theorem references_after_call (depth : Nat) (r : RealmId) (name : String) (args : List Wire)
    (w w' : World) (word : Wire) (x : Realm) (g : Host.Value) (present : w.realms[r]? = some x)
    (sound : x.table.Sound g)
    (called : exec (invokeImport (performer depth) r name args) w = (.ok word, w')) :
    (∃ t, Recorded r (performer (depth + 1)) (.request (.invokeImport r name args)) w t word w') ∧
      ∀ t, Recorded r (performer (depth + 1)) (.request (.invokeImport r name args)) w t word w' →
        x.table.RoomFor t.taken →
        ∃ y, w'.realms[r]? = some y ∧ y.frames = x.frames ∧ y.table.Sound g ∧
          ∀ h, y.table.lent h + x.lowered.count h + t.strayed h + t.lost h =
              x.table.lent h + y.lowered.count h + t.gained h + t.short h ∧
            (x.owed h + t.strayed h + t.lost h ≤ x.table.lent h → t.short h = 0) := by
  have run := (exec_request (performer (depth + 1)) (.invokeImport r name args) w).trans
    ((exec_perform_invokeImport (performer depth) r name args w).trans called)
  refine ⟨exists_recorded (depth + 1) _ w w' word x present run, fun t recorded room => ?_⟩
  obtain ⟨y, there, course⟩ := recorded.course x present
  obtain ⟨_, _, _, y', _, _, _, _, last, frames, _⟩ :=
    frames_of_call depth r name args w w' word x present called
  obtain rfl := Option.some.inj (there.symm.trans last)
  obtain ⟨kept, _, even⟩ := course.balanced (n := 0) sound room
  refine ⟨y, there, frames, kept, fun h => ⟨?_, course.short_eq_zero (n := 0) sound room h⟩⟩
  have even := even h
  simp only [Realm.owed, frames] at even
  omega

/-- An import hands its string on to another one, which reads it. The reference of its owner, who
has the same text, is given back with the frame. -/
theorem references_after_nested_read :
    Realm.shared.lowered = [Realm.sharedHandle] ∧
      Realm.shared.table.lent Realm.sharedHandle = 2 ∧
      ∃ w' y, exec (invokeImport (performer 2) 0 "f" [.ofHandle Realm.sharedHandle])
            (lone .shared [("f", .forwarding "g"), ("g", .reading)]) = (.ok .void, w') ∧
        w'.realms[0]? = some y ∧ y.lowered = [] ∧ y.table.lent Realm.sharedHandle = 0 := by
  obtain ⟨sound, room, idle, pending, two⟩ := Realm.shared_state
  refine ⟨pending, two, ?_⟩
  let imports := [("f", Import.forwarding "g"), ("g", Import.reading)]
  let word := Wire.ofHandle Realm.sharedHandle
  -- the import that reads runs in a frame of its own, which is empty
  let x := Realm.shared.openFrame.openFrame
  let z := x.read Realm.sharedHandle
  have unlisted : ¬ x.Lists Realm.sharedHandle := fun listed =>
    listed.elim List.not_mem_nil List.not_mem_nil
  have read := exec_perform_loadString (performer 0) (lone x imports) 0 x rfl rfl Realm.sharedHandle
  have inner : Recorded 0 (performer 1) (Import.reading.run 0 [word]) (lone x imports) _
      (.ok .void) (lone z imports) :=
    .direct (x := x) rfl (congrArg some (Tally.reading_of_unlisted x _ unlisted)) read (.done _ _)
  have nested := exec_perform_invokeImport_lone Realm.shared.openFrame imports (performer 1) rfl "g"
    [word] .reading rfl _ z inner.exec
  have outer : Recorded 0 (performer 2) ((Import.forwarding "g").run 0 [word])
      (lone Realm.shared.openFrame imports) _ (.ok .void) (lone z.closeFrame imports) :=
    .call (x := Realm.shared.openFrame) rfl rfl inner rfl nested (.done _ _)
  have called := exec_invokeImport_lone Realm.shared imports (performer 2) rfl "f" [word]
    (.forwarding "g") rfl _ z.closeFrame outer.exec
  have recorded : Recorded 0 (performer 3) (.request (.invokeImport 0 "f" [word]))
      (lone Realm.shared imports) _ Wire.void (lone z.closeFrame.closeFrame imports) :=
    .call (x := Realm.shared) rfl rfl outer rfl
      ((exec_perform_invokeImport (performer 2) 0 "f" [word] _).trans called) (.done _ _)
  obtain ⟨y, there, _, _, even⟩ := (references_after_call 2 0 "f" [word] _ _ _ Realm.shared
    (.object 0) rfl sound called).2 _ recorded (room.mono (Nat.zero_le _))
  have settled : y.lowered = [] := by
    obtain rfl : z.closeFrame.closeFrame = y := Option.some.inj there
    rw [Realm.closeFrame_lowered, Realm.closeFrame_lowered]
    show (x.read Realm.sharedHandle).lowered = []
    rw [Realm.read, x.claimLowered_of_unlisted _ unlisted, Realm.releaseQuietly_eq]
    rfl
  refine ⟨_, y, called, there, settled, ?_⟩
  obtain ⟨even, enough⟩ := even Realm.sharedHandle
  have owed : Realm.shared.owed Realm.sharedHandle = 1 := by
    rw [Realm.owed, pending, idle, List.count_singleton_self]
    rfl
  have strayed : min ((Handle.ofWire Realm.sharedHandle.toWire).only Realm.sharedHandle)
      (x.table.lent Realm.sharedHandle) = 1 :=
    congrArg₂ min (Handle.only_self Realm.sharedHandle) two
  simp only [Tally.followedBy, Tally.closing, Tally.none, Pi.add_apply, Pi.zero_apply, owed,
    pending, settled, two, strayed, List.count_singleton_self, List.count_nil] at even enough
  omega

end Act

end Membrane
