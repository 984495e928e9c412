import Membrane.Proofs.Strings.Record
/-!
What the import that is called next owns. As long as no other call comes between, every string that
was lowered is there with its reference. A call that comes between owns whatever was pending, for
whichever call it was lowered, and leaves pending only what was lowered after it began.
-/

set_option autoImplicit false

namespace Membrane

/-- An import that looks at none of its words. -/
def Import.ignoring : Import where
  holds := []
  run _ _ := .done (.ok .void)

namespace Act

open World

variable {α : Type}

/-- The strings that an import owns when it begins, after any code that was run before. -/
theorem frame_of_next_call (depth : Nat) (r : RealmId) (c : Code α) (w w' : World) (a : α)
    (x : Realm) (g : Host.Value) (present : w.realms[r]? = some x) (sound : x.table.Sound g)
    (run : exec (c.exec (performer depth)) w = (.ok a, w')) :
    (∃ t, Recorded r (performer depth) c w t a w') ∧
      ∀ t, Recorded r (performer depth) c w t a w' →
        ∃ y, w'.realms[r]? = some y ∧
          ∀ h, (t.calls = 0 → t.claimed h = 0 →
              y.openFrame.innermost.count h = x.lowered.count h + t.lowered h) ∧
            (0 < t.calls → y.openFrame.innermost.count h ≤ t.lowered h) ∧
            (x.table.RoomFor t.taken → x.owed h + t.strayed h + t.lost h ≤ x.table.lent h →
              y.openFrame.innermost.count h ≤ y.table.lent h) := by
  refine ⟨exists_recorded depth c w w' a x present run, fun t recorded => ?_⟩
  obtain ⟨y, there, course⟩ := recorded.course x present
  refine ⟨y, there, fun h => ⟨course.pending_eq h, (course.pending h).2, fun room enough => ?_⟩⟩
  have none := course.short_eq_zero (n := 0) sound room h enough
  have even := (course.balanced (n := 0) sound room).2.2 h
  have pending : y.openFrame.innermost.count h ≤ y.owed h := Nat.le_add_right _ _
  omega

/-- A string is lowered and another import is called first: when its own comes, it is not there. -/
theorem frame_after_other_call :
    Realm.shared.lowered = [Realm.sharedHandle] ∧
      ∃ w' y, exec ((Code.request (.invokeImport 0 "g" [])).exec (performer 1))
            (lone .shared [("g", .ignoring)]) = (.ok Wire.void, w') ∧
        w'.realms[0]? = some y ∧ y.openFrame.innermost.count Realm.sharedHandle = 0 := by
  obtain ⟨sound, _, _, pending, _⟩ := Realm.shared_state
  refine ⟨pending, ?_⟩
  let imports := [("g", Import.ignoring)]
  have inside : Recorded 0 (performer 0) (Import.ignoring.run 0 [])
      (lone Realm.shared.openFrame imports) .none (.ok .void)
      (lone Realm.shared.openFrame imports) := .done _ _
  have called := exec_perform_invokeImport_lone .shared imports (performer 0) rfl "g" [] .ignoring
    rfl _ Realm.shared.openFrame inside.exec
  have recorded : Recorded 0 (performer 1) (.request (.invokeImport 0 "g" []))
      (lone .shared imports) _ Wire.void (lone Realm.shared.openFrame.closeFrame imports) :=
    .call (x := .shared) rfl rfl inside rfl called (.done _ _)
  obtain ⟨y, there, frame⟩ := (frame_of_next_call 1 0 (.request (.invokeImport 0 "g" [])) _ _ _
    .shared (.object 0) rfl sound recorded.exec).2 _ recorded
  have none := (frame Realm.sharedHandle).2.1 Nat.one_pos
  exact ⟨_, y, recorded.exec, there, Nat.le_zero.mp none⟩

end Act

end Membrane
