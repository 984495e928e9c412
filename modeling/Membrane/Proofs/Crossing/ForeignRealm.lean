import Membrane.Proofs.Crossing.Arguments
import Membrane.Proofs.World.Heap
/-!
References of one realm as arguments of operations on another. A handle says nothing about the realm
it came from, and an operation reads it in the realm that it is on. So a reference reaches the host
as the value that it denotes exactly if that realm holds the same value at the same handle; it is
refused if the handle is not live there, and otherwise stands for a value that it does not denote.
-/

set_option autoImplicit false

namespace Membrane

/-- The value that a realm holds at a handle. What a reference denotes is held by its own realm. -/
def World.held? (w : World) (r : RealmId) (h : Handle) : Option Host.Value :=
  (w.realms[r]?).bind (·.table.value? h)

/-- The value that is denoted by a reference, in its own realm. -/
def World.denoted? (w : World) (ref : Guest.Ref) : Option Host.Value := w.held? ref.realm ref.handle

namespace Act

open World RefTable

variable {r : RealmId} {g : Host.Value}

theorem held?_of_present (w : World) (x : Realm) (present : w.realms[r]? = some x) (h : Handle) :
    w.held? r h = x.table.value? h := by
  rw [World.held?, present, Option.bind_some]

/-- A reference that is stored is read in the realm of the object that it is stored in. -/
theorem exec_putProperty_of_ref (target : Guest.Value) (h : Handle)
    (home : target.ref? = some ⟨r, h⟩) (name : String) (a : Guest.Value) (ref : Guest.Ref)
    (reference : a.ref? = some ref) (w : World) (x : Realm) (present : w.realms[r]? = some x)
    (owner : x.owner = w.here) (o : ObjectId) (object : x.table.get h = .ok (.object o)) :
    exec (putProperty target name a) w =
      match w.held? r ref.handle with
      | none => (.ok (.error (.invalidReference ref.handle .read)), w)
      | some v => (.ok (.ok ()), w.withProperty o name v) := by
  have borrowed : ∀ s, a ≠ .string s := by
    rintro s rfl
    cases reference
  rw [exec_putProperty_of_no_text target h home name a borrowed w x present owner o object,
    sight_of_ref a ref reference, get_eq, held?_of_present w x present]
  cases x.table.value? ref.handle <;> rfl

/-- A reference that is lowered for an import is read in the realm of the import. -/
theorem exec_lower_ref (ref : Guest.Ref) (w : World) (x : Realm) (present : w.realms[r]? = some x)
    (owner : x.owner = w.here) :
    exec (do
      match (← lower r (.ref ref)).asHandle with
      | .error e => return .error e
      | .ok h => read r h) w =
      (.ok (x.table.get ref.handle), w) := by
  have word : (Wire.ofHandle ref.handle).asHandle = .ok ref.handle :=
    congrArg Except.ok ref.handle.ofWire_toWire
  rw [exec_bind, lower, exec_pure, goOn_ok, word]
  exact exec_read w r x present owner ref.handle

/-- A reference as an argument of an operation on a realm: it is stored, passed to a call and lowered
for an import as what that realm holds at its handle, and refused if it holds nothing there. So it
reaches the host as the value that it denotes only if that realm happens to hold the same. -/
theorem reference_read_by_target (p : Performer) (w : World) (r : RealmId) (x : Realm)
    (g : Host.Value) (present : w.realms[r]? = some x) (owner : x.owner = w.here)
    (sound : x.table.Sound g) (target : Guest.Value) (h : Handle)
    (home : target.ref? = some ⟨r, h⟩) (o : ObjectId) (object : x.table.get h = .ok (.object o))
    (there : (w.heap.get? o).isSome) :
    (∀ (name : String) (a : Guest.Value) (ref : Guest.Ref), a.ref? = some ref →
      (w.held? r ref.handle = none → exec (putProperty target name a) w =
        (.ok (.error (.invalidReference ref.handle .read)), w)) ∧
      (∀ v, w.held? r ref.handle = some v → ∃ u,
        exec (putProperty target name a) w = (.ok (.ok ()), u) ∧ u.heap.property o name = v) ∧
      ∀ v, w.denoted? ref = some v →
        ((∃ u, exec (putProperty target name a) w = (.ok (.ok ()), u) ∧
          u.heap.property o name = v) ↔ w.held? r ref.handle = some v)) ∧
    (∀ (how : Reflection) (args : List Guest.Value), x.table.RoomFor args.length →
      ∃ raws made t, Prepared g x.table args raws made t ∧
        (∀ a ∈ args, ∀ ref, a.ref? = some ref → 0 < x.table.count ref.handle →
          t.sight a = x.table.get ref.handle) ∧
        exec (reflectGuest p target how args) w =
          match args.mapM t.sight with
          | .error e => exec (concluded r made (.error e)) (w.withRealm r { x with table := t })
          | .ok values => exec (do concluded r made (← finish r (← reflectObject p o how values)))
              (w.withRealm r { x with table := t })) ∧
    ∀ (ref : Guest.Ref) (u : World) (y : Realm), u.realms[r]? = some y → y.owner = u.here →
      exec (do
        match (← lower r (.ref ref)).asHandle with
        | .error e => return .error e
        | .ok k => read r k) u =
        (.ok (y.table.get ref.handle), u) := by
  refine ⟨fun name a ref reference => ?_, fun how args room => ?_, fun ref u y here mine =>
    exec_lower_ref ref u y here mine⟩
  · have stored := exec_putProperty_of_ref target h home name a ref reference w x present owner o
      object
    have kept : ∀ v, w.held? r ref.handle = some v → ∃ u,
        exec (putProperty target name a) w = (.ok (.ok ()), u) ∧ u.heap.property o name = v := by
      intro v held
      rw [held] at stored
      exact ⟨_, stored, w.heap.property_setProperty o name v there⟩
    refine ⟨fun dead => by rw [stored, dead], kept, fun v _ => ⟨?_, kept v⟩⟩
    rintro ⟨u, done, read⟩
    rw [stored] at done
    cases held : w.held? r ref.handle with
    | none =>
      rw [held] at done
      cases done
    | some v' =>
      rw [held] at done
      cases done
      rw [← read]
      exact congrArg some (w.heap.property_setProperty o name v' there).symm
  · obtain ⟨raws, made, t, prepared, _, done⟩ := exec_reflectGuest p target h home how args w x
      present owner sound (n := 0) (by rwa [Nat.zero_add]) o object
    refine ⟨raws, made, t, prepared, fun a _ ref reference live => ?_, done⟩
    rw [sight_of_ref a ref reference, get_congr _ (prepared.steady _ live)]

/-- A world with two realms on one thread. Each has given the handle 2 to an object of its own. -/
def twins : World :=
  { World.create .default with
    heap := ⟨#[.plain none, .plain none, .plain none, .plain none]⟩
    realms := #[
      ((Realm.create ⟨0⟩ 0 0 (.negotiate true) .dense 0).retain (.object 2)).2,
      ((Realm.create ⟨1⟩ 0 0 (.negotiate true) .dense 1).retain (.object 3)).2] }

/-- A reference to the object of the second realm is stored in the global object of the first: what
is read back is the object of the first. -/
theorem reference_read_by_target_of_twin :
    twins.denoted? ⟨1, ⟨2⟩⟩ = some (.object 3) ∧
      (∃ u, exec (putProperty (.object ⟨0, .globalObject⟩) "x" (.object ⟨1, ⟨2⟩⟩)) twins =
        (.ok (.ok ()), u) ∧ u.heap.property 0 "x" = .object 2) ∧
      ¬∃ u, exec (putProperty (.object ⟨0, .globalObject⟩) "x" (.object ⟨1, ⟨2⟩⟩)) twins =
        (.ok (.ok ()), u) ∧ u.heap.property 0 "x" = .object 3 := by
  have retained (root o : ObjectId) (other : root ≠ o) :
      ((create .dense (.object root)).retain (.object o)).2.value? ⟨2⟩ = some (.object o) := by
    have new : (create .dense (.object root)).lookup? (.object o) = none := by
      show ((∅ : Std.HashMap Host.Key Handle).insert (.object root) .globalObject)[
        Host.Key.object o]? = none
      simp [other]
    rw [retain_of_new _ new]
    rfl
  have denoted : twins.denoted? ⟨1, ⟨2⟩⟩ = some (.object 3) := retained 1 3 (by decide)
  have held : twins.held? 0 ⟨2⟩ = some (.object 2) := retained 0 2 (by decide)
  have sound := ((create_sound .dense (.object 0)).retain_lent (.object 2)
    (create_roomFor (n := 1) .dense (.object 0) (by decide))).1
  have root := (get_eq_ok_iff _ _).mpr sound.root
  obtain ⟨stored, _, _⟩ := reference_read_by_target outermost twins 0 _ (.object 0) rfl rfl sound
    (.object ⟨0, .globalObject⟩) .globalObject rfl 0 root rfl
  obtain ⟨_, kept, only⟩ := stored "x" (.object ⟨1, ⟨2⟩⟩) ⟨1, ⟨2⟩⟩ rfl
  refine ⟨denoted, kept _ held, fun misread => ?_⟩
  have same := (only _ denoted).mp misread
  rw [held] at same
  cases same

end Act

end Membrane
