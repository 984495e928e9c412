import Membrane.Proofs.World.Ownership
/-!
What the work on the table of a realm leaves of the realm.
-/

set_option autoImplicit false

namespace Membrane

/-- Gives a reference back where nobody looks at a failure. -/
def RefTable.releaseQuietly (t : RefTable) (h : Handle) : RefTable :=
  match t.release h with
  | .ok t' => t'
  | .error _ => t

/-- A realm after a value was retained for a receiver: if nobody waits, it is given back. -/
def Realm.retainFor (x : Realm) (ch : Channel (Except Fault Handle)) (v : Host.Value) : Realm :=
  if ch.isWaiting then (x.retain v).2 else (x.retain v).2.releaseQuietly (x.retain v).1

/-- What never changes of a realm. -/
structure Place where
  thread : ThreadIndex
  owner : ThreadId
  loop : LoopId
deriving DecidableEq

namespace Realm

def place (x : Realm) : Place := ⟨x.thread, x.owner, x.loop⟩

theorem map_eq_ok {ε α β : Type} (result : Except ε α) (f : α → β) (b : β)
    (done : result.map f = .ok b) : ∃ a, result = .ok a ∧ b = f a := by
  cases result with
  | error e => cases done
  | ok a =>
    cases done
    exact ⟨a, rfl, rfl⟩

variable (x : Realm)

theorem retainHandle_eq_ok (y : Realm) (h : Handle) (retained : x.retainHandle h = .ok y) :
    ∃ t, x.table.retainHandle h = .ok t ∧ y = { x with table := t } :=
  map_eq_ok _ _ y retained

theorem release_eq_ok (y : Realm) (h : Handle) (released : x.release h = .ok y) :
    ∃ t, x.table.release h = .ok t ∧ y = { x with table := t } :=
  map_eq_ok _ _ y released

theorem releaseQuietly_eq (h : Handle) :
    x.releaseQuietly h = { x with table := x.table.releaseQuietly h } := by
  unfold releaseQuietly release RefTable.releaseQuietly
  cases x.table.release h <;> rfl

theorem retainFor_eq (ch : Channel (Except Fault Handle)) (v : Host.Value) :
    x.retainFor ch v = { x with
      table := if ch.isWaiting then (x.table.retain v).2
        else (x.table.retain v).2.releaseQuietly (x.table.retain v).1 } := by
  unfold retainFor
  split
  · rfl
  · exact releaseQuietly_eq (x.retain v).2 _

/-- Gives one more handle back and counts it. -/
def giveBack (p : Nat × Realm) (h : Handle) : Nat × Realm :=
  match p.2.release h with
  | .ok r => (p.1 + 1, r)
  | .error _ => (p.1, p.2)

theorem giveBack_realm (p : Nat × Realm) (h : Handle) : (giveBack p h).2 = p.2.releaseQuietly h := by
  unfold giveBack releaseQuietly
  cases p.2.release h <;> rfl

theorem foldl_giveBack (hs : List Handle) (p : Nat × Realm) :
    (hs.foldl giveBack p).2 =
      { p.2 with table := hs.foldl RefTable.releaseQuietly p.2.table } := by
  induction hs generalizing p with
  | nil => rfl
  | cons h hs ih => rw [List.foldl_cons, ih, giveBack_realm, releaseQuietly_eq, List.foldl_cons]

/-- Collecting gives back one handle after the other. -/
theorem collect_eq :
    x.collect.2 = { x with
      table := x.finalizers.foldl RefTable.releaseQuietly x.table, finalizers := [] } :=
  foldl_giveBack x.finalizers (0, { x with finalizers := [] })

/-- Where nothing was noted, nothing is given back. -/
theorem collect_eq_self (empty : x.finalizers = []) : x.collect.2 = x := by
  rw [collect_eq, empty, List.foldl_nil, ← empty]

theorem place_retainHandle (y : Realm) (h : Handle) (retained : x.retainHandle h = .ok y) :
    y.place = x.place := by
  obtain ⟨t, _, rfl⟩ := x.retainHandle_eq_ok y h retained
  rfl

theorem place_release (y : Realm) (h : Handle) (released : x.release h = .ok y) :
    y.place = x.place := by
  obtain ⟨t, _, rfl⟩ := x.release_eq_ok y h released
  rfl

theorem place_retainFor (ch : Channel (Except Fault Handle)) (v : Host.Value) :
    (x.retainFor ch v).place = x.place := by
  rw [retainFor_eq]
  rfl

theorem place_collect : x.collect.2.place = x.place := by
  rw [collect_eq]
  rfl

end Realm

end Membrane
