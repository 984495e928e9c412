import Mathlib.Data.Multiset.AddSub
import Membrane.Proofs.Table.Accounts
import Membrane.Proofs.World.Realm
/-!
References that a table gains and loses. What is gained and what is lost is counted exactly as long
as nothing is given back that the table does not hold for somebody, and a handle that stays live
stands for the value that it stood for.
-/

set_option autoImplicit false

namespace Membrane.RefTable

/-- The reference that a table itself holds to a handle. -/
def rooted (h : Handle) : Nat := if h = .globalObject then 1 else 0

/-- A table has gained and lost references. -/
structure Shift (globalObject : Host.Value) (gain loss : Multiset Handle) (t t' : RefTable) :
    Prop where
  sound : t'.Sound globalObject
  counts : ∀ h, t'.count h + loss.count h = t.count h + gain.count h
  steady : ∀ h, 0 < t.count h → 0 < t'.count h → t'.value? h = t.value? h

variable {g : Host.Value} {t t' : RefTable}

theorem Sound.shift_refl (sound : t.Sound g) : Shift g 0 0 t t :=
  ⟨sound, fun _ => rfl, fun _ _ _ => rfl⟩

/-- What a retained value stands at, and that nothing else stands for anything new. -/
theorem Sound.value?_retain_within (sound : t.Sound g) (v : Host.Value)
    (fits : (Call.retain v).Fits t) :
    (∃ u, (t.retain v).2.value? (t.retain v).1 = some u ∧ u.key = v.key) ∧
      ∀ h, 0 < t.count h → (t.retain v).2.value? h = t.value? h := by
  have room (new : t.lookup? v = none) : t.slots.HasRoom := sound.hasRoom (fits.2 new)
  exact ⟨sound.value?_retain_self v room, sound.value?_retain v room⟩

theorem Sound.shift_retain (sound : t.Sound g) (v : Host.Value) (fits : (Call.retain v).Fits t) :
    Shift g {(t.retain v).1} 0 t (t.retain v).2 := by
  obtain ⟨kept, counts⟩ := sound.retain_within v fits
  refine ⟨kept, fun h => ?_, fun h live _ => ?_⟩
  · rw [counts h, Multiset.count_zero, Multiset.count_singleton]
    split <;> rfl
  · exact (sound.value?_retain_within v fits).2 h live

theorem Sound.shift_retainHandle (sound : t.Sound g) (h : Handle)
    (fits : (Call.retainHandle h).Fits t) (retained : t.retainHandle h = .ok t') :
    Shift g {h} 0 t t' := by
  cases live : t.find? h with
  | none =>
    rw [retainHandle_of_dead h live] at retained
    cases retained
  | some e =>
    have bound := fits e.refcount ((refcount?_eq_some_iff h _).mpr ⟨e, live, rfl⟩)
    have number := count_of_entry h e live
    obtain ⟨t'', done, kept, counts, values⟩ := sound.retainHandle h
      ((sound.count_pos_iff h).mpr (by rw [live]; rfl)) (by omega)
    obtain rfl := Except.ok.inj (done.symm.trans retained)
    refine ⟨kept, fun k => ?_, fun k _ _ => values k⟩
    rw [counts k, Multiset.count_zero, Multiset.count_singleton]
    split
    · next same => rw [same]
    · rfl

/-- A reference that the table does not need for itself is given back. -/
theorem Sound.shift_release (sound : t.Sound g) (h : Handle) (spare : rooted h < t.count h) :
    ∃ t', t.release h = .ok t' ∧ Shift g 0 {h} t t' := by
  obtain ⟨t', done, kept, counts, values⟩ := sound.release h (by omega)
  refine ⟨t', done, kept, fun k => ?_, fun k _ live => values k live⟩
  rw [counts k, Multiset.count_zero, Multiset.count_singleton]
  split
  · next same =>
    subst same
    unfold countAfterRelease
    unfold rooted at spare
    split
    · next root =>
      rw [if_pos root] at spare
      omega
    · next other =>
      rw [if_neg other] at spare
      omega
  · rfl

theorem Sound.shift_releaseQuietly (sound : t.Sound g) (h : Handle)
    (spare : rooted h < t.count h) : Shift g 0 {h} t (t.releaseQuietly h) := by
  obtain ⟨t', done, shift⟩ := sound.shift_release h spare
  rw [releaseQuietly, done]
  exact shift

/-- Giving back several references is giving back one after the other. -/
theorem Sound.shift_releaseAll (hs : List Handle) (t : RefTable) (sound : t.Sound g)
    (spare : ∀ h, hs.count h + rooted h ≤ t.count h) :
    Shift g 0 hs t (hs.foldl releaseQuietly t) := by
  induction hs generalizing t with
  | nil => exact sound.shift_refl
  | cons h hs ih =>
    have split : ∀ k, (h :: hs).count k = hs.count k + Multiset.count k {h} := by
      intro k
      rw [List.count_cons, Multiset.count_singleton]
      by_cases same : h = k
      · rw [if_pos (beq_iff_eq.mpr same), if_pos same.symm]
      · rw [if_neg (mt beq_iff_eq.mp same), if_neg (Ne.symm same)]
    have here := split h
    rw [Multiset.count_singleton_self] at here
    have first := sound.shift_releaseQuietly h (by
      have enough := spare h
      omega)
    have one : ∀ k, (t.releaseQuietly h).count k + Multiset.count k {h} = t.count k :=
      fun k => first.counts k
    have rest := ih (t.releaseQuietly h) first.sound fun k => by
      have enough := spare k
      rw [split k] at enough
      have left := one k
      omega
    have others : ∀ k, (hs.foldl releaseQuietly (t.releaseQuietly h)).count k + hs.count k =
        (t.releaseQuietly h).count k := by
      intro k
      have left := rest.counts k
      rwa [Multiset.coe_count, Multiset.count_zero, Nat.add_zero] at left
    refine ⟨rest.sound, fun k => ?_, fun k live last => ?_⟩
    · rw [List.foldl_cons, Multiset.coe_count, Multiset.count_zero, Nat.add_zero, split k,
        ← Nat.add_assoc, others k, one k]
    · have between : 0 < (t.releaseQuietly h).count k :=
        Nat.lt_of_lt_of_le last (Nat.le_of_add_right_le (Nat.le_of_eq (others k)))
      exact (rest.steady k between last).trans (first.steady k live between)

/-- A value that is retained and given back at once leaves no trace. -/
theorem Sound.shift_retainFor (sound : t.Sound g) (v : Host.Value)
    (fits : (Call.retain v).Fits t) :
    Shift g 0 0 t ((t.retain v).2.releaseQuietly (t.retain v).1) := by
  have taken := sound.shift_retain v fits
  have more : ∀ h, (t.retain v).2.count h = t.count h + Multiset.count h {(t.retain v).1} :=
    fun h => taken.counts h
  have root : rooted (t.retain v).1 ≤ t.count (t.retain v).1 := by
    unfold rooted
    split
    · next same =>
      rw [same]
      exact sound.count_globalObject_pos
    · exact Nat.zero_le _
  have here := more (t.retain v).1
  rw [Multiset.count_singleton_self] at here
  have given := taken.sound.shift_releaseQuietly (t.retain v).1 (by omega)
  have less : ∀ h, ((t.retain v).2.releaseQuietly (t.retain v).1).count h +
      Multiset.count h {(t.retain v).1} = (t.retain v).2.count h := fun h => given.counts h
  have same : ∀ h, ((t.retain v).2.releaseQuietly (t.retain v).1).count h = t.count h := by
    intro h
    have first := more h
    have second := less h
    omega
  refine ⟨given.sound, same, fun h live last => ?_⟩
  have between : 0 < (t.retain v).2.count h := by
    rw [more h]
    omega
  exact (given.steady h between last).trans (taken.steady h live between)

end Membrane.RefTable
