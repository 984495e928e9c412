import Membrane.Proofs.Table.Lent
/-!
Who has the references of a realm: the guest behind references and as plain handles, the list of what
waits to be given back, and nobody, where references were dropped for good. The counts of the table
are the numbers of these, and each reference stands for the value that it was made for.
-/

set_option autoImplicit false

namespace Membrane.Ownership

open RefTable

/-- A reference that somebody has to give back, and the key of the value that it stands for. -/
structure Owned where
  handle : Handle
  key : Host.Key
deriving DecidableEq

/-- What came of the references that were taken and not given back. -/
structure Hands where
  /-- Held by the guest. -/
  held : List Owned
  /-- Turned into plain handles that somebody owns. -/
  raw : List Owned
  /-- The handles of those that were dropped and never noted. -/
  lost : List Handle

def Hands.empty : Hands := ⟨[], [], []⟩

/-- How many of some references are to a handle. -/
def references (os : List Owned) (h : Handle) : Nat := os.countP (·.handle = h)

/-- How many references to a handle were taken and not given back, given those that are noted. -/
def Hands.due (hands : Hands) (noted : List Handle) (h : Handle) : Nat :=
  references hands.held h + references hands.raw h + (noted.count h + hands.lost.count h)

def Hands.hold (hands : Hands) (o : Owned) : Hands := { hands with held := o :: hands.held }

def Hands.letGo (hands : Hands) (o : Owned) : Hands := { hands with held := hands.held.erase o }

/-- A reference that is held is dropped for good. -/
def Hands.lose (hands : Hands) (o : Owned) : Hands :=
  { hands with held := hands.held.erase o, lost := o.handle :: hands.lost }

def Hands.holdRaw (hands : Hands) (o : Owned) : Hands := { hands with raw := o :: hands.raw }

def Hands.letGoRaw (hands : Hands) (o : Owned) : Hands := { hands with raw := hands.raw.erase o }

/-- The value of a handle has the key. -/
def Stands (t : RefTable) (o : Owned) : Prop := ∃ v, t.value? o.handle = some v ∧ v.key = o.key

/-- The table of a realm holds the references that are due and one to the global object. -/
structure Balanced (x : Realm) (hands : Hands) : Prop where
  sound : x.table.Sound (.object x.globalObject)
  counted : ∀ h, x.table.count h = rooted h + hands.due x.finalizers h
  stands : ∀ o ∈ hands.held ++ hands.raw, Stands x.table o
  weak : x.features.weakRefs → hands.lost = []
  strong : x.features.weakRefs = false → x.finalizers = []

variable {x y : Realm} {hands hands' : Hands}

theorem references_cons (o : Owned) (os : List Owned) (h : Handle) :
    references (o :: os) h = references os h + o.handle.only h := by
  rw [references, List.countP_cons, Handle.only]
  simp only [decide_eq_true_eq, eq_comm (a := h), references]

/-- One of the references less. -/
theorem references_erase (o : Owned) (os : List Owned) (member : o ∈ os) (h : Handle) :
    references (os.erase o) h + o.handle.only h = references os h := by
  rw [← references_cons]
  exact ((List.perm_cons_erase member).countP_eq _).symm

theorem count_singleton (h k : Handle) : Multiset.count k {h} = h.only k := Multiset.count_singleton k h

theorem due_hold (o : Owned) (noted : List Handle) (h : Handle) :
    (hands.hold o).due noted h = hands.due noted h + o.handle.only h := by
  simp only [Hands.due, Hands.hold, references_cons]
  omega

theorem due_holdRaw (o : Owned) (noted : List Handle) (h : Handle) :
    (hands.holdRaw o).due noted h = hands.due noted h + o.handle.only h := by
  simp only [Hands.due, Hands.holdRaw, references_cons]
  omega

theorem due_letGo (o : Owned) (member : o ∈ hands.held) (noted : List Handle) (h : Handle) :
    (hands.letGo o).due noted h + o.handle.only h = hands.due noted h := by
  have less := references_erase o hands.held member h
  simp only [Hands.due, Hands.letGo]
  omega

theorem due_letGoRaw (o : Owned) (member : o ∈ hands.raw) (noted : List Handle) (h : Handle) :
    (hands.letGoRaw o).due noted h + o.handle.only h = hands.due noted h := by
  have less := references_erase o hands.raw member h
  simp only [Hands.due, Hands.letGoRaw]
  omega

/-- Everything that is left in the hands was there. -/
theorem mem_of_letGo (o p : Owned) (member : p ∈ (hands.letGo o).held ++ (hands.letGo o).raw) :
    p ∈ hands.held ++ hands.raw := by
  rcases List.mem_append.mp member with held | raw
  · exact List.mem_append_left _ (List.mem_of_mem_erase held)
  · exact List.mem_append_right _ raw

theorem mem_of_letGoRaw (o p : Owned)
    (member : p ∈ (hands.letGoRaw o).held ++ (hands.letGoRaw o).raw) :
    p ∈ hands.held ++ hands.raw := by
  rcases List.mem_append.mp member with held | raw
  · exact List.mem_append_left _ held
  · exact List.mem_append_right _ (List.mem_of_mem_erase raw)

theorem Balanced.due_pos (balanced : Balanced x hands) (o : Owned)
    (member : o ∈ hands.held ++ hands.raw) : rooted o.handle < x.table.count o.handle := by
  have positive : 0 < references (hands.held ++ hands.raw) o.handle := by
    refine List.countP_pos_iff.mpr ⟨o, member, ?_⟩
    exact decide_eq_true rfl
  rw [references, List.countP_append] at positive
  have counted := balanced.counted o.handle
  rw [Hands.due, references, references] at counted
  omega

/-- What the table gains and loses is due and no longer due. -/
theorem Balanced.shift {gain loss : Multiset Handle} (balanced : Balanced x hands)
    (features : y.features = x.features) (globalObject : y.globalObject = x.globalObject)
    (moved : Shift (.object x.globalObject) gain loss x.table y.table)
    (books : ∀ h, hands'.due y.finalizers h + loss.count h = hands.due x.finalizers h + gain.count h)
    (stands : ∀ o ∈ hands'.held ++ hands'.raw, o ∈ hands.held ++ hands.raw ∨ Stands y.table o)
    (weak : x.features.weakRefs → hands'.lost = [])
    (strong : x.features.weakRefs = false → y.finalizers = []) :
    Balanced y hands' := by
  have counted : ∀ h, y.table.count h = rooted h + hands'.due y.finalizers h := by
    intro h
    have counts := moved.counts h
    have before := balanced.counted h
    have change := books h
    omega
  rw [← features] at weak strong
  refine ⟨by rw [globalObject]; exact moved.sound, counted, ?_, weak, strong⟩
  intro o member
  rcases stands o member with former | new
  · obtain ⟨v, value, key⟩ := balanced.stands o former
    have before := balanced.due_pos o former
    have positive : 0 < references (hands'.held ++ hands'.raw) o.handle :=
      List.countP_pos_iff.mpr ⟨o, member, decide_eq_true rfl⟩
    rw [references, List.countP_append] at positive
    have after := counted o.handle
    rw [Hands.due, references, references] at after
    have steady := moved.steady o.handle (by omega) (by omega)
    exact ⟨v, steady.trans value, key⟩
  · exact new

theorem Balanced.retain (balanced : Balanced x hands) (v : Host.Value)
    (fits : (Call.retain v).Fits x.table) :
    Balanced (x.retain v).2 (hands.hold ⟨(x.retain v).1, v.key⟩) := by
  have moved := balanced.sound.shift_retain v fits
  refine balanced.shift rfl rfl moved (fun h => ?_) (fun o member => ?_) balanced.weak
    balanced.strong
  · rw [due_hold, count_singleton, Multiset.count_zero]
    rfl
  · rcases List.mem_cons.mp member with rfl | former
    · exact Or.inr (balanced.sound.value?_retain_within v fits).1
    · exact Or.inl former

/-- Another reference to a handle stands for the value that the handle stands for. -/
theorem Balanced.retainHandle (balanced : Balanced x hands) (o : Owned) (stands : Stands x.table o)
    (fits : (Call.retainHandle o.handle).Fits x.table) :
    ∃ t, x.retainHandle o.handle = .ok { x with table := t } ∧
      Balanced { x with table := t } (hands.hold o) := by
  obtain ⟨v, value, key⟩ := stands
  obtain ⟨e, live, rfl⟩ := Option.map_eq_some_iff.mp value
  have retained := retainHandle_of_live o.handle e live
  have moved := balanced.sound.shift_retainHandle o.handle fits retained
  refine ⟨_, by rw [Realm.retainHandle, retained]; rfl, ?_⟩
  refine balanced.shift rfl rfl moved (fun h => ?_) (fun p member => ?_) balanced.weak
    balanced.strong
  · rw [due_hold, count_singleton, Multiset.count_zero]
    rfl
  · rcases List.mem_cons.mp member with rfl | former
    · exact Or.inr ⟨e.value, (value?_recount _ e _ live _).trans value, key⟩
    · exact Or.inl former

theorem Balanced.release (balanced : Balanced x hands) (o : Owned)
    (member : o ∈ hands.held ++ hands.raw) (less : ∀ h, hands'.due x.finalizers h + o.handle.only h =
      hands.due x.finalizers h) (kept : ∀ p ∈ hands'.held ++ hands'.raw, p ∈ hands.held ++ hands.raw)
    (lost : hands'.lost = hands.lost) :
    ∃ t, x.release o.handle = .ok { x with table := t } ∧
      Balanced { x with table := t } hands' := by
  obtain ⟨t, released, moved⟩ := balanced.sound.shift_release o.handle (balanced.due_pos o member)
  refine ⟨t, by rw [Realm.release, released]; rfl, ?_⟩
  refine balanced.shift rfl rfl moved (fun h => ?_) (fun p left => Or.inl (kept p left)) ?_
    balanced.strong
  · rw [count_singleton, Multiset.count_zero]
    exact less h
  · rw [lost]
    exact balanced.weak

theorem Balanced.adopt (balanced : Balanced x hands) (o : Owned) (member : o ∈ hands.raw) :
    Balanced x ((hands.letGoRaw o).hold o) := by
  refine balanced.shift rfl rfl balanced.sound.shift_refl (fun h => ?_) (fun p left => Or.inl ?_)
    balanced.weak
    balanced.strong
  · rw [due_hold, due_letGoRaw o member]
  · rcases List.mem_cons.mp left with rfl | former
    · exact List.mem_append_right _ member
    · exact mem_of_letGoRaw o p former

theorem Balanced.disown (balanced : Balanced x hands) (o : Owned) (member : o ∈ hands.held) :
    Balanced x ((hands.letGo o).holdRaw o) := by
  refine balanced.shift rfl rfl balanced.sound.shift_refl (fun h => ?_) (fun p left => Or.inl ?_)
    balanced.weak
    balanced.strong
  · rw [due_holdRaw, due_letGo o member]
  · rcases List.mem_append.mp left with former | former
    · exact mem_of_letGo o p (List.mem_append_left _ former)
    · rcases List.mem_cons.mp former with rfl | raw
      · exact List.mem_append_left _ member
      · exact List.mem_append_right _ raw

/-- Where weak references are in use, a reference that is dropped is noted. -/
theorem Balanced.note (balanced : Balanced x hands) (o : Owned) (member : o ∈ hands.held)
    (weak : x.features.weakRefs) :
    Balanced (x.scheduleFinalizer o.handle).2 (hands.letGo o) := by
  refine balanced.shift rfl rfl balanced.sound.shift_refl (fun h => ?_)
    (fun p left => Or.inl (mem_of_letGo o p left)) balanced.weak
    (fun strong => by rw [weak] at strong; cases strong)
  have less := due_letGo o member x.finalizers h
  have more : (x.finalizers ++ [o.handle]).count h = x.finalizers.count h + o.handle.only h := by
    rw [List.count_append, Handle.count_cons, List.count_nil, Nat.zero_add]
  simp only [Hands.due, Realm.scheduleFinalizer, more, Multiset.count_zero] at less ⊢
  omega

/-- Where they are not, it stays with nobody. -/
theorem Balanced.lose (balanced : Balanced x hands) (o : Owned) (member : o ∈ hands.held)
    (strong : x.features.weakRefs = false) : Balanced x (hands.lose o) := by
  refine balanced.shift rfl rfl balanced.sound.shift_refl (fun h => ?_)
    (fun p left => Or.inl (mem_of_letGo o p left))
    (fun weak => by rw [weak] at strong; cases strong) balanced.strong
  have less := references_erase o hands.held member h
  simp only [Hands.due, Hands.lose, Handle.count_cons, Multiset.count_zero]
  omega

theorem Balanced.collect (balanced : Balanced x hands) : Balanced x.collect.2 hands := by
  rw [x.collect_eq]
  have moved := balanced.sound.shift_releaseAll x.finalizers x.table fun h => by
    have counted := balanced.counted h
    rw [Hands.due] at counted
    omega
  refine balanced.shift rfl rfl moved (fun h => ?_) (fun p left => Or.inl left) balanced.weak
    (fun _ => rfl)
  rw [Multiset.coe_count, Multiset.count_zero, Hands.due, Hands.due, List.count_nil]
  omega

theorem create_balanced (thread : ThreadIndex) (owner : ThreadId) (loop : LoopId)
    (features : Features) (layout : Layout) (globalObject : ObjectId) :
    Balanced (.create thread owner loop features layout globalObject) .empty := by
  have sound := create_sound layout (.object globalObject)
  refine ⟨sound, fun h => ?_, fun o member => ?_, fun _ => rfl, fun _ => rfl⟩
  · have counted := sound.count_eq_lent h
    rw [lent_create, Nat.zero_add] at counted
    exact counted
  · exact (List.not_mem_nil member).elim

end Membrane.Ownership
