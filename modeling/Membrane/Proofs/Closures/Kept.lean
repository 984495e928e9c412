import Membrane.Proofs.Closures.Sealed
/-!
How long a realm knows a guest function. Without an explicit word it forgets a function only where weak
references are in use, and only once its function object is gone for good.
-/

set_option autoImplicit false

namespace Membrane

theorem ClosureTable.get?_without (t : ClosureTable) (id i : FunctionId) :
    (t.remove i).2.get? id = if id = i then none else t.get? id := by
  rw [get?, remove, without]
  have found := lookup_filter (fun j => j != i) t.entries id
  refine found.trans ?_
  by_cases same : id = i
  · simp [same]
  · simp [same, get?]

namespace World

/-- A realm knows a guest function under a number. -/
def Knows (w : World) (r : RealmId) (id : FunctionId) (g : Guest.Function) : Prop :=
  ∃ x, w.realms[r]? = some x ∧ x.closures.get? id = some g

/-- A realm knows no guest function under a number. -/
def Lost (w : World) (r : RealmId) (id : FunctionId) : Prop :=
  ∃ x, w.realms[r]? = some x ∧ x.closures.get? id = none

/-- An object is a function object of the guest function with a number. -/
def IsFunctionObject (w : World) (r : RealmId) (id : FunctionId) (o : ObjectId) : Prop :=
  ∃ y, w.heap.get? o = some y ∧ y.kind = .guestFunction r id

/-- A realm with weak references that lost a guest function for good: its function object was gone at
some time, and the world has been sealed off from it since. -/
def Gone (w : World) (hands : List Host.Value) (r : RealmId) (id : FunctionId) : Prop :=
  (∃ x, w.realms[r]? = some x ∧ x.features.weakRefs = true) ∧
    ∃ w₀ o, w₀.dead.objects o ∧ w₀.IsFunctionObject r id o ∧ Sealed w₀ w ∧
      ∀ v ∈ hands, w₀.dead.Lacks v

variable {w w' : World} {A B : List Host.Value} {r : RealmId} {id : FunctionId} {g : Guest.Function}
  {F : RealmId → FunctionId → Prop}

theorem Grows.lost (grows : Grows w w') (lost : w.Lost r id) : w'.Lost r id := by
  obtain ⟨x, present, none⟩ := lost
  obtain ⟨x', present, recalls⟩ := grows.realms r x present
  refine ⟨x', present, ?_⟩
  cases found : x'.closures.get? id with
  | none => rfl
  | some g =>
    have known := recalls.entries _ (mem_of_lookup found)
    have found := List.lookup_eq_none_iff.mp none _ known
    simp at found

theorem Grows.weak (grows : Grows w w')
    (weak : ∃ x, w.realms[r]? = some x ∧ x.features.weakRefs = true) :
    ∃ x, w'.realms[r]? = some x ∧ x.features.weakRefs = true := by
  obtain ⟨x, present, weak⟩ := weak
  obtain ⟨x', present, recalls⟩ := grows.realms r x present
  exact ⟨x', present, recalls.features ▸ weak⟩

theorem Gone.moves (gone : w.Gone A r id) (moves : Moves F A w B w') : w'.Gone B r id := by
  obtain ⟨weak, w₀, o, dead, function, shut, hands⟩ := gone
  obtain ⟨shut, hands⟩ := shut.moves hands moves
  exact ⟨moves.grows.weak weak, w₀, o, dead, function, shut, hands⟩

/-- A function object that was gone does not exist, and it is a function object still. -/
theorem Gone.not_exists (gone : w.Gone A r id) :
    ∃ o, w.IsFunctionObject r id o ∧ ¬w.Exists o := by
  obtain ⟨_, w₀, o, dead, ⟨y, there, kind⟩, shut, _⟩ := gone
  exact ⟨o, ⟨y, (shut.objects o dead).trans there, kind⟩, shut.not_exists dead⟩

/-- When what does not exist is forgotten, a guest function is known on unless its function object is
gone. -/
theorem Knows.sweep (attached : w.Attached) (knows : w.Knows r id g) :
    w.sweep.Knows r id g ∨ w.sweep.Gone [] r id := by
  obtain ⟨x, present, found⟩ := knows
  have kept := attached.holdsRealm present
  cases forgotten : w.isForgotten w.survivors r id with
  | false =>
    refine Or.inl ⟨_, realms_sweep_of_held kept present, ?_⟩
    refine (lookup_filter (fun i => !w.isForgotten w.survivors r i) x.closures.entries id).trans ?_
    rw [forgotten]
    exact found
  | true =>
    have not : ¬w.Remembers w.living x r id := fun remembers => by
      have known := (isForgotten_iff present id).mpr remembers
      rw [forgotten] at known
      cases known
    simp only [Remembers, not_forall] at not
    obtain ⟨weak, o, y, there, kind, gone⟩ := not
    have dead : w.dead.objects o := ⟨(Array.getElem?_eq_some_iff.mp there).1, gone⟩
    exact Or.inr ⟨(Grows.sweep w).weak ⟨x, present, weak⟩, w, o, dead, ⟨y, there, kind⟩,
      sealed_sweep attached, fun _ held => (List.not_mem_nil held).elim⟩

/-- A realm is replaced by one that knows the function if the old one did. -/
theorem Knows.withRealm {s : RealmId} {x y : Realm} (knows : w.Knows r id g)
    (present : w.realms[s]? = some x)
    (same : r = s → y.closures.get? id = x.closures.get? id) : (w.withRealm s y).Knows r id g := by
  obtain ⟨z, there, found⟩ := knows
  rw [Knows, realms_withRealm w s x y present]
  split
  · next here =>
    subst here
    obtain rfl := Option.some.inj (present.symm.trans there)
    exact ⟨y, rfl, (same rfl).trans found⟩
  · exact ⟨z, there, found⟩

/-- A guest function that may not be given up is known on unless its function object is gone. -/
theorem Moves.kept (moves : Moves F A w B w') (spared : ¬F r id) (attached : w.Attached)
    (knows : w.Knows r id g) : w'.Knows r id g ∨ w'.Gone B r id := by
  induction moves with
  | take | aside | pin | name | make | write | post | promise => exact Or.inl knows
  | trans first rest ih₁ ih₂ =>
    obtain knows | gone := ih₁ attached knows
    · exact ih₂ (attached.grows first.grows) knows
    · exact Or.inr (gone.moves rest)
  | turn present turns =>
    exact Or.inl (knows.withRealm present fun _ => by rw [turns.closures])
  | @forget A w s x i present allowed =>
    refine Or.inl (knows.withRealm present fun here => ?_)
    refine (x.closures.get?_without id i).trans (if_neg ?_)
    rintro rfl
    exact spared (here ▸ allowed)
  | sweep => exact Knows.sweep attached knows

end World

end Membrane
