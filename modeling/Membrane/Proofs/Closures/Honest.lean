import Mathlib.Data.List.Basic
import Membrane.World.Existence
/-!
Code that makes nothing up. It names only objects that it was given and promises that it made. Numbers,
words and handles it may make up as it likes: whatever they stand for, no object is named by them.
-/

set_option autoImplicit false

namespace Membrane

/-- Whether a value can be named by who holds some values: objects have to be among them. -/
def Host.Value.IsKnown (known : List Host.Value) (v : Host.Value) : Prop :=
  v.object?.isSome → v ∈ known

theorem mem_of_lookup {α β : Type} [BEq α] [LawfulBEq α] {entries : List (α × β)} {a : α} {b : β}
    (found : entries.lookup a = some b) : (a, b) ∈ entries := by
  obtain ⟨before, after, split, _⟩ := List.lookup_eq_some_iff.mp found
  rw [split]
  exact List.mem_append_right before List.mem_cons_self

namespace Request

/-- The host values that a request names. -/
def named : Request → List Host.Value
  | property o _ => [.object o]
  | setProperty o _ v => [.object o, v]
  | typeName v | text v | retain _ v | adopt _ v => [v]
  | apply f this args => .object f :: this :: args
  | construct f args => .object f :: args
  | settleLater _ _ _ outcome => outcomeValues outcome
  | _ => []

/-- The promises that a request names. -/
def namedPromises : Request → List PromiseId
  | promiseObject p | settleLater _ p _ _ => [p]
  | _ => []

/-- The promises that an answer brings. -/
def made : (request : Request) → request.Answer → List PromiseId
  | newPromise _, p => [p]
  | _, _ => []

end Request

/-- Code that names only what it knows: the objects and promises that it begins with, and those that
answers bring. Of its result, it knows the values. -/
inductive Code.Honest {α : Type} (values : α → List Host.Value) :
    List Host.Value → List PromiseId → Code α → Prop
  | done {known : List Host.Value} {promises : List PromiseId} {a : α}
      (result : ∀ v ∈ values a, v.IsKnown known) : Honest values known promises (.done a)
  | ask {known : List Host.Value} {promises : List PromiseId} {request : Request}
      {next : request.Answer → Code α} (named : ∀ v ∈ request.named, v.IsKnown known)
      (held : ∀ p ∈ request.namedPromises, p ∈ promises)
      (rest : ∀ answer, Honest values (request.received answer ++ known)
        (request.made answer ++ promises) (next answer)) :
      Honest values known promises (.ask request next)

/-- The value that was thrown instead of a result. -/
def Code.thrown {α : Type} : Except Host.Value α → List Host.Value
  | .ok _ => []
  | .error v => [v]

/-- A host function that knows what its code refers to, its receiver and its arguments. -/
def Host.Function.Honest (f : Host.Function) : Prop :=
  ∀ this args, (f.run this args).Honest Request.outcomeValues (f.holds ++ this :: args) []

def Host.Constructor.Honest (c : Host.Constructor) : Prop :=
  ∀ args, (c.run args).Honest Request.outcomeValues (c.holds ++ args) []

/-- An import gets words only. -/
def Import.Honest (i : Import) : Prop :=
  ∀ r args, (i.run r args).Honest Code.thrown i.holds []

/-- A guest function gets guest values only. -/
def Guest.Function.Honest (f : Guest.Function) : Prop :=
  ∀ args, (f.run args).Honest Code.thrown f.holds []

/-- An object whose code is honest. -/
def Host.Kind.Honest : Host.Kind → Prop
  | .function f => f.Honest
  | .constructor c => c.Honest
  | _ => True

/-- The values that the code of an object refers to. -/
def Host.Kind.holds : Host.Kind → List Host.Value
  | .function f => f.holds
  | .constructor c => c.holds
  | _ => []

theorem Host.Object.mem_references_iff (o : Host.Object) (v : Host.Value) :
    v ∈ o.references ↔ (∃ name, (name, v) ∈ o.properties) ∨ v ∈ o.kind.holds := by
  have parts : o.references = o.properties.map (·.2) ++ o.kind.holds := by
    unfold references
    cases o.kind <;> rfl
  simp only [parts, List.mem_append, List.mem_map, Prod.exists, exists_eq_right]

theorem Host.Object.mem_insertProperty (name : String) (u : Host.Value)
    (properties : List (String × Host.Value)) (e : String × Host.Value)
    (held : e ∈ insertProperty name u properties) : e = (name, u) ∨ e ∈ properties := by
  induction properties with
  | nil => exact Or.inl (List.mem_singleton.mp held)
  | cons first rest ih =>
    unfold insertProperty at held
    split at held
    · exact List.mem_cons.mp held
    · split at held
      · exact (List.mem_cons.mp held).imp id (List.mem_cons_of_mem _)
      · obtain rfl | held := List.mem_cons.mp held
        · exact Or.inr List.mem_cons_self
        · exact (ih held).imp id (List.mem_cons_of_mem _)

/-- A property that is set is all that an object refers to beside what it referred to. -/
theorem Host.Object.mem_references_set (o : Host.Object) (name : String) (u v : Host.Value)
    (held : v ∈ (o.set name u).references) : v = u ∨ v ∈ o.references := by
  rw [mem_references_iff] at held ⊢
  obtain ⟨n, held⟩ | held := held
  · obtain same | held := mem_insertProperty name u o.properties (n, v) held
    · cases same
      exact Or.inl rfl
    · exact Or.inr (Or.inl ⟨n, held⟩)
  · exact Or.inr (Or.inr held)

namespace World

/-- All code that the world knows is honest. -/
structure Honest (w : World) : Prop where
  objects : ∀ o x, w.heap.get? o = some x → x.kind.Honest
  imports : ∀ name i, (name, i) ∈ w.runtime.imports → i.Honest
  closures : ∀ (r : RealmId) (x : Realm) (id : FunctionId) (f : Guest.Function),
    w.realms[r]? = some x → (id, f) ∈ x.closures.entries → f.Honest

end World

end Membrane
