import Mathlib.Data.Finset.Card
import Mathlib.Logic.Relation
import Membrane.Proofs.Documents.Placement
/-!
Documents of any host values. Properties can be set to whatever there is, so the objects are a graph
in which one object may stand in many places, in itself too. Reading a document back unfolds this
graph. It ends where no object is reached from itself, and then shows at each place what is there.
-/

set_option autoImplicit false

namespace Membrane

namespace Json

/-- The part that is reached by one key after the other. -/
def at? : Json → List String → Option Json
  | j, [] => some j
  | j, name :: path => (j.field? name).bind fun part => at? part path

/-- A document with its keys, but without what stands under them. -/
def face : Json → Json
  | .object fields => .object (fields.map fun p => (p.1, .null))
  | j => j

end Json

namespace Host

namespace Object

/-- The names of the properties, each once and in ascending order. -/
def Ascending (o : Object) : Prop := o.keys.Pairwise (· < ·)

end Object

namespace Heap

section

variable {read : Value → Option Json} {values : List (String × Value)}
  {documents : List (String × Json)}

theorem Matches.names (all : Matches read values documents) :
    documents.map (·.1) = values.map (·.1) := by
  induction all with
  | nil => rfl
  | cons first _ ih => rw [List.map_cons, List.map_cons, first.1, ih]

theorem Matches.lookup (all : Matches read values documents) (name : String) :
    documents.lookup name = (values.lookup name).bind read := by
  induction all with
  | nil => rfl
  | @cons p q _ _ first _ ih =>
    obtain ⟨n, u⟩ := p
    obtain ⟨k, i⟩ := q
    obtain ⟨rfl, same⟩ := first
    rw [List.lookup_cons, List.lookup_cons]
    cases name == n with
    | true => exact same.symm
    | false => exact ih

theorem Matches.reads (all : Matches read values documents) {name : String} {u : Value}
    (stored : values.lookup name = some u) : ∃ i, read u = some i := by
  induction all with
  | nil => cases stored
  | @cons p q _ _ first _ ih =>
    obtain ⟨n, v⟩ := p
    rw [List.lookup_cons] at stored
    cases same : name == n with
    | true =>
      rw [same] at stored
      obtain rfl := Option.some.inj stored
      exact ⟨q.2, first.2⟩
    | false =>
      rw [same] at stored
      exact ih stored

theorem mapM_eq_some_iff :
    values.mapM (fun p => (read p.2).map fun j => (p.1, j)) = some documents ↔
      Matches read values documents := by
  refine ⟨fun done => ?_, Matches.mapM⟩
  induction values generalizing documents with
  | nil =>
    obtain rfl := Option.some.inj done
    exact .nil
  | cons p rest ih =>
    rw [List.mapM_cons] at done
    obtain ⟨q, first, done⟩ := Option.bind_eq_some_iff.mp done
    obtain ⟨others, later, done⟩ := Option.bind_eq_some_iff.mp done
    obtain ⟨j, reads, rfl⟩ := Option.map_eq_some_iff.mp first
    obtain rfl := Option.some.inj done
    exact .cons ⟨rfl, reads⟩ (ih later)

/-- Properties can be read if each of them can. -/
theorem exists_matches (each : ∀ p ∈ values, ∃ j, read p.2 = some j) :
    ∃ documents, Matches read values documents := by
  induction values with
  | nil => exact ⟨[], .nil⟩
  | cons p rest ih =>
    obtain ⟨j, reads⟩ := each p List.mem_cons_self
    obtain ⟨documents, others⟩ := ih fun q mem => each q (List.mem_cons_of_mem _ mem)
    exact ⟨(p.1, j) :: documents, .cons ⟨rfl, reads⟩ others⟩

end

/-- Heaps as host code makes them: objects of any kind, and properties set to any values. -/
inductive Built : Heap → Prop
  | empty : Built .empty
  | alloc {heap : Heap} (built : Built heap) (className : Option String) (kind : Kind) :
      Built (heap.alloc ⟨className, kind, []⟩).2
  | setProperty {heap : Heap} (built : Built heap) (id : ObjectId) (name : String) (v : Value) :
      Built (heap.setProperty id name v)

/-- Storing a property leaves the names in order, as it does in a document. -/
theorem ascending_set {o : Object} (ascending : o.Ascending) (name : String) (v : Value) :
    (o.set name v).Ascending := by
  let fields : List (String × Json) := o.properties.map fun p => (p.1, .null)
  have alike : Matches (fun _ => some .null) o.properties fields := by
    rw [Matches, List.forall₂_map_right_iff, List.forall₂_same]
    exact fun _ _ => ⟨rfl, rfl⟩
  have before : Json.Ascending fields := by
    rw [Json.ascending_iff, alike.names]
    exact ascending
  have after := Json.insertField_ascending name .null fields before
  rw [Json.ascending_iff, (alike.insert rfl name).names] at after
  exact after

theorem Built.ascending {heap : Heap} (built : heap.Built) :
    ∀ id o, heap.get? id = some o → o.Ascending := by
  induction built with
  | empty => exact fun _ _ found => by cases found
  | alloc _ className kind ih =>
    intro id o found
    rw [get?_alloc] at found
    split at found
    · obtain rfl := Option.some.inj found
      exact .nil
    · exact ih id o found
  | setProperty _ other name v ih =>
    intro id o found
    rw [get?_setProperty] at found
    split at found
    · obtain ⟨old, there, rfl⟩ := Option.map_eq_some_iff.mp found
      exact ascending_set (ih id old there) name v
    · exact ih id o found

/-- The object behind a value, unless it can be called. Its properties are unfolded. -/
def open? (heap : Heap) : Value → Option Object
  | .object id => (heap.get? id).filter fun o => !o.kind.isCallable
  | _ => none

/-- An object that is unfolded has the second value for a property. -/
def Holds (heap : Heap) (v u : Value) : Prop :=
  ∃ o name, heap.open? v = some o ∧ o.properties.lookup name = some u

/-- What is reached by one property after the other, none of them a property of a function. -/
def trace (heap : Heap) : Value → List String → Option Value
  | v, [] => some v
  | v, name :: path =>
    ((heap.open? v).bind (·.properties.lookup name)).bind fun u => heap.trace u path

/-- What a document shows of a value by itself: of an object the names of its properties, and null
for a function, for what is undefined and for a number that is not finite. -/
def face (heap : Heap) (v : Value) : Json :=
  match heap.open? v, v with
  | some o, _ => .object (o.keys.map fun name => (name, .null))
  | none, .bool b => .bool b
  | none, .number x => if x.isFinite then .number (.real x) else .null
  | none, .string s => .string s
  | none, _ => .null

section

variable (heap : Heap)

theorem open?_eq_some_iff (v : Value) (o : Object) : heap.open? v = some o ↔
    ∃ id, v = .object id ∧ heap.get? id = some o ∧ o.kind.isCallable = false := by
  cases v <;> simp [open?, Option.filter_eq_some_iff]

/-- What unfolding comes to: a value that is not opened has a document at any depth, an object has
one if all its properties have theirs one level below. -/
theorem unfold_eq_some_iff (depth : Nat) (v : Value) (j : Json) :
    heap.unfold depth v = some j ↔
      heap.open? v = none ∧ j = heap.face v ∨
      ∃ o below fields, heap.open? v = some o ∧ depth = below + 1 ∧
        Matches (heap.unfold below) o.properties fields ∧ j = .object fields := by
  cases isOpen : heap.open? v with
  | none =>
    have read : heap.unfold depth v = some (heap.face v) := by
      cases v with
      | object id =>
        have shown : heap.face (.object id) = .null := by simp only [face, isOpen]
        rw [shown]
        rw [open?, Option.filter_eq_none_iff] at isOpen
        cases found : heap.get? id with
        | none => cases depth <;> simp only [unfold, found]
        | some o =>
          have callable : o.kind.isCallable = true := by simpa using isOpen o found
          cases depth <;> simp only [unfold, found, callable, ↓reduceIte]
      | _ => cases depth <;> rfl
    rw [read]
    simp [eq_comm]
  | some o =>
    obtain ⟨id, rfl, found, plain⟩ := (heap.open?_eq_some_iff v o).mp isOpen
    cases depth with
    | zero => simp [unfold, found, plain]
    | succ depth =>
      simp only [unfold, found, plain, Bool.false_eq_true, ↓reduceIte, Option.map_eq_some_iff,
        mapM_eq_some_iff]
      constructor
      · rintro ⟨fields, all, rfl⟩
        exact .inr ⟨o, depth, fields, rfl, rfl, all, rfl⟩
      · rintro (⟨none, -⟩ | ⟨o', below, fields, same, level, all, rfl⟩)
        · cases none
        · obtain rfl := Option.some.inj same
          obtain rfl := Nat.succ.inj level
          exact ⟨fields, all, rfl⟩

end

section

open Relation (ReflTransGen TransGen)

variable {heap : Heap} {depth : Nat} {v u : Value} {j : Json}

/-- What an object holds is read one level below it. -/
theorem unfold_holds (read : heap.unfold depth v = some j) (holds : heap.Holds v u) :
    ∃ below i, depth = below + 1 ∧ heap.unfold below u = some i := by
  obtain ⟨o, name, isOpen, stored⟩ := holds
  obtain ⟨closed, -⟩ | ⟨_, below, fields, isOpen', level, all, -⟩ :=
    (heap.unfold_eq_some_iff depth v j).mp read
  · cases closed.symm.trans isOpen
  · obtain rfl := Option.some.inj (isOpen.symm.trans isOpen')
    obtain ⟨i, read⟩ := all.reads stored
    exact ⟨below, i, level, read⟩

/-- A document is the same at any greater depth. -/
theorem unfold_mono (read : heap.unfold depth v = some j) (more : Nat) :
    heap.unfold (depth + more) v = some j := by
  induction depth generalizing v j with
  | zero =>
    obtain ⟨closed, rfl⟩ | ⟨_, _, _, _, level, _⟩ := (heap.unfold_eq_some_iff 0 v j).mp read
    · exact (heap.unfold_eq_some_iff _ v _).mpr (.inl ⟨closed, rfl⟩)
    · cases level
  | succ depth ih =>
    obtain ⟨closed, rfl⟩ | ⟨o, below, fields, isOpen, level, all, rfl⟩ :=
      (heap.unfold_eq_some_iff _ v j).mp read
    · exact (heap.unfold_eq_some_iff _ v _).mpr (.inl ⟨closed, rfl⟩)
    · obtain rfl := Nat.succ.inj level
      refine (heap.unfold_eq_some_iff _ v _).mpr
        (.inr ⟨o, depth + more, fields, isOpen, Nat.succ_add _ _, ?_, rfl⟩)
      exact all.imp fun _ _ ⟨name, read⟩ => ⟨name, ih read⟩

/-- A depth that is enough for a value is enough for all that is reached from it. -/
theorem unfold_reach (read : heap.unfold depth v = some j) (reach : ReflTransGen heap.Holds v u) :
    ∃ i, heap.unfold depth u = some i := by
  induction reach with
  | refl => exact ⟨j, read⟩
  | tail _ holds ih =>
    obtain ⟨_, readHolder⟩ := ih
    obtain ⟨below, i, rfl, readHeld⟩ := unfold_holds readHolder holds
    exact ⟨i, unfold_mono readHeld 1⟩

/-- What is read at some depth does not reach itself: each step on the way takes one level. -/
theorem not_reaches_itself (read : heap.unfold depth v = some j) : ¬ TransGen heap.Holds v v := by
  induction depth generalizing v j with
  | zero =>
    intro loop
    obtain ⟨u, holds, _⟩ := TransGen.head'_iff.mp loop
    obtain ⟨_, _, level, _⟩ := unfold_holds read holds
    cases level
  | succ depth ih =>
    intro loop
    obtain ⟨u, holds, back⟩ := TransGen.head'_iff.mp loop
    obtain ⟨_, i, level, read⟩ := unfold_holds read holds
    obtain rfl := Nat.succ.inj level
    exact ih read (.tail' back holds)

open Classical in
/-- The objects that are unfolded on the way from a value. -/
noncomputable def within (heap : Heap) (v : Value) : Finset Nat :=
  (Finset.range heap.objects.size).filter fun id =>
    (heap.open? (.object id)).isSome ∧ ReflTransGen heap.Holds v (.object id)

theorem card_within_le (heap : Heap) (v : Value) : (heap.within v).card ≤ heap.objects.size := by
  classical
  rw [within]
  exact (Finset.card_filter_le _ _).trans (Finset.card_range _).le

theorem mem_within {id : Nat} : id ∈ heap.within v ↔
    (heap.open? (.object id)).isSome ∧ ReflTransGen heap.Holds v (.object id) := by
  classical
  rw [within, Finset.mem_filter, and_iff_right_of_imp]
  rintro ⟨isOpen, -⟩
  obtain ⟨o, isOpen⟩ := Option.isSome_iff_exists.mp isOpen
  obtain ⟨_, same, found, -⟩ := (heap.open?_eq_some_iff _ o).mp isOpen
  obtain rfl := Value.object.inj same
  obtain ⟨inside, -⟩ := Array.getElem?_eq_some_iff.mp found
  exact Finset.mem_range.mpr inside

/-- An object that does not reach itself has more objects to unfold than anything it holds. -/
theorem card_within_lt {id : Nat} (holds : heap.Holds (.object id) u)
    (acyclic : ¬ TransGen heap.Holds (.object id) (.object id)) :
    (heap.within u).card < (heap.within (.object id)).card := by
  obtain ⟨o, name, isOpen, stored⟩ := holds
  have holds : heap.Holds (.object id) u := ⟨o, name, isOpen, stored⟩
  refine Finset.card_lt_card (Finset.ssubset_iff_of_subset ?_ |>.mpr ⟨id, ?_, ?_⟩)
  · intro other mem
    obtain ⟨isOpen, reach⟩ := mem_within.mp mem
    exact mem_within.mpr ⟨isOpen, .head holds reach⟩
  · exact mem_within.mpr ⟨by rw [isOpen]; rfl, .refl⟩
  · intro mem
    exact acyclic (.head' holds (mem_within.mp mem).2)

/-- The depth that is needed is at most the number of objects to unfold. -/
theorem unfold_of_acyclic (built : heap.Built)
    (acyclic : ∀ u, ReflTransGen heap.Holds v u → ¬ TransGen heap.Holds u u)
    (enough : (heap.within v).card ≤ depth) : ∃ j, heap.unfold depth v = some j := by
  induction depth generalizing v with
  | zero =>
    cases isOpen : heap.open? v with
    | none => exact ⟨_, (heap.unfold_eq_some_iff 0 v _).mpr (.inl ⟨isOpen, rfl⟩)⟩
    | some o =>
      obtain ⟨id, rfl, -⟩ := (heap.open?_eq_some_iff v o).mp isOpen
      have here : id ∈ heap.within (.object id) := mem_within.mpr ⟨by rw [isOpen]; rfl, .refl⟩
      rw [Finset.card_eq_zero.mp (Nat.le_zero.mp enough)] at here
      cases here
  | succ depth ih =>
    cases isOpen : heap.open? v with
    | none => exact ⟨_, (heap.unfold_eq_some_iff _ v _).mpr (.inl ⟨isOpen, rfl⟩)⟩
    | some o =>
      obtain ⟨id, rfl, found, -⟩ := (heap.open?_eq_some_iff v o).mp isOpen
      have each : ∀ p ∈ o.properties, ∃ j, heap.unfold depth p.2 = some j := by
        intro p mem
        have holds : heap.Holds (.object id) p.2 :=
          ⟨o, p.1, isOpen, (lookup_eq_some_iff_mem (built.ascending id o found) _ _).mpr mem⟩
        have fewer := card_within_lt holds (acyclic _ .refl)
        exact ih (fun u reach => acyclic u (.head holds reach)) (by omega)
      obtain ⟨fields, all⟩ := exists_matches each
      refine ⟨.object fields, (heap.unfold_eq_some_iff _ _ _).mpr (.inr ?_)⟩
      exact ⟨o, depth, fields, isOpen, rfl, all, rfl⟩

theorem trace_reach {path : List String} (found : heap.trace v path = some u) :
    ReflTransGen heap.Holds v u := by
  induction path generalizing v with
  | nil =>
    obtain rfl := Option.some.inj found
    exact .refl
  | cons name path ih =>
    obtain ⟨next, stored, found⟩ := Option.bind_eq_some_iff.mp found
    obtain ⟨o, isOpen, stored⟩ := Option.bind_eq_some_iff.mp stored
    exact .head ⟨o, name, isOpen, stored⟩ (ih found)

/-- A document shows of a value what the value is by itself. -/
theorem face_unfold (read : heap.unfold depth v = some j) : j.face = heap.face v := by
  obtain ⟨closed, rfl⟩ | ⟨o, below, fields, isOpen, -, all, rfl⟩ :=
    (heap.unfold_eq_some_iff depth v j).mp read
  · cases v with
    | number x =>
      simp only [face, closed]
      split <;> rfl
    | _ => simp only [face, closed, Json.face]
  · have names := congrArg (List.map fun name => (name, Json.null)) all.names
    rw [List.map_map, List.map_map] at names
    simp only [face, isOpen, Json.face, Object.keys, List.map_map]
    exact congrArg Json.object names

/-- A part of a document is the document of what stands there. -/
theorem at?_unfold (read : heap.unfold depth v = some j) (path : List String) :
    j.at? path = (heap.trace v path).bind (heap.unfold depth) := by
  induction path generalizing v j with
  | nil => exact read.symm
  | cons name path ih =>
    obtain ⟨closed, rfl⟩ | ⟨o, below, fields, isOpen, rfl, all, rfl⟩ :=
      (heap.unfold_eq_some_iff depth v j).mp read
    · have noField : (heap.face v).field? name = none := by
        cases v with
        | number x =>
          simp only [face, closed]
          split <;> rfl
        | _ => simp only [face, closed, Json.field?]
      rw [Json.at?, noField, trace, closed]
      rfl
    · have part : (Json.object fields).field? name = _ := all.lookup name
      rw [Json.at?, part, trace, isOpen, Option.bind_some]
      cases stored : o.properties.lookup name with
      | none => rfl
      | some u =>
        obtain ⟨i, reads⟩ := all.reads stored
        rw [Option.bind_some, Option.bind_some, reads, Option.bind_some]
        exact ih (unfold_mono reads 1)

/-- Reading a value back ends if, and only if, no object that is reached from it through properties
of objects that cannot be called is reached from itself that way. A depth at which it ends makes no
difference. The document is the unfolded graph: at each place it shows what the value has there, the
names of the properties if it is an object, and an object that stands in several places is read in
full at each of them. -/
theorem toJson?_ends_iff_acyclic (heap : Heap) (v : Value) (built : heap.Built) :
    ((∃ depth j, heap.unfold depth v = some j) ↔
      ∀ u, ReflTransGen heap.Holds v u → ¬ TransGen heap.Holds u u) ∧
    (∀ depth j, heap.unfold depth v = some j → heap.toJson? v = some j) ∧
    ∀ j, heap.toJson? v = some j →
      (∀ path, (j.at? path).map Json.face = (heap.trace v path).map heap.face) ∧
      ∀ path u, heap.trace v path = some u → j.at? path = heap.toJson? u := by
  have acyclic {depth : Nat} {j : Json} (read : heap.unfold depth v = some j) (u : Value)
      (reach : ReflTransGen heap.Holds v u) : ¬ TransGen heap.Holds u u := by
    obtain ⟨i, read⟩ := unfold_reach read reach
    exact not_reaches_itself read
  have enough := card_within_le heap v
  refine ⟨⟨fun ⟨depth, j, read⟩ => acyclic read, fun no => ⟨_, unfold_of_acyclic built no enough⟩⟩,
    fun depth j read => ?_, fun j read => ⟨fun path => ?_, fun path u found => ?_⟩⟩
  · obtain ⟨i, done⟩ := unfold_of_acyclic built (acyclic read) enough
    have deeper := unfold_mono done depth
    rw [Nat.add_comm, unfold_mono read] at deeper
    rw [toJson?, done, deeper]
  · rw [at?_unfold read path]
    cases found : heap.trace v path with
    | none => rfl
    | some u =>
      obtain ⟨i, part⟩ := unfold_reach read (trace_reach found)
      rw [Option.bind_some, part]
      exact congrArg some (face_unfold part)
  · rw [at?_unfold read path, found]
    rfl

/-- An object that stands in another one twice, with what is not a number in it, and an object that
stands in itself. -/
def tangled : Heap :=
  let plain := (empty.alloc (.plain none)).2
  let three := ((plain.alloc (.plain none)).2.alloc (.plain none)).2
  (((three.setProperty 0 "n" (.number .nan)).setProperty 1 "left" (.object 0)).setProperty 1 "right"
    (.object 0)).setProperty 2 "self" (.object 2)

theorem toJson?_ends_iff_acyclic_tangled :
    tangled.toJson? (.object 1) = some (.object [("left", .object [("n", .null)]),
      ("right", .object [("n", .null)])]) ∧
    ¬ (∃ depth j, tangled.unfold depth (.object 2) = some j) := by
  have built : tangled.Built :=
    ((((((Built.empty.alloc none .plain).alloc none .plain).alloc none .plain).setProperty 0 "n"
      _).setProperty 1 "left" _).setProperty 1 "right" _).setProperty 2 "self" _
  have loop : tangled.Holds (.object 2) (.object 2) := ⟨_, "self", rfl, rfl⟩
  constructor
  · exact (toJson?_ends_iff_acyclic tangled (.object 1) built).2.1 2 _ rfl
  · rw [(toJson?_ends_iff_acyclic tangled (.object 2) built).1]
    exact fun no => no _ .refl (.single loop)

end

end Heap

end Host

end Membrane
