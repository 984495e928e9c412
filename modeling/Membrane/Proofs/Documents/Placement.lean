import Mathlib.Data.List.Pairwise
import Membrane.Host.Json
import Membrane.Proofs.World.Heap
import Membrane.Proofs.Documents.Spread
/-!
A document that is stored as host values and read back comes out spread. Its objects are made one
after the other, so that each part of it has an interval of the heap to itself. What happens outside
of that interval does not change the part, and no object stands in two places.
-/

set_option autoImplicit false

namespace Membrane.Host

namespace Object

/-- Properties that are stored one after the other. -/
def stored (acc values : List (String × Value)) : List (String × Value) :=
  values.foldl (fun acc (n, v) => insertProperty n v acc) acc

theorem stored_last (acc values : List (String × Value)) (name : String) (v : Value) :
    stored acc (values ++ [(name, v)]) = insertProperty name v (stored acc values) :=
  List.foldl_append

/-- What a name leads to was stored under this name. -/
theorem mem_of_lookup_stored (values acc : List (String × Value)) (name : String) (v : Value)
    (found : (stored acc values).lookup name = some v) :
    (name, v) ∈ values ∨ acc.lookup name = some v := by
  induction values generalizing acc with
  | nil => exact .inr found
  | cons entry rest ih =>
    obtain ⟨n, u⟩ := entry
    rcases ih (insertProperty n u acc) found with later | here
    · exact .inl (List.mem_cons_of_mem _ later)
    · rw [lookup_insertProperty] at here
      split at here
      · next same =>
        obtain rfl := Option.some.inj here
        exact .inl (same ▸ List.mem_cons_self)
      · exact .inr here

end Object

namespace Heap

/-- What is reached from a value through the properties with the names given. -/
def follow (heap : Heap) : Value → List String → Option Value
  | v, [] => some v
  | .object id, name :: path =>
    ((heap.get? id).bind (·.properties.lookup name)).bind fun v => heap.follow v path
  | _, _ :: _ => none

/-- A value that is no object, and its document. -/
structure Leaf (v : Value) (j : Json) : Prop where
  noObject : v.object? = none
  unfolds : ∀ heap depth, unfold heap depth v = some j

/-- The values with the names given have the objects from `lo` up to `hi` to themselves, in the order
in which these were made, and the documents given are what they stand for. -/
inductive Lies (heap : Heap) :
    Nat → Nat → List (String × Value) → List (String × Json) → Prop
  | nil (lo : Nat) : Lies heap lo lo [] []
  | leaf {lo hi : Nat} {name : String} {v : Value} {j : Json} {values : List (String × Value)}
      {documents : List (String × Json)} :
      Leaf v j → Lies heap lo hi values documents →
      Lies heap lo hi ((name, v) :: values) ((name, j) :: documents)
  | node {lo mid hi : Nat} {name : String} {o : Object} {created values : List (String × Value)}
      {fields documents : List (String × Json)} :
      heap.get? lo = some o → o.kind.isCallable = false → o.properties = Object.stored [] created →
      Lies heap (lo + 1) mid created fields → Lies heap mid hi values documents →
      Lies heap lo hi ((name, .object lo) :: values) ((name, .ofFields fields) :: documents)

section

variable {heap after : Heap} {lo mid hi : Nat} {values others : List (String × Value)}
  {documents remaining : List (String × Json)}

theorem Lies.le (lies : Lies heap lo hi values documents) : lo ≤ hi := by
  induction lies with
  | nil => exact Nat.le_refl _
  | leaf _ _ ih => exact ih
  | node _ _ _ _ _ within behind => omega

theorem Lies.append (former : Lies heap lo mid values documents)
    (later : Lies heap mid hi others remaining) :
    Lies heap lo hi (values ++ others) (documents ++ remaining) := by
  induction former with
  | nil => exact later
  | leaf leaf _ ih => exact .leaf leaf (ih later)
  | node there plain properties within _ _ ih => exact .node there plain properties within (ih later)

/-- Only the objects of the interval matter. -/
theorem Lies.frame (lies : Lies heap lo hi values documents)
    (agree : ∀ id, lo ≤ id → id < hi → after.get? id = heap.get? id) :
    Lies after lo hi values documents := by
  induction lies with
  | nil => exact .nil _
  | leaf leaf _ ih => exact .leaf leaf (ih agree)
  | node there plain properties within behind inner outer =>
    have first := within.le
    have last := behind.le
    refine .node ?_ plain properties (inner fun id low high => agree id (by omega) (by omega))
      (outer fun id low high => agree id (by omega) high)
    rw [agree _ (Nat.le_refl _) (by omega), there]

/-- Names and documents that go with names and values. -/
abbrev Matches (read : Value → Option Json) :
    List (String × Value) → List (String × Json) → Prop :=
  List.Forall₂ fun p q => p.1 = q.1 ∧ read p.2 = some q.2

theorem Matches.insert {read : Value → Option Json} (before : Matches read values documents)
    {v : Value} {j : Json} (reads : read v = some j) (name : String) :
    Matches read (Object.insertProperty name v values) (Json.insertField name j documents) := by
  induction before with
  | nil => exact .cons ⟨rfl, reads⟩ .nil
  | @cons p q values documents first rest ih =>
    obtain ⟨n, u⟩ := p
    obtain ⟨k, i⟩ := q
    obtain ⟨rfl, same⟩ := first
    rw [Object.insertProperty, Json.insertField]
    split
    · exact .cons ⟨rfl, reads⟩ (.cons ⟨rfl, same⟩ rest)
    · split
      · exact .cons ⟨rfl, reads⟩ rest
      · exact .cons ⟨rfl, same⟩ ih

/-- Storing properties and gathering fields go together. -/
theorem Matches.stored {read : Value → Option Json} (all : Matches read others remaining)
    (before : Matches read values documents) :
    Matches read (Object.stored values others) (Json.gathered documents remaining) := by
  induction all generalizing values documents with
  | nil => exact before
  | @cons p q others remaining first rest ih =>
    obtain ⟨n, u⟩ := p
    obtain ⟨k, i⟩ := q
    obtain ⟨rfl, same⟩ := first
    exact ih (before.insert same n)

theorem Matches.mapM {read : Value → Option Json} (all : Matches read values documents) :
    values.mapM (fun p => (read p.2).map fun j => (p.1, j)) = some documents := by
  induction all with
  | nil => rfl
  | @cons p q values documents first rest ih =>
    obtain ⟨k, i⟩ := q
    obtain ⟨rfl, same⟩ := first
    rw [List.mapM_cons, same, ih]
    rfl

/-- A depth that the interval has room for is enough to read the documents back. -/
theorem Lies.unfolds (lies : Lies heap lo hi values documents) (depth : Nat)
    (enough : hi - lo ≤ depth) : Matches (heap.unfold depth) values documents := by
  induction lies generalizing depth with
  | nil => exact .nil
  | leaf leaf _ ih => exact .cons ⟨rfl, leaf.unfolds heap depth⟩ (ih depth enough)
  | @node lo mid hi name o created values fields documents there plain properties within behind
      inner outer =>
    have first := within.le
    have last := behind.le
    obtain ⟨depth, rfl⟩ : ∃ d, depth = d + 1 := ⟨depth - 1, by omega⟩
    have reads : (heap.unfold (depth + 1) (.object lo)) = some (.ofFields fields) := by
      have nothing : Matches (heap.unfold depth) [] [] := .nil
      have all := ((inner depth (by omega)).stored nothing).mapM
      rw [← properties] at all
      simp only [unfold, there, plain, Bool.false_eq_true, ↓reduceIte, all]
      rfl
    exact .cons ⟨rfl, reads⟩ (outer (depth + 1) (by omega))

/-- No object is reached from a value that is none. -/
theorem Leaf.follow_ne {v : Value} {j : Json} (leaf : Leaf v j) (path : List String)
    (id : ObjectId) : heap.follow v path ≠ some (.object id) := by
  have noObject := leaf.noObject
  intro reach
  cases path with
  | nil =>
    obtain rfl := Option.some.inj reach
    cases noObject
  | cons name path => cases v with
    | object => cases noObject
    | _ => cases reach

/-- From an object one reaches the object itself and what its properties lead to. -/
theorem follow_object {o : Object} {id reached : Nat} (there : heap.get? id = some o)
    (path : List String) (reach : heap.follow (.object id) path = some (.object reached)) :
    path = [] ∧ reached = id ∨
      ∃ name rest u, path = name :: rest ∧ o.properties.lookup name = some u ∧
        heap.follow u rest = some (.object reached) := by
  cases path with
  | nil =>
    cases reach
    exact .inl ⟨rfl, rfl⟩
  | cons name rest =>
    rw [follow, there] at reach
    obtain ⟨u, found, further⟩ := Option.bind_eq_some_iff.mp reach
    exact .inr ⟨name, rest, u, rfl, found, further⟩

/-- What is reached from the values lies in their interval. -/
theorem Lies.bounds (lies : Lies heap lo hi values documents) :
    ∀ p ∈ values, ∀ path (id : Nat), heap.follow p.2 path = some (.object id) →
      lo ≤ id ∧ id < hi := by
  induction lies with
  | nil => exact fun p mem => absurd mem List.not_mem_nil
  | leaf leaf _ ih =>
    intro p mem path id reach
    rcases List.mem_cons.mp mem with rfl | mem
    · exact absurd reach (leaf.follow_ne path id)
    · exact ih p mem path id reach
  | node there plain properties within behind inner outer =>
    have first := within.le
    have last := behind.le
    intro p mem path id reach
    rcases List.mem_cons.mp mem with rfl | mem
    · rcases follow_object there path reach with ⟨-, rfl⟩ | ⟨name, rest, u, rfl, found, further⟩
      · omega
      · rw [properties] at found
        rcases Object.mem_of_lookup_stored _ _ _ _ found with created | none
        · have := inner (name, u) created rest id further
          omega
        · cases none
    · have := outer p mem path id reach
      omega

/-- No object is reached from both values. -/
def Apart (heap : Heap) (p q : String × Value) : Prop :=
  ∀ path path' (id : Nat), heap.follow p.2 path = some (.object id) →
    heap.follow q.2 path' ≠ some (.object id)

instance (heap : Heap) : Std.Symm heap.Apart where
  symm _ _ apart path path' id reach reach' := apart path' path id reach' reach

/-- An object is reached from one of the values only, and in one way. -/
theorem Lies.unique (lies : Lies heap lo hi values documents) :
    values.Pairwise heap.Apart ∧
      ∀ p ∈ values, ∀ path path' (id : Nat), heap.follow p.2 path = some (.object id) →
        heap.follow p.2 path' = some (.object id) → path = path' := by
  induction lies with
  | nil => exact ⟨.nil, fun p mem => absurd mem List.not_mem_nil⟩
  | leaf leaf _ ih =>
    refine ⟨.cons (fun q mem path path' id reach => absurd reach (leaf.follow_ne path id)) ih.1, ?_⟩
    intro p mem path path' id reach
    rcases List.mem_cons.mp mem with rfl | mem
    · exact absurd reach (leaf.follow_ne path id)
    · exact ih.2 p mem path path' id reach
  | @node lo mid hi name o created values fields documents there plain properties within behind
      inner outer =>
    have alone : Lies heap lo mid [(name, .object lo)] [(name, .ofFields fields)] :=
      .node there plain properties within (.nil mid)
    refine ⟨.cons (fun q mem path path' id reach reach' => ?_) outer.1, ?_⟩
    · have := alone.bounds _ List.mem_cons_self path id reach
      have := behind.bounds q mem path' id reach'
      omega
    have child {n : String} {u : Value} (found : o.properties.lookup n = some u) :
        (n, u) ∈ created := by
      rw [properties] at found
      exact (Object.mem_of_lookup_stored _ _ _ _ found).resolve_right (by rintro ⟨⟩)
    intro p mem path path' id reach reach'
    rcases List.mem_cons.mp mem with rfl | mem
    · rcases follow_object there path reach with ⟨rfl, rfl⟩ | ⟨n, rest, u, rfl, found, further⟩ <;>
        rcases follow_object there path' reach' with
          ⟨rfl, same⟩ | ⟨n', rest', u', rfl, found', further'⟩
      · rfl
      · have := within.bounds _ (child found') rest' id further'
        omega
      · have := within.bounds _ (child found) rest id further
        omega
      · by_cases name : n = n'
        · subst name
          obtain rfl := Option.some.inj (found.symm.trans found')
          rw [inner.2 _ (child found) rest rest' id further further']
        · have different : (n, u) ≠ (n', u') := fun same => name (Prod.mk.inj same).1
          exact absurd further' (inner.1.forall (child found) (child found') different rest rest' id
            further)
    · exact outer.2 p mem path path' id reach reach'

end

section

variable (heap : Heap) (id : ObjectId)

theorem size_setProperty (name : String) (v : Value) :
    (heap.setProperty id name v).objects.size = heap.objects.size :=
  Array.size_modify

/-- The items of an array are stored as the fields with their places as keys. -/
theorem ofItems_eq (place : Nat) (items : List Json) :
    heap.ofItems id place items = heap.ofFields id (Json.indexed place items) := by
  induction items generalizing heap place with
  | nil => rfl
  | cons item rest ih =>
    rw [ofItems, Json.indexed, ofFields]
    exact ih _ (place + 1)

end

/-- A document becomes values that have the new objects to themselves; no other object changes. -/
structure Becomes (heap : Heap) (j : Json) : Prop where
  lies (name : String) :
    Lies (heap.ofJson j).2 heap.objects.size (heap.ofJson j).2.objects.size
      [(name, (heap.ofJson j).1)] [(name, j.spread)]
  kept (id : Nat) (there : id < heap.objects.size) : (heap.ofJson j).2.get? id = heap.get? id

/-- What the fields become that are stored in an object one after the other. -/
theorem ofFields_lies (heap : Heap) (id : Nat) (o : Object) (there : heap.get? id = some o)
    (fields : List (String × Json)) (each : ∀ p ∈ fields, ∀ heap : Heap, heap.Becomes p.2) :
    ∃ created,
      Lies (heap.ofFields id fields) heap.objects.size (heap.ofFields id fields).objects.size
        created (Json.spreadFields fields) ∧
      (heap.ofFields id fields).get? id =
        some { o with properties := Object.stored o.properties created } ∧
      ∀ other, other < heap.objects.size → other ≠ id →
        (heap.ofFields id fields).get? other = heap.get? other := by
  induction fields generalizing heap o with
  | nil => exact ⟨[], .nil _, there, fun _ _ _ => rfl⟩
  | cons entry rest ih =>
    obtain ⟨key, value⟩ := entry
    have first := each (key, value) List.mem_cons_self heap
    have inside : id < heap.objects.size := (Array.getElem?_eq_some_iff.mp there).1
    let v := (heap.ofJson value).1
    let made := (heap.ofJson value).2
    have grown : heap.objects.size ≤ made.objects.size := (first.lies key).le
    let next := made.setProperty id key v
    have size : next.objects.size = made.objects.size := made.size_setProperty id key v
    have here : next.get? id = some (o.set key v) := by
      rw [get?_setProperty, if_pos rfl, first.kept id inside, there]
      rfl
    have elsewhere (other : Nat) (apart : other ≠ id) : next.get? other = made.get? other := by
      rw [get?_setProperty, if_neg apart.symm]
    obtain ⟨created, lies, stored, kept⟩ :=
      ih next (o.set key v) here fun p mem => each p (List.mem_cons_of_mem _ mem)
    have whole : heap.ofFields id ((key, value) :: rest) = next.ofFields id rest := by
      rw [ofFields]
    rw [size] at lies kept
    refine ⟨(key, v) :: created, ?_, ?_, ?_⟩
    · rw [whole]
      refine Lies.append ((first.lies key).frame fun other low high => ?_) lies
      have apart : other ≠ id := by omega
      rw [kept other high apart, elsewhere other apart]
    · rw [whole, stored]
      rfl
    · intro other old apart
      rw [whole, kept other (by omega) apart, elsewhere other apart, first.kept other old]

/-- An object that is made and given fields. -/
theorem lies_object (heap : Heap) (className : Option String) (fields : List (String × Json))
    (each : ∀ p ∈ fields, ∀ heap : Heap, heap.Becomes p.2) :
    ∃ created o,
      o.kind.isCallable = false ∧ o.properties = Object.stored [] created ∧
      ((heap.alloc (.plain className)).2.ofFields heap.objects.size fields).get?
        heap.objects.size = some o ∧
      Lies ((heap.alloc (.plain className)).2.ofFields heap.objects.size fields)
        (heap.objects.size + 1)
        ((heap.alloc (.plain className)).2.ofFields heap.objects.size fields).objects.size
        created (Json.spreadFields fields) ∧
      ∀ other, other < heap.objects.size →
        ((heap.alloc (.plain className)).2.ofFields heap.objects.size fields).get? other =
          heap.get? other := by
  have here : (heap.alloc (.plain className)).2.get? heap.objects.size = some (.plain className) := by
    rw [get?_alloc, if_pos rfl]
  obtain ⟨created, lies, stored, kept⟩ := ofFields_lies _ _ _ here fields each
  have size : (heap.alloc (.plain className)).2.objects.size = heap.objects.size + 1 :=
    Array.size_push _
  rw [size] at lies kept
  refine ⟨created, _, rfl, ?_, stored, lies, fun other old => ?_⟩
  · rfl
  · rw [kept other (by omega) (by omega), get?_alloc, if_neg (Nat.ne_of_lt old)]

theorem becomes_leaf {heap : Heap} {j : Json} {v : Value} (made : heap.ofJson j = (v, heap))
    (leaf : Leaf v j.spread) : heap.Becomes j where
  lies name := by
    rw [made]
    exact .leaf leaf (.nil _)
  kept id _ := by rw [made]

theorem becomes_object (heap : Heap) (fields : List (String × Json))
    (ascending : Json.Ascending fields)
    (each : ∀ p ∈ fields, ∀ heap : Heap, heap.Becomes p.2) : heap.Becomes (.object fields) := by
  obtain ⟨created, o, plain, properties, there, lies, kept⟩ := lies_object heap none fields each
  have document : (Json.object fields).spread = .ofFields (Json.spreadFields fields) := by
    rw [Json.spread, Json.ofFields_ascending _ (Json.spreadFields_ascending ascending)]
  refine ⟨fun name => ?_, kept⟩
  rw [document]
  exact .node there plain properties lies (.nil _)

theorem mem_of_mem_indexed {place : Nat} {items : List Json} {p : String × Json}
    (mem : p ∈ Json.indexed place items) : p.2 ∈ items := by
  induction items generalizing place with
  | nil => exact absurd mem List.not_mem_nil
  | cons item rest ih =>
    rcases List.mem_cons.mp mem with rfl | mem
    · exact List.mem_cons_self
    · exact List.mem_cons_of_mem _ (ih mem)

theorem becomes_array (heap : Heap) (items : List Json) (length : items.length < 2 ^ 64)
    (each : ∀ item ∈ items, ∀ heap : Heap, heap.Becomes item) : heap.Becomes (.array items) := by
  let n : Number := .ofNat items.length
  let fields := Json.indexed 0 items
  have finite : n.isFinite = true :=
    Number.isFinite_ofRatio _ _ (Number.log2_small length (by decide))
  have leaf : Leaf (.number n) (.number (.real n)) :=
    ⟨rfl, fun _ _ => by rw [unfold, if_pos finite]⟩
  obtain ⟨created, o, plain, properties, there, lies, kept⟩ :=
    lies_object heap (some arrayClass) fields fun p mem => each p.2 (mem_of_mem_indexed mem)
  let filled := (heap.alloc (.plain (some arrayClass))).2.ofFields heap.objects.size fields
  let after := filled.setProperty heap.objects.size "length" (.number n)
  have made : heap.ofJson (.array items) = (.object heap.objects.size, after) := by
    rw [ofJson]
    exact congrArg _ (congrArg (setProperty · _ _ _) (ofItems_eq _ _ 0 items))
  have document : (Json.array items).spread =
      .ofFields (Json.spreadFields fields ++ [("length", .number (.real n))]) := by
    rw [Json.spread, Json.spreadItems_eq]
  have elsewhere (other : Nat) (apart : heap.objects.size ≠ other) :
      after.get? other = filled.get? other := by
    rw [get?_setProperty, if_neg apart]
  have here : after.get? heap.objects.size = some (o.set "length" (.number n)) := by
    rw [get?_setProperty, if_pos rfl, there]
    rfl
  have children : Lies after (heap.objects.size + 1) after.objects.size
      (created ++ [("length", .number n)])
      (Json.spreadFields fields ++ [("length", .number (.real n))]) := by
    rw [size_setProperty]
    exact (lies.frame fun other low _ => elsewhere other (by omega)).append (.leaf leaf (.nil _))
  constructor
  · intro name
    rw [made, document]
    refine .node here plain ?_ children (.nil _)
    rw [Object.stored_last, ← properties]
    rfl
  · intro other old
    rw [made, elsewhere other (by omega)]
    exact kept other old

mutual

/-- Every document becomes new objects of its own. -/
theorem becomes : (j : Json) → j.WellFormed → ∀ heap : Heap, heap.Becomes j
  | .null, _, _ => becomes_leaf rfl ⟨rfl, fun _ _ => by rw [unfold]; rfl⟩
  | .bool _, _, _ => becomes_leaf rfl ⟨rfl, fun _ _ => by rw [unfold]; rfl⟩
  | .number n, fits, _ => becomes_leaf rfl ⟨rfl, fun _ _ => by
    rw [unfold, if_pos (Numeral.isFinite_toNumber fits)]
    rfl⟩
  | .string _, _, _ => becomes_leaf rfl ⟨rfl, fun _ _ => by rw [unfold]; rfl⟩
  | .array items, fits, heap => becomes_array heap items fits.1 (becomes_items items fits.2)
  | .object fields, fits, heap => becomes_object heap fields fits.1 (becomes_fields fields fits.2)

theorem becomes_items : (items : List Json) → Json.ItemsWellFormed items →
    ∀ item ∈ items, ∀ heap : Heap, heap.Becomes item
  | [], _ => fun _ mem => absurd mem List.not_mem_nil
  | first :: rest, fits => fun item mem => by
    rcases List.mem_cons.mp mem with here | later
    · rw [here]
      exact becomes first fits.1
    · exact becomes_items rest fits.2 item later

theorem becomes_fields : (fields : List (String × Json)) → Json.FieldsWellFormed fields →
    ∀ p ∈ fields, ∀ heap : Heap, heap.Becomes p.2
  | [], _ => fun _ mem => absurd mem List.not_mem_nil
  | (key, value) :: rest, fits => fun p mem => by
    rcases List.mem_cons.mp mem with here | later
    · rw [here]
      exact becomes value fits.1
    · exact becomes_fields rest fits.2 p later

end

/-- A document that is made host values and read back is spread out: an array comes back with all
its items under their places and with its length. Its whole numbers are the nearest floating ones,
and the others are as they were. All that is reached from the values is new, nothing is reached in
two ways, and what was there before has not changed. -/
theorem toJson?_ofJson (heap : Heap) (j : Json) (wellFormed : j.WellFormed) :
    (heap.ofJson j).2.toJson? (heap.ofJson j).1 = some j.spread ∧
      (∀ items, ∃ fields, (Json.array items).spread = .object fields ∧ Json.Ascending fields ∧
        fields.Perm (Json.spreadItems 0 items ++
          [("length", .number (.real (.ofNat items.length)))])) ∧
      (∀ n : Int, -2 ^ 63 ≤ n → n < 2 ^ 64 → Number.Nearest n (Numeral.whole n).toNumber) ∧
      (∀ x : Number, (Numeral.real x).toNumber = x) ∧
      (∀ id : Nat, id < heap.objects.size → (heap.ofJson j).2.get? id = heap.get? id) ∧
      (∀ path (id : Nat), (heap.ofJson j).2.follow (heap.ofJson j).1 path = some (.object id) →
        heap.objects.size ≤ id ∧ id < (heap.ofJson j).2.objects.size) ∧
      ∀ path path' (id : Nat),
        (heap.ofJson j).2.follow (heap.ofJson j).1 path = some (.object id) →
        (heap.ofJson j).2.follow (heap.ofJson j).1 path' = some (.object id) → path = path' := by
  obtain ⟨lies, kept⟩ := becomes j wellFormed heap
  have alone := lies ""
  refine ⟨?_, Json.spread_array, fun n low high => ?_, fun x => rfl, kept, ?_, ?_⟩
  · have reads := alone.unfolds (heap.ofJson j).2.objects.size (Nat.sub_le _ _)
    cases reads with
    | cons first _ => exact first.2
  · have short : n.natAbs < 2 ^ 64 := by omega
    exact Number.ofInt_nearest n (Number.log2_small short (by decide))
  · exact alone.bounds _ List.mem_cons_self
  · exact alone.unique.2 _ List.mem_cons_self

/-- A number with more than 53 digits, and a list in a list. -/
def nested : Json :=
  .object [("count", .number (.whole (2 ^ 53 + 1))), ("list", .array [.null, .array []])]

theorem nested_wellFormed : nested.WellFormed := by
  refine ⟨.cons (fun p mem => ?_) (List.pairwise_singleton _ _), ?_⟩
  · rw [List.mem_singleton.mp mem]
    decide
  · simp [Json.FieldsWellFormed, Json.WellFormed, Json.ItemsWellFormed, Numeral.WellFormed]

theorem toJson?_ofJson_nested :
    (ofJson ⟨#[.plain none]⟩ nested).2.toJson? (ofJson ⟨#[.plain none]⟩ nested).1 =
      some (.object [("count", .number (.real (.ofInt (2 ^ 53 + 1)))),
        ("list", .object [("0", .null), ("1", .object [("length", .number (.real (.ofNat 0)))]),
          ("length", .number (.real (.ofNat 2)))])]) :=
  (toJson?_ofJson ⟨#[.plain none]⟩ nested nested_wellFormed).1

end Heap

end Membrane.Host
