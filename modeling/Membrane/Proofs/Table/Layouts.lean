import Mathlib.Data.Option.Basic
import Mathlib.Data.List.Forall2
import Membrane.Proofs.Table.Twins
/-!
One program on two tables, each of any layout. A program speaks of handles by the retain that answered
them, and of none that went out of use since. Step by step the two runs answer the same but for the
handles, and the handles that they answer belong together.
-/

set_option autoImplicit false

namespace Membrane.RefTable

/-- How a program speaks of a handle. -/
inductive Name where
  | invalid
  | globalObject
  /-- The handle that a retain answered, the first one at place 0. -/
  | answered (place : Nat)
deriving DecidableEq, Repr

inductive Operation where
  | retain (v : Host.Value)
  | retainHandle (name : Name)
  | release (name : Name)
  | get (name : Name)
  | refcount (name : Name)
  | contains (name : Name)
  | lookup (v : Host.Value)
  | liveCount
deriving DecidableEq

inductive Answer where
  | handle (result : Except Fault Handle)
  | done (result : Except Fault Unit)
  | value (result : Except Fault Host.Value)
  | refcount (result : Option UInt32)
  | contains (result : Bool)
  | lookup (result : Option Handle)
  | liveCount (result : Nat)

/-- A table that a program works on. Of the handles that its retains answered those are known that
have been live ever since. -/
structure Usage where
  table : RefTable
  answered : List (Option Handle)

namespace Usage

def start (layout : Layout) (globalObject : Host.Value) : Usage := ⟨.create layout globalObject, []⟩

/-- The handle that a name stands for, as long as it may be used. -/
def handle? (u : Usage) : Name → Option Handle
  | .invalid => some .invalid
  | .globalObject => some .globalObject
  | .answered place => (u.answered[place]?).join

/-- The names of handles that are out of use are lost. -/
def settle (u : Usage) (t : RefTable) : Usage := ⟨t, u.answered.map (·.filter t.contains)⟩

/-- A value that has no handle needs one that is left. -/
def InRange (u : Usage) (v : Host.Value) : Prop :=
  u.table.lookup? v = none → u.table.liveCount ≤ 2 ^ 32 - 3

instance (u : Usage) (v : Host.Value) : Decidable (u.InRange v) :=
  inferInstanceAs (Decidable (_ → _))

/-- What an operation answers and leaves; nothing, if it speaks of a handle that is out of use or
needs one where none is left. -/
def step? (u : Usage) : Operation → Option (Answer × Usage)
  | .retain v =>
    if u.InRange v then
      let (h, t) := u.table.retain v
      some (.handle (.ok h), ⟨t, u.answered ++ [some h]⟩)
    else none
  | .retainHandle name => (u.handle? name).map fun h =>
    match u.table.retainHandle h with
    | .ok t => (.handle (.ok h), u.settle t)
    | .error e => (.handle (.error e), u)
  | .release name => (u.handle? name).map fun h =>
    match u.table.release h with
    | .ok t => (.done (.ok ()), u.settle t)
    | .error e => (.done (.error e), u)
  | .get name => (u.handle? name).map fun h => (.value (u.table.get h), u)
  | .refcount name => (u.handle? name).map fun h => (.refcount (u.table.refcount? h), u)
  | .contains name => (u.handle? name).map fun h => (.contains (u.table.contains h), u)
  | .lookup v => some (.lookup (u.table.lookup? v), u)
  | .liveCount => some (.liveCount u.table.liveCount, u)

/-- What a program answers and leaves, operation by operation. -/
def run? (u : Usage) : List Operation → Option (List (Answer × Usage))
  | [] => some []
  | op :: rest => do
    let (answer, v) ← u.step? op
    let more ← v.run? rest
    return (answer, v) :: more

end Usage

/-- Two answers that are equal but for the handles in them. -/
inductive Answer.Alike (partners : Handle → Handle → Prop) : Answer → Answer → Prop
  | handle {h k : Handle} (same : partners h k) : Alike partners (.handle (.ok h)) (.handle (.ok k))
  | refused (e : Fault) : Alike partners (.handle (.error e)) (.handle (.error e))
  | found {h k : Handle} (same : partners h k) :
    Alike partners (.lookup (some h)) (.lookup (some k))
  | unknown : Alike partners (.lookup none) (.lookup none)
  | done (result : Except Fault Unit) : Alike partners (.done result) (.done result)
  | value (result : Except Fault Host.Value) : Alike partners (.value result) (.value result)
  | refcount (result : Option UInt32) : Alike partners (.refcount result) (.refcount result)
  | contains (result : Bool) : Alike partners (.contains result) (.contains result)
  | liveCount (result : Nat) : Alike partners (.liveCount result) (.liveCount result)

/-- Two handles that a name may stand for, each in a table of its own. -/
def Spoken (s t : RefTable) (h k : Handle) : Prop :=
  Together s t h k ∨ h = .invalid ∧ k = .invalid

/-- What is held at handles that are spoken of is the same; they are equal where nothing is. -/
theorem Twins.find?_of_spoken {s t : RefTable} (twins : Twins s t) (h k : Handle)
    (spoken : Spoken s t h k) : s.find? h = t.find? k ∧ (s.find? h = none → h = k) := by
  rcases spoken with ⟨e, left, right⟩ | ⟨rfl, rfl⟩
  · rw [left, right]
    exact ⟨rfl, fun dead => by cases dead⟩
  · have left : s.find? .invalid = none := twins.left.slots.get?_invalid
    have right : t.find? .invalid = none := twins.right.slots.get?_invalid
    rw [left, right]
    exact ⟨rfl, fun _ => rfl⟩

theorem Twins.get_of_spoken {s t : RefTable} (twins : Twins s t) (h k : Handle)
    (spoken : Spoken s t h k) : s.get h = t.get k := by
  obtain ⟨same, equal⟩ := twins.find?_of_spoken h k spoken
  rw [get, get, ← same]
  cases live : s.find? h with
  | some e => rfl
  | none => rw [equal live]

theorem Answer.Alike.mono {r r' : Handle → Handle → Prop} {a b : Answer} (alike : Alike r a b)
    (weaker : ∀ h k, r h k → r' h k) : Alike r' a b := by
  cases alike with
  | handle same => exact .handle (weaker _ _ same)
  | refused e => exact .refused e
  | found same => exact .found (weaker _ _ same)
  | unknown => exact .unknown
  | done result => exact .done result
  | value result => exact .value result
  | refcount result => exact .refcount result
  | contains result => exact .contains result
  | liveCount result => exact .liveCount result

namespace Usage

/-- Twins of tables whose handles in use were answered at the same places. -/
structure Twins (u v : Usage) : Prop where
  tables : RefTable.Twins u.table v.table
  names : List.Forall₂ (Option.Rel (Together u.table v.table)) u.answered v.answered

/-- Two stages of a program that differ in the handles only. -/
structure Alike (u v : Usage) : Prop where
  tables : RefTable.Alike u.table v.table
  names : List.Forall₂ (Option.Rel (Partners u.table v.table)) u.answered v.answered

variable {u v : Usage}

theorem Twins.alike (twins : u.Twins v) : u.Alike v where
  tables := twins.tables.alike
  names := by
    have same : Partners u.table v.table = Together u.table v.table := by
      funext h k
      exact propext (twins.tables.partners_iff h k)
    rw [same]
    exact twins.names

theorem start_twins (layout layout' : Layout) (globalObject : Host.Value) :
    (start layout globalObject).Twins (start layout' globalObject) where
  tables := create_twins layout layout' globalObject
  names := .nil

/-- Names that are related are related at every place. -/
theorem rel_at_place {r : Handle → Handle → Prop} {names names' : List (Option Handle)}
    (all : List.Forall₂ (Option.Rel r) names names') (place : Nat) :
    Option.Rel r (names[place]?).join (names'[place]?).join := by
  induction all generalizing place with
  | nil => exact .none
  | cons first _ ih =>
    cases place with
    | zero => exact first
    | succ place => exact ih place

theorem Twins.exists_spoken (twins : u.Twins v) (name : Name) (h : Handle)
    (known : u.handle? name = some h) :
    ∃ k, v.handle? name = some k ∧ Spoken u.table v.table h k := by
  cases name with
  | invalid =>
    obtain rfl := Option.some.inj known
    exact ⟨.invalid, rfl, Or.inr ⟨rfl, rfl⟩⟩
  | globalObject =>
    obtain rfl := Option.some.inj known
    exact ⟨.globalObject, rfl, Or.inl twins.tables.root⟩
  | answered place =>
    have related := rel_at_place twins.names place
    have found : (u.answered[place]?).join = some h := known
    rw [found] at related
    show ∃ k, (v.answered[place]?).join = some k ∧ _
    generalize (v.answered[place]?).join = other at related ⊢
    cases related with
    | some together => exact ⟨_, rfl, Or.inl together⟩

/-- Handles that belong together go out of use together, and their names are lost in both. -/
theorem Twins.settle (twins : u.Twins v) {s t : RefTable} (kept : RefTable.Twins s t)
    (follows : ∀ h k, Together u.table v.table h k → s.find? h = t.find? k) :
    (u.settle s).Twins (v.settle t) := by
  refine ⟨kept, ?_⟩
  show List.Forall₂ (Option.Rel (Together s t)) (u.answered.map _) (v.answered.map _)
  rw [List.forall₂_map_left_iff, List.forall₂_map_right_iff]
  refine twins.names.imp ?_
  rintro _ _ (⟨together⟩ | _)
  case none => exact .none
  case some h k =>
    have same := follows h k together
    cases live : s.find? h with
    | none =>
      have left : s.contains h = false := by rw [contains_eq, live]; rfl
      have right : t.contains k = false := by rw [contains_eq, ← same, live]; rfl
      rw [Option.filter_some_neg left, Option.filter_some_neg right]
      exact .none
    | some e =>
      have left : s.contains h := by rw [contains_eq, live]; rfl
      have right : t.contains k := by rw [contains_eq, ← same, live]; rfl
      rw [Option.filter_some_pos left, Option.filter_some_pos right]
      exact .some ⟨e, live, same ▸ live⟩

theorem Twins.inRange (twins : u.Twins v) (x : Host.Value) (inRange : u.InRange x) :
    v.InRange x := by
  intro unknown
  have few := inRange ((twins.tables.lookup?_isNone x).mpr unknown)
  rwa [twins.tables.size] at few

theorem step?_retain (u : Usage) (x : Host.Value) (inRange : u.InRange x) :
    u.step? (.retain x) = some (.handle (.ok (u.table.retain x).1),
      ⟨(u.table.retain x).2, u.answered ++ [some (u.table.retain x).1]⟩) := by
  rw [step?, if_pos inRange]

theorem step?_release (u : Usage) (name : Name) (h : Handle) (t : RefTable)
    (known : u.handle? name = some h) (released : u.table.release h = .ok t) :
    u.step? (.release name) = some (.done (.ok ()), u.settle t) := by
  rw [step?, known, Option.map_some, released]

theorem Twins.retain (twins : u.Twins v) (x : Host.Value) (inRange : u.InRange x) :
    Twins ⟨(u.table.retain x).2, u.answered ++ [some (u.table.retain x).1]⟩
        ⟨(v.table.retain x).2, v.answered ++ [some (v.table.retain x).1]⟩ ∧
      Together (u.table.retain x).2 (v.table.retain x).2 (u.table.retain x).1
        (v.table.retain x).1 := by
  obtain ⟨kept, together, stay⟩ := twins.tables.retain x inRange
  refine ⟨⟨kept, ?_⟩, together⟩
  have former := twins.names.imp fun a b related => by
    cases related with
    | some both => exact Option.Rel.some (stay _ _ both)
    | none => exact Option.Rel.none
  exact List.rel_append former (.cons (.some together) .nil)

/-- An operation that reads at a name answers alike and leaves everything as it was. -/
theorem Twins.read (twins : u.Twins v) (name : Name) (answer : RefTable → Handle → Answer)
    (same : ∀ h k, Spoken u.table v.table h k →
      (answer u.table h).Alike (Together u.table v.table) (answer v.table k))
    (a : Answer) (u' : Usage)
    (done : (u.handle? name).map (fun h => (answer u.table h, u)) = some (a, u')) :
    ∃ b v', (v.handle? name).map (fun k => (answer v.table k, v)) = some (b, v') ∧ u'.Twins v' ∧
      a.Alike (Together u'.table v'.table) b := by
  obtain ⟨h, known, equal⟩ := Option.map_eq_some_iff.mp done
  obtain ⟨k, known', spoken⟩ := twins.exists_spoken name h known
  cases equal
  exact ⟨_, _, by rw [known', Option.map_some], twins, same h k spoken⟩

theorem Twins.step_retainHandle (twins : u.Twins v) (name : Name) (a : Answer) (u' : Usage)
    (done : u.step? (.retainHandle name) = some (a, u')) :
    ∃ b v', v.step? (.retainHandle name) = some (b, v') ∧ u'.Twins v' ∧
      a.Alike (Together u'.table v'.table) b := by
  obtain ⟨h, known, equal⟩ := Option.map_eq_some_iff.mp done
  obtain ⟨k, known', spoken⟩ := twins.exists_spoken name h known
  rw [step?, known', Option.map_some]
  rcases spoken with together | ⟨rfl, rfl⟩
  · obtain ⟨s, t, left, right, kept, both, follows⟩ := twins.tables.retainHandle h k together
    rw [left] at equal
    cases equal
    rw [right]
    exact ⟨_, _, rfl, twins.settle kept follows, .handle both⟩
  · rw [retainHandle_of_dead _ twins.tables.left.slots.get?_invalid] at equal
    cases equal
    rw [retainHandle_of_dead _ twins.tables.right.slots.get?_invalid]
    exact ⟨_, _, rfl, twins, .refused _⟩

theorem Twins.step_release (twins : u.Twins v) (name : Name) (a : Answer) (u' : Usage)
    (done : u.step? (.release name) = some (a, u')) :
    ∃ b v', v.step? (.release name) = some (b, v') ∧ u'.Twins v' ∧
      a.Alike (Together u'.table v'.table) b := by
  obtain ⟨h, known, equal⟩ := Option.map_eq_some_iff.mp done
  obtain ⟨k, known', spoken⟩ := twins.exists_spoken name h known
  rcases spoken with together | ⟨rfl, rfl⟩
  · obtain ⟨s, t, left, right, kept, follows⟩ := twins.tables.release h k together
    rw [step?_release u name h s known left] at done
    cases done
    exact ⟨_, _, step?_release v name k t known' right, twins.settle kept follows, .done _⟩
  · rw [step?, known', Option.map_some]
    rw [release_of_dead _ twins.tables.left.slots.get?_invalid] at equal
    cases equal
    rw [release_of_dead _ twins.tables.right.slots.get?_invalid]
    exact ⟨_, _, rfl, twins, .done _⟩

theorem Twins.lookup (twins : u.Twins v) (x : Host.Value) :
    (Answer.lookup (u.table.lookup? x)).Alike (Together u.table v.table)
      (.lookup (v.table.lookup? x)) := by
  have left := twins.tables.left.lookup?_eq_some_iff x
  have right := twins.tables.right.lookup?_eq_some_iff x
  cases known : u.table.lookup? x with
  | none =>
    rw [(twins.tables.lookup?_isNone x).mp known]
    exact .unknown
  | some h =>
    obtain ⟨e, live, key⟩ := (left h).mp known
    obtain ⟨k, d, one, other⟩ := twins.tables.exists_right h (by rw [contains_eq, live]; rfl)
    obtain rfl := Option.some.inj (one.symm.trans live)
    rw [(right k).mpr ⟨d, other, key⟩]
    exact .found ⟨d, one, other⟩

/-- One operation on twins: where the first one answers, the other one does, and twins are left. -/
theorem Twins.step (twins : u.Twins v) (op : Operation) (a : Answer) (u' : Usage)
    (done : u.step? op = some (a, u')) :
    ∃ b v', v.step? op = some (b, v') ∧ u'.Twins v' ∧
      a.Alike (Together u'.table v'.table) b := by
  cases op with
  | retain x =>
    by_cases inRange : u.InRange x
    · rw [step?_retain u x inRange] at done
      cases done
      obtain ⟨kept, together⟩ := twins.retain x inRange
      exact ⟨_, _, step?_retain v x (twins.inRange x inRange), kept, .handle together⟩
    · rw [step?, if_neg inRange] at done
      cases done
  | retainHandle name => exact twins.step_retainHandle name a u' done
  | release name => exact twins.step_release name a u' done
  | get name =>
    refine twins.read name (fun t h => .value (t.get h)) (fun h k spoken => ?_) a u' done
    rw [twins.tables.get_of_spoken h k spoken]
    exact .value _
  | refcount name =>
    refine twins.read name (fun t h => .refcount (t.refcount? h)) (fun h k spoken => ?_) a u' done
    rw [refcount?, (twins.tables.find?_of_spoken h k spoken).1]
    exact .refcount _
  | contains name =>
    refine twins.read name (fun t h => .contains (t.contains h)) (fun h k spoken => ?_) a u' done
    rw [contains_eq, (twins.tables.find?_of_spoken h k spoken).1]
    exact .contains _
  | lookup x =>
    cases done
    exact ⟨_, _, rfl, twins, twins.lookup x⟩
  | liveCount =>
    cases done
    refine ⟨_, _, rfl, twins, ?_⟩
    rw [twins.tables.size]
    exact .liveCount _

theorem run?_cons (u v : Usage) (op : Operation) (rest : List Operation) (a : Answer)
    (later : List (Answer × Usage)) (done : u.step? op = some (a, v))
    (more : v.run? rest = some later) : u.run? (op :: rest) = some ((a, v) :: later) := by
  show (u.step? op).bind _ = _
  rw [done, Option.bind_some]
  show (v.run? rest).bind _ = _
  rw [more]
  rfl

/-- An answer and what is left after it, in two runs that differ in the handles only. -/
def SameStage (a b : Answer × Usage) : Prop :=
  a.1.Alike (Partners a.2.table b.2.table) b.1 ∧ a.2.Alike b.2

/-- By induction on the program: twins stay twins. -/
theorem Twins.run (program : List Operation) (twins : u.Twins v) (trace : List (Answer × Usage))
    (runs : u.run? program = some trace) :
    ∃ trace', v.run? program = some trace' ∧ List.Forall₂ SameStage trace trace' := by
  induction program generalizing u v trace with
  | nil =>
    obtain rfl := Option.some.inj runs
    exact ⟨[], rfl, .nil⟩
  | cons op rest ih =>
    obtain ⟨⟨a, u'⟩, done, more⟩ := Option.bind_eq_some_iff.mp runs
    obtain ⟨later, goesOn, equal⟩ := Option.bind_eq_some_iff.mp more
    obtain rfl := Option.some.inj equal
    obtain ⟨b, v', done', kept, alike⟩ := twins.step op a u' done
    obtain ⟨later', goesOn', all⟩ := ih kept later goesOn
    have same := alike.mono fun h k => (kept.tables.partners_iff h k).mpr
    exact ⟨_, run?_cons v v' op rest b later' done' goesOn', .cons ⟨same, kept.alike⟩ all⟩

/-- A program that runs on a table of one layout runs on one of any layout, and step by step the two
runs differ in the handles only. -/
theorem same_on_layouts (layout layout' : Layout) (globalObject : Host.Value)
    (program : List Operation) (trace : List (Answer × Usage))
    (runs : (start layout globalObject).run? program = some trace) :
    ∃ trace', (start layout' globalObject).run? program = some trace' ∧
      List.Forall₂ SameStage trace trace' :=
  (start_twins layout layout' globalObject).run program trace runs

/-- A program in whose run the dense slots give a handle out again. -/
theorem same_on_layouts_reused :
    ∃ trace trace', (start .dense (.object 0)).run? [.retain (.string "first"),
        .release (.answered 0), .retain (.string "second"), .get (.answered 1)] = some trace ∧
      (start .sparse (.object 0)).run? [.retain (.string "first"),
        .release (.answered 0), .retain (.string "second"), .get (.answered 1)] = some trace' ∧
      trace.map (·.2.answered) = [[some ⟨2⟩], [none], [none, some ⟨2⟩], [none, some ⟨2⟩]] ∧
      List.Forall₂ SameStage trace trace' := by
  let root : Std.HashMap Host.Key Handle :=
    (∅ : Std.HashMap Host.Key Handle).insert (.object 0) .globalObject
  let index := root.insert (.string "first") ⟨2⟩
  let first : RefTable :=
    ⟨.dense ⟨#[none, some ⟨.object 0, 1⟩, some ⟨.string "first", 1⟩], [], 2⟩, index, .dense⟩
  let freed : RefTable := first.without ⟨2⟩ (.string "first")
  let second : RefTable :=
    ⟨.dense ⟨#[none, some ⟨.object 0, 1⟩, some ⟨.string "second", 1⟩], [], 2⟩,
      freed.index.insert (.string "second") ⟨2⟩, .dense⟩
  have new : (create .dense (.object 0)).lookup? (.string "first") = none := by
    show root[Host.Key.string "first"]? = none
    simp [root]
  have retained : (create .dense (.object 0)).retain (.string "first") = (⟨2⟩, first) := by
    rw [retain_of_new _ new]
    rfl
  have linked : first.Linked := by
    have room : (create .dense (.object 0)).slots.HasRoom := by
      show 1 ≤ 2 ^ 32 - 3
      decide
    have kept := (create_sound .dense (.object 0)).linked.retain_new room _ new
    rwa [retained] at kept
  have released : first.release ⟨2⟩ = .ok freed :=
    linked.release_of_last ⟨2⟩ ⟨.string "first", 1⟩ rfl (by decide)
  have newer : freed.lookup? (.string "second") = none := by
    show (index.erase _)[Host.Key.string "second"]? = none
    simp [index, root]
  have reused : freed.retain (.string "second") = (⟨2⟩, second) := by
    rw [retain_of_new _ newer]
    rfl
  have one := step?_retain (start .dense (.object 0)) (.string "first") fun _ => by decide
  have two := step?_release ⟨first, [some ⟨2⟩]⟩ (.answered 0) ⟨2⟩ freed rfl released
  have three := step?_retain ⟨freed, [none]⟩ (.string "second") fun _ => by decide
  have last : (⟨second, [none, some ⟨2⟩]⟩ : Usage).run? [.get (.answered 1)] =
      some [(.value (.ok (.string "second")), ⟨second, [none, some ⟨2⟩]⟩)] := rfl
  rw [show (start .dense (.object 0)).table = create .dense (.object 0) from rfl, retained] at one
  rw [reused] at three
  have runs := run?_cons _ _ _ _ _ _ one (run?_cons _ _ _ _ _ _ two (run?_cons _ _ _ _ _ _ three last))
  obtain ⟨trace', other, all⟩ := same_on_layouts .dense .sparse (.object 0) _ _ runs
  exact ⟨_, trace', runs, other, rfl, all⟩

end Usage

end Membrane.RefTable
