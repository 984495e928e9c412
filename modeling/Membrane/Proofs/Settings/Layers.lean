import Mathlib.Data.List.Sort
import Membrane.Proofs.Documents.Spread
import Membrane.Proofs.Settings.Words
import Membrane.Proofs.Text.Order
import Membrane.Proofs.World.Heap
/-!
Settings come in layers: defaults, then a document, then variables. A layer is read entry by entry.
Each entry says something of one setting or of none, or it is refused, whatever the settings were
before. So the first entry that is refused is the one that is reported, and where none is, each
setting is what the last layer says that says something of it.
-/

set_option autoImplicit false

namespace Membrane

namespace Json

open Host.Object (lookup_cons lookup_inserted)

theorem lookup_insertField (key : String) (value : Json) (fields : List (String × Json))
    (other : String) :
    (insertField key value fields).lookup other =
      if other = key then some value else fields.lookup other :=
  lookup_inserted (insertField key value) key value rfl (fun _ _ _ => rfl) fields other

/-- Fields that are gathered are in order, and each key has the value it was given last. -/
theorem gathered_last (acc fields : List (String × Json)) (ascending : Ascending acc) :
    Ascending (gathered acc fields) ∧ ∀ key,
      (gathered acc fields).lookup key = (fields.reverse.lookup key).or (acc.lookup key) := by
  induction fields generalizing acc with
  | nil => exact ⟨ascending, fun _ => rfl⟩
  | cons entry rest ih =>
    obtain ⟨k, v⟩ := entry
    obtain ⟨kept, found⟩ := ih (insertField k v acc) (insertField_ascending k v acc ascending)
    refine ⟨kept, fun key => (found key).trans ?_⟩
    rw [List.reverse_cons, List.lookup_append, Option.or_assoc, lookup_insertField, lookup_cons]
    split <;> rfl

/-- The order in which keys are written makes no difference. -/
theorem ofFields_eq {written rewritten : List (String × Json)}
    (same : ∀ key, written.reverse.lookup key = rewritten.reverse.lookup key) :
    ofFields written = ofFields rewritten := by
  obtain ⟨ascending, found⟩ := gathered_last [] written .nil
  obtain ⟨ascending', found'⟩ := gathered_last [] rewritten .nil
  have members (p : String × Json) : p ∈ gathered [] written ↔ p ∈ gathered [] rewritten := by
    rw [← lookup_eq_some_iff_mem ((ascending_iff _).mp ascending), found, same, ← found',
      lookup_eq_some_iff_mem ((ascending_iff _).mp ascending')]
  have distinct {fields : List (String × Json)} (ascending : Ascending fields) : fields.Nodup := by
    refine ascending.imp fun below => ?_
    rintro rfl
    exact String.lt_irrefl _ below
  have all := (List.perm_ext_iff_of_nodup (distinct ascending) (distinct ascending')).mpr members
  have asymmetric : ∀ p q : String × Json, p ∈ gathered [] written → q ∈ gathered [] rewritten →
      p.1 < q.1 → q.1 < p.1 → p = q :=
    fun _ _ _ _ below above => absurd above (String.lt_asymm below)
  exact congrArg Json.object (all.eq_of_pairwise asymmetric ascending ascending')

end Json

namespace Config

inductive Field where
  | layout
  | initialCapacity
  | weakRefs
  | trace
  | workerStem
deriving DecidableEq

/-- What one of the settings is set to. -/
inductive Setting where
  | layout (l : Layout)
  | initialCapacity (n : Nat)
  | weakRefs (b : Bool)
  | trace (b : Bool)
  | workerStem (s : String)

def Setting.field : Setting → Field
  | .layout _ => .layout
  | .initialCapacity _ => .initialCapacity
  | .weakRefs _ => .weakRefs
  | .trace _ => .trace
  | .workerStem _ => .workerStem

def get (config : Config) : Field → Setting
  | .layout => .layout config.layout
  | .initialCapacity => .initialCapacity config.initialCapacity
  | .weakRefs => .weakRefs config.weakRefs
  | .trace => .trace config.trace
  | .workerStem => .workerStem config.workerStem

def put (config : Config) : Setting → Config
  | .layout layout => { config with layout }
  | .initialCapacity initialCapacity => { config with initialCapacity }
  | .weakRefs weakRefs => { config with weakRefs }
  | .trace trace => { config with trace }
  | .workerStem workerStem => { config with workerStem }

/-- One setting is put in place, and the others stay. -/
theorem get_put (config : Config) (s : Setting) (f : Field) :
    (config.put s).get f = if s.field = f then s else config.get f := by
  cases s <;> cases f <;> rfl

theorem eq_of_put_eq (config : Config) {s t : Setting} (field : s.field = t.field)
    (same : config.put s = config.put t) : s = t := by
  have read := config.get_put s t.field
  rwa [same, get_put, if_pos rfl, if_pos field, eq_comm] at read

/-- The key of a setting in documents. -/
def Field.key : Field → String
  | .layout => "object_space"
  | .initialCapacity => "initial_capacity"
  | .weakRefs => "weak_refs"
  | .trace => "trace"
  | .workerStem => "worker_name_prefix"

theorem Field.key_injective {f g : Field} (same : f.key = g.key) : f = g := by
  cases f <;> cases g <;> simp_all [key]

/-- The variable that overrides a setting. -/
def Field.override? : Field → Option Variable
  | .layout => some .objectSpace
  | .initialCapacity => some .initialCapacity
  | .weakRefs => some .weakRefs
  | .trace => some .trace
  | .workerStem => none

theorem Field.override?_injective {f g : Field} {v : Variable} (of : f.override? = some v)
    (of' : g.override? = some v) : f = g := by
  cases f <;> cases of <;> cases g <;> first | rfl | cases of'

/-- The values that a document sets to this, of the shape that the key asks for. -/
def Setting.InDocument : Setting → Json → Prop
  | .layout l, value =>
    ∃ text, value = .string text ∧ Text.lowered (Text.trim text) ∈ l.words
  | .initialCapacity n, value => value = .number (.whole n)
  | .weakRefs b, value | .trace b, value => value = .bool b
  | .workerStem text, value => value = .string text

/-- The texts by which a variable sets this. -/
def Setting.InVariable : Setting → String → Prop
  | .layout l, text => Text.lowered (Text.trim text) ∈ l.words
  | .initialCapacity n, text => Counts (Text.trim text) n
  | .weakRefs b, text | .trace b, text => Text.lowered (Text.trim text) ∈ flagWords b
  | .workerStem _, _ => False

/-- What a field of a document tells, if the key is known and the value has its shape. -/
def Tells (key : String) (value : Json) (s : Setting) : Prop :=
  s.field.key = key ∧ s.InDocument value

/-- What a variable tells, if its text has the shape that is asked for. -/
def Variable.Tells (v : Variable) (text : String) (s : Setting) : Prop :=
  s.field.override? = some v ∧ s.InVariable text

section

variable (config : Config) {key text : String} {value : Json} {v : Variable} {s : Setting}

theorem setField_told (tells : Tells key value s) :
    config.setField key value = .ok (config.put s) := by
  obtain ⟨rfl, written⟩ := tells
  cases s with
  | layout l =>
    obtain ⟨text, rfl, word⟩ := written
    simp only [setField, Setting.field, Field.key, (Layout.ofText?_eq_some_iff text l).mpr word]
    rfl
  | initialCapacity n =>
    cases written
    simp only [setField, Setting.field, Field.key, Int.natCast_nonneg n, ↓reduceIte]
    rfl
  | weakRefs b | trace b | workerStem text =>
    cases written
    rfl

/-- A field that tells nothing is refused under its key. -/
theorem setField_refused (nothing : ∀ s, ¬ Tells key value s) :
    ∃ refusal, config.setField key value = .error ⟨key, refusal⟩ := by
  unfold setField
  split
  · next text =>
    cases read : Layout.ofText? text with
    | some l =>
      have word := (Layout.ofText?_eq_some_iff text l).mp read
      exact absurd ⟨rfl, text, rfl, word⟩ (nothing (.layout l))
    | none => exact ⟨_, rfl⟩
  · exact ⟨_, rfl⟩
  · next n =>
    split
    · next natural =>
      obtain ⟨n, rfl⟩ := Int.eq_ofNat_of_zero_le natural
      exact absurd ⟨rfl, rfl⟩ (nothing (.initialCapacity n))
    · exact ⟨_, rfl⟩
  · exact ⟨_, rfl⟩
  · next b => exact absurd ⟨rfl, rfl⟩ (nothing (.weakRefs b))
  · exact ⟨_, rfl⟩
  · next b => exact absurd ⟨rfl, rfl⟩ (nothing (.trace b))
  · exact ⟨_, rfl⟩
  · next text => exact absurd ⟨rfl, rfl⟩ (nothing (.workerStem text))
  · exact ⟨_, rfl⟩
  · exact ⟨_, rfl⟩

theorem apply_told (tells : v.Tells text s) : v.apply config text = .ok (config.put s) := by
  obtain ⟨overrides, read⟩ := tells
  cases s with
  | layout l =>
    cases overrides
    simp only [Variable.apply, (Layout.ofText?_eq_some_iff text l).mpr read]
    rfl
  | initialCapacity n =>
    cases overrides
    simp only [Variable.apply, (readCount?_eq_some_iff _ n).mpr read]
    rfl
  | weakRefs b | trace b =>
    cases overrides
    simp only [Variable.apply, (readFlag_eq_ok_iff _ text b).mpr read]
    rfl
  | workerStem => cases overrides

/-- A variable that tells nothing is refused under its name. -/
theorem apply_refused (nothing : ∀ s, ¬ v.Tells text s) :
    ∃ refusal, v.apply config text = .error ⟨v.name, refusal⟩ := by
  cases v with
  | objectSpace =>
    cases read : Layout.ofText? text with
    | some l =>
      exact absurd ⟨rfl, (Layout.ofText?_eq_some_iff text l).mp read⟩ (nothing (.layout l))
    | none =>
      simp only [Variable.apply, read]
      exact ⟨_, rfl⟩
  | initialCapacity =>
    cases read : readCount? (Text.trim text) with
    | some n =>
      exact absurd ⟨rfl, (readCount?_eq_some_iff _ n).mp read⟩ (nothing (.initialCapacity n))
    | none =>
      simp only [Variable.apply, read]
      exact ⟨_, rfl⟩
  | weakRefs =>
    have noWord (b : Bool) : Text.lowered (Text.trim text) ∉ flagWords b :=
      fun word => nothing (.weakRefs b) ⟨rfl, word⟩
    simp only [Variable.apply, readFlag_error _ text noWord]
    exact ⟨_, rfl⟩
  | trace =>
    have noWord (b : Bool) : Text.lowered (Text.trim text) ∉ flagWords b :=
      fun word => nothing (.trace b) ⟨rfl, word⟩
    simp only [Variable.apply, readFlag_error _ text noWord]
    exact ⟨_, rfl⟩

end

/-- How a layer is read: an entry sets what it tells, if it tells anything of a setting, or it is
refused under its name. -/
structure Reads {ι : Type} (step : Config → ι → Except Error Config) (name : ι → String)
    (tells : ι → Option Setting → Prop) : Prop where
  told : ∀ {i s}, tells i s → ∀ config, step config i = .ok (s.elim config config.put)
  refused : ∀ {i}, (∀ s, ¬ tells i s) → ∀ config, ∃ refusal,
    step config i = .error ⟨name i, refusal⟩

section

variable {ι : Type} {step : Config → ι → Except Error Config} {name : ι → String}
  {tells : ι → Option Setting → Prop} {config after : Config} {entries : List ι} {e : Error}

/-- A layer is accepted if, and only if, all its entries are. -/
theorem Reads.ok_iff (reads : Reads step name tells) :
    (∃ after, entries.foldlM step config = .ok after) ↔ ∀ i ∈ entries, ∃ s, tells i s := by
  induction entries generalizing config with
  | nil => exact ⟨fun _ _ mem => absurd mem List.not_mem_nil, fun _ => ⟨config, rfl⟩⟩
  | cons i rest ih =>
    rw [List.forall_mem_cons, List.foldlM_cons]
    by_cases told : ∃ s, tells i s
    · obtain ⟨s, tells⟩ := told
      rw [reads.told tells config, and_iff_right ⟨s, tells⟩]
      exact ih
    · obtain ⟨refusal, refused⟩ := reads.refused (not_exists.mp told) config
      rw [refused]
      exact ⟨nofun, fun ⟨accepted, _⟩ => absurd accepted told⟩

/-- The first entry that is refused is the one that is reported. -/
theorem Reads.first_refused (reads : Reads step name tells)
    (failed : entries.foldlM step config = .error e) :
    ∃ former i later, entries = former ++ i :: later ∧ (∀ j ∈ former, ∃ s, tells j s) ∧
      (∀ s, ¬ tells i s) ∧ e.key = name i := by
  induction entries generalizing config with
  | nil => cases failed
  | cons i rest ih =>
    rw [List.foldlM_cons] at failed
    by_cases told : ∃ s, tells i s
    · obtain ⟨s, told⟩ := told
      rw [reads.told told config] at failed
      obtain ⟨former, j, later, rfl, accepted, refused, key⟩ := ih failed
      have all := List.forall_mem_cons.mpr ⟨⟨s, told⟩, accepted⟩
      exact ⟨i :: former, j, later, rfl, all, refused, key⟩
    · have nothing := not_exists.mp told
      obtain ⟨refusal, refused⟩ := reads.refused nothing config
      rw [refused] at failed
      cases failed
      exact ⟨[], i, rest, rfl, fun _ mem => absurd mem List.not_mem_nil, nothing, rfl⟩

/-- Where no two entries tell something of the same setting, each setting is what its entry tells,
and as before if there is no such entry. -/
theorem Reads.get (reads : Reads step name tells)
    (apart : entries.Pairwise fun i j =>
      ∀ s t, tells i (some s) → tells j (some t) → s.field ≠ t.field)
    (done : entries.foldlM step config = .ok after) (f : Field) :
    (∀ i ∈ entries, ∀ s, tells i (some s) → s.field = f → after.get f = s) ∧
      ((∀ i ∈ entries, ∀ s, tells i (some s) → s.field ≠ f) → after.get f = config.get f) := by
  induction entries generalizing config with
  | nil =>
    cases done
    exact ⟨fun _ mem => absurd mem List.not_mem_nil, fun _ => rfl⟩
  | cons i rest ih =>
    obtain ⟨first, others⟩ := List.pairwise_cons.mp apart
    have next {s : Option Setting} (told : tells i s) :
        rest.foldlM step (s.elim config config.put) = .ok after := by
      rw [List.foldlM_cons, reads.told told config] at done
      exact done
    obtain ⟨own, told⟩ := reads.ok_iff.mp ⟨after, done⟩ i List.mem_cons_self
    obtain ⟨set, kept⟩ := ih others (next told)
    simp only [List.forall_mem_cons]
    refine ⟨⟨?_, set⟩, ?_⟩
    · rintro s told rfl
      obtain ⟨-, kept⟩ := ih others (next told)
      rw [kept fun j mem t told' => (first j mem s t told told').symm]
      exact (config.get_put s s.field).trans (if_pos rfl)
    · rintro ⟨here, later⟩
      rw [kept later]
      cases own with
      | none => rfl
      | some s => exact (config.get_put s f).trans (if_neg (here s told))

end

/-- A field tells something of a setting. -/
inductive FieldEntry (p : String × Json) : Option Setting → Prop
  | told {s : Setting} (tells : Tells p.1 p.2 s) : FieldEntry p (some s)

/-- A variable tells something of a setting if it is set, and nothing of any setting otherwise. -/
inductive VariableEntry (lookup : String → Option String) (v : Variable) : Option Setting → Prop
  | unset (free : lookup v.name = none) : VariableEntry lookup v none
  | told {text : String} {s : Setting} (found : lookup v.name = some text)
      (tells : v.Tells text s) : VariableEntry lookup v (some s)

/-- A document is read as a layer, in the order of its keys. -/
theorem reads_fields :
    Reads (fun config (p : String × Json) => config.setField p.1 p.2) (·.1) FieldEntry where
  told := by
    rintro p _ ⟨tells⟩ config
    exact setField_told config tells
  refused nothing config := setField_refused config fun s tells => nothing (some s) (.told tells)

/-- Variables are read as a layer. -/
theorem reads_variables (lookup : String → Option String) :
    Reads (fun config (v : Variable) =>
        match lookup v.name with
        | some text => v.apply config text
        | none => .ok config)
      Variable.name (VariableEntry lookup) where
  told := by
    rintro v _ (free | ⟨found, tells⟩) config
    · rw [free]
      rfl
    · rw [found]
      exact apply_told config tells
  refused := by
    intro v nothing config
    cases found : lookup v.name with
    | none => exact absurd (.unset found) (nothing none)
    | some text =>
      exact apply_refused config fun s tells => nothing (some s) (.told found tells)

/-- A key that is unknown, or whose value has another shape than the key asks for. -/
def Offends (document : Json) (key : String) : Prop :=
  ∃ value, document.field? key = some value ∧ ∀ s, ¬ Tells key value s

/-- A variable that is set to a text of another shape than it asks for. -/
def Malformed (lookup : String → Option String) (v : Variable) : Prop :=
  ∃ text, lookup v.name = some text ∧ ∀ s, ¬ v.Tells text s

section

variable {fields : List (String × Json)} {config : Config} {e : Error}

theorem offends_iff (ascending : Json.Ascending fields) (key : String) :
    Offends (.object fields) key ↔ ∃ value, (key, value) ∈ fields ∧ ∀ s, ¬ Tells key value s := by
  have members := lookup_eq_some_iff_mem ((Json.ascending_iff fields).mp ascending)
  simp only [Offends, Json.field?, members]

theorem ofJson_ok_iff (ascending : Json.Ascending fields) :
    (∃ config, ofJson (.object fields) = .ok config) ↔ ∀ key, ¬ Offends (.object fields) key := by
  have all : (∃ config, ofJson (.object fields) = .ok config) ↔ ∀ p ∈ fields, ∃ s, FieldEntry p s :=
    reads_fields.ok_iff
  refine all.trans ⟨fun accepted key offends => ?_, fun none p mem => ?_⟩
  · obtain ⟨value, mem, nothing⟩ := (offends_iff ascending key).mp offends
    obtain ⟨_, ⟨tells⟩⟩ := accepted (key, value) mem
    exact nothing _ tells
  · by_contra nothing
    refine none p.1 ((offends_iff ascending p.1).mpr ⟨p.2, mem, fun s tells => nothing ?_⟩)
    exact ⟨some s, .told tells⟩

/-- The key that is reported is the first in the order of the bytes. -/
theorem ofJson_error (ascending : Json.Ascending fields)
    (failed : ofJson (.object fields) = .error e) :
    Offends (.object fields) e.key ∧
      ∀ key, Offends (.object fields) key → Text.bytes e.key ≤ Text.bytes key := by
  obtain ⟨former, p, later, rfl, accepted, refused, first⟩ := reads_fields.first_refused failed
  rw [first]
  constructor
  · refine (offends_iff ascending p.1).mpr ⟨p.2, List.mem_append_right _ List.mem_cons_self, ?_⟩
    exact fun s tells => refused (some s) (.told tells)
  · intro key offends
    obtain ⟨value, mem, nothing⟩ := (offends_iff ascending key).mp offends
    rw [← List.not_lt, ← Text.lt_iff_bytes_lt]
    rcases List.mem_append.mp mem with before | behind
    · obtain ⟨_, ⟨tells⟩⟩ := accepted (key, value) before
      exact absurd tells (nothing _)
    · rcases List.mem_cons.mp behind with here | after
      · rw [← here]
        exact String.lt_irrefl _
      · have above := (List.pairwise_cons.mp (List.pairwise_append.mp ascending).2.1).1 _ after
        exact String.lt_asymm above

theorem ofJson_get (ascending : Json.Ascending fields)
    (done : ofJson (.object fields) = .ok config) (f : Field) :
    (∀ value, (Json.object fields).field? f.key = some value → Tells f.key value (config.get f)) ∧
      ((Json.object fields).field? f.key = none → config.get f = default.get f) := by
  have members := lookup_eq_some_iff_mem ((Json.ascending_iff fields).mp ascending)
  have apart : fields.Pairwise fun p q =>
      ∀ s t, FieldEntry p (some s) → FieldEntry q (some t) → s.field ≠ t.field := by
    refine ascending.imp fun {p q} below => ?_
    rintro s t ⟨first, -⟩ ⟨second, -⟩ same
    rw [← first, ← second, same] at below
    exact String.lt_irrefl _ below
  obtain ⟨set, kept⟩ := reads_fields.get apart done f
  constructor
  · intro value found
    have mem := (members f.key value).mp found
    obtain ⟨_, @⟨s, tells⟩⟩ := reads_fields.ok_iff.mp ⟨config, done⟩ _ mem
    rw [set _ mem s (.told tells) (Field.key_injective tells.1)]
    exact tells
  · intro absent
    refine kept ?_
    rintro ⟨key, value⟩ mem s ⟨known, -⟩ rfl
    have found := (members key value).mpr mem
    have same : s.field.key = key := known
    rw [← same] at found
    cases absent.symm.trans found

end

section

variable {lookup : String → Option String} {base config : Config} {e : Error}

theorem malformed_iff (v : Variable) :
    Malformed lookup v ↔ ∀ s?, ¬ VariableEntry lookup v s? := by
  constructor
  · rintro ⟨text, found, nothing⟩ _ (free | ⟨found', tells⟩)
    · cases free.symm.trans found
    · obtain rfl := Option.some.inj (found.symm.trans found')
      exact nothing _ tells
  · intro nothing
    cases found : lookup v.name with
    | none => exact absurd (.unset found) (nothing none)
    | some text => exact ⟨text, found, fun s tells => nothing (some s) (.told found tells)⟩

theorem mem_all (v : Variable) : v ∈ Variable.all := by
  cases v <;> decide

theorem withVariables_ok_iff :
    (∃ config, base.withVariables lookup = .ok config) ↔ ∀ v, ¬ Malformed lookup v := by
  refine (reads_variables lookup).ok_iff.trans ⟨fun accepted v malformed => ?_, fun none v _ => ?_⟩
  · obtain ⟨s?, entry⟩ := accepted v (mem_all v)
    exact (malformed_iff v).mp malformed s? entry
  · by_contra nothing
    exact none v ((malformed_iff v).mpr (not_exists.mp nothing))

/-- The variable that is reported is the first one of those that are malformed. -/
theorem withVariables_error (failed : base.withVariables lookup = .error e) :
    ∃ former v later, Variable.all = former ++ v :: later ∧
      (∀ w ∈ former, ¬ Malformed lookup w) ∧ Malformed lookup v ∧ e.key = v.name := by
  obtain ⟨former, v, later, all, accepted, refused, first⟩ :=
    (reads_variables lookup).first_refused failed
  refine ⟨former, v, later, all, fun w before malformed => ?_, (malformed_iff v).mpr refused, first⟩
  obtain ⟨s?, entry⟩ := accepted w before
  exact (malformed_iff w).mp malformed s? entry

theorem withVariables_get (done : base.withVariables lookup = .ok config) (f : Field) :
    (∀ v text, f.override? = some v → lookup v.name = some text → v.Tells text (config.get f)) ∧
      ((∀ v, f.override? = some v → lookup v.name = none) → config.get f = base.get f) := by
  have distinct : Variable.all.Nodup := by decide
  have apart : Variable.all.Pairwise fun v w => ∀ s t,
      VariableEntry lookup v (some s) → VariableEntry lookup w (some t) → s.field ≠ t.field := by
    refine distinct.imp fun {v w} apart => ?_
    rintro s t (_ | ⟨-, first, -⟩) (_ | ⟨-, second, -⟩) same
    rw [same, second] at first
    exact apart (Option.some.inj first).symm
  obtain ⟨set, kept⟩ := (reads_variables lookup).get apart done f
  constructor
  · intro v text overrides found
    obtain ⟨_, entry⟩ := (reads_variables lookup).ok_iff.mp ⟨config, done⟩ v (mem_all v)
    cases entry with
    | unset free => cases free.symm.trans found
    | @told _ s found' tells =>
      rw [set v (mem_all v) s (.told found' tells) (Field.override?_injective tells.1 overrides)]
      obtain rfl := Option.some.inj (found.symm.trans found')
      exact tells
  · intro unset
    refine kept ?_
    rintro v - s (_ | ⟨found, overrides, -⟩) rfl
    cases (unset v overrides).symm.trans found

end

/-- What is told determines the setting. -/
theorem Tells.unique {key : String} {value : Json} {s t : Setting} (tells : Tells key value s)
    (tells' : Tells key value t) : s = t := by
  have same : default.put s = default.put t :=
    Except.ok.inj ((setField_told default tells).symm.trans (setField_told default tells'))
  exact default.eq_of_put_eq (Field.key_injective (tells.1.trans tells'.1.symm)) same

theorem Variable.Tells.unique {v : Variable} {text : String} {s t : Setting}
    (tells : v.Tells text s) (tells' : v.Tells text t) : s = t := by
  have same : default.put s = default.put t :=
    Except.ok.inj ((apply_told default tells).symm.trans (apply_told default tells'))
  exact default.eq_of_put_eq (Field.override?_injective tells.1 tells'.1) same

/-- A document is accepted if, and only if, it is an object whose keys are all known and whose
values have the shapes that their keys ask for; otherwise it is refused as a whole, or under that
offending key which is the first in the order of the bytes. Variables are accepted on any settings
if none of them is malformed; otherwise the first that is malformed is reported. What was accepted
sets what it tells: each setting is the one of its variable if that is set, else the one of its key
if that is present, else what it was before. The order in which keys were written is of no account.
-/
theorem settings_in_layers :
    (∀ document : Json, (∀ fields, document = .object fields → Json.Ascending fields) →
      ((∃ config, ofJson document = .ok config) ↔
        (∃ fields, document = .object fields) ∧ ∀ key, ¬ Offends document key) ∧
      (∀ e, ofJson document = .error e →
        (∀ fields, document ≠ .object fields) ∧ e = ⟨"<document>", .notObject⟩ ∨
        Offends document e.key ∧
          ∀ key, Offends document key → Text.bytes e.key ≤ Text.bytes key) ∧
      ∀ config, ofJson document = .ok config → ∀ f : Field,
        (∀ value, document.field? f.key = some value → Tells f.key value (config.get f)) ∧
        (document.field? f.key = none → config.get f = default.get f)) ∧
    (∀ written : List (String × Json),
      (∃ fields, Json.ofFields written = .object fields ∧ Json.Ascending fields) ∧
      (∀ key, (Json.ofFields written).field? key = written.reverse.lookup key) ∧
      ∀ rewritten, (∀ key, written.reverse.lookup key = rewritten.reverse.lookup key) →
        Json.ofFields written = Json.ofFields rewritten) ∧
    (∀ (base : Config) (lookup : String → Option String),
      ((∃ config, base.withVariables lookup = .ok config) ↔ ∀ v, ¬ Malformed lookup v) ∧
      (∀ e, base.withVariables lookup = .error e →
        ∃ former v later, Variable.all = former ++ v :: later ∧
          (∀ w ∈ former, ¬ Malformed lookup w) ∧ Malformed lookup v ∧ e.key = v.name) ∧
      ∀ config, base.withVariables lookup = .ok config → ∀ f : Field,
        (∀ v text, f.override? = some v → lookup v.name = some text →
          v.Tells text (config.get f)) ∧
        ((∀ v, f.override? = some v → lookup v.name = none) → config.get f = base.get f)) ∧
    (∀ document : Json, (∀ fields, document = .object fields → Json.Ascending fields) →
      ∀ (lookup : String → Option String) (config : Config),
        (ofJson document).bind (·.withVariables lookup) = .ok config → ∀ f : Field,
        (∀ v text, f.override? = some v → lookup v.name = some text →
          v.Tells text (config.get f)) ∧
        ((∀ v, f.override? = some v → lookup v.name = none) →
          (∀ value, document.field? f.key = some value → Tells f.key value (config.get f)) ∧
          (document.field? f.key = none → config.get f = default.get f))) ∧
    (∀ key value s t, Tells key value s → Tells key value t → s = t) ∧
    (∀ (v : Variable) text s t, v.Tells text s → v.Tells text t → s = t) ∧
    Variable.all.map Variable.name = ["HOSTBRIDGE_OBJECT_SPACE", "HOSTBRIDGE_INITIAL_CAPACITY",
      "HOSTBRIDGE_WEAK_REFS", "HOSTBRIDGE_TRACE"] := by
  refine ⟨fun document ascending => ?_, fun written => ?_, fun base lookup => ?_,
    fun document ascending lookup config done f => ?_, ?_, ?_, rfl⟩
  · cases document with
    | object fields =>
      have ascending := ascending fields rfl
      refine ⟨?_, fun e failed => .inr (ofJson_error ascending failed),
        fun config done => ofJson_get ascending done⟩
      rw [ofJson_ok_iff ascending, and_iff_right ⟨fields, rfl⟩]
    | _ =>
      refine ⟨⟨nofun, fun ⟨⟨_, same⟩, _⟩ => by cases same⟩, fun e failed => .inl ⟨nofun, ?_⟩, nofun⟩
      cases failed
      rfl
  · obtain ⟨ascending, found⟩ := Json.gathered_last [] written .nil
    exact ⟨⟨_, rfl, ascending⟩, fun key => (found key).trans Option.or_none,
      fun rewritten same => Json.ofFields_eq same⟩
  · exact ⟨withVariables_ok_iff, fun e failed => withVariables_error failed,
      fun config done => withVariables_get done⟩
  · cases first : ofJson document with
    | error e => simp only [first, Except.bind, reduceCtorEq] at done
    | ok base =>
      simp only [first, Except.bind] at done
      obtain ⟨set, kept⟩ := withVariables_get done f
      refine ⟨set, fun unset => ?_⟩
      rw [kept unset]
      cases document with
      | object fields => exact ofJson_get (ascending fields rfl) first f
      | _ => cases first
  · exact fun key value s t tells tells' => tells.unique tells'
  · exact fun v text s t tells tells' => tells.unique tells'

/-- A variable overrides the flag of a document and leaves its count alone. -/
theorem settings_in_layers_trace :
    let document := Json.ofFields [("trace", .bool true), ("initial_capacity", .number (.whole 8))]
    let lookup (name : String) : Option String :=
      if name = "HOSTBRIDGE_TRACE" then some " Off " else none
    ∃ config, (ofJson document).bind (·.withVariables lookup) = .ok config ∧
      config.get .trace = .trace false ∧ config.get .initialCapacity = .initialCapacity 8 ∧
      config.get .layout = default.get .layout := by
  intro document lookup
  let config : Config := { default with initialCapacity := 8, trace := false }
  have done : (ofJson document).bind (·.withVariables lookup) = .ok config := rfl
  have ascending (fields) (same : document = .object fields) : Json.Ascending fields := by
    obtain ⟨fields', same', ascending⟩ := (settings_in_layers.2.1 _).1
    obtain rfl := Json.object.inj (same'.symm.trans same)
    exact ascending
  have layered := settings_in_layers.2.2.2.1 document ascending lookup config done
  refine ⟨config, done, ?_, ?_, ?_⟩
  · have off : Text.lowered (Text.trim " Off ") ∈ flagWords false := by decide
    exact Variable.Tells.unique ((layered .trace).1 .trace " Off " rfl rfl) ⟨rfl, off⟩
  · have count := ((layered .initialCapacity).2 fun _ overrides => by cases overrides; rfl).1 _ rfl
    exact Tells.unique count ⟨rfl, rfl⟩
  · exact ((layered .layout).2 fun _ overrides => by cases overrides; rfl).2 rfl

end Config

end Membrane
