import Membrane.Foreign.Import
import Membrane.World.Convert
import Membrane.Proofs.Strings.Record
/-!
Work on a realm that is refused because a thread asks for it that does not own the realm. Work that
asks for the owner first leaves everything as it was. A collection has taken what was noted by then,
and a read has struck its string off; neither is undone.
-/

set_option autoImplicit false

namespace Membrane

namespace Code

variable {α β : Type}

/-- Code is performed up to its end and then goes on with what follows it. -/
theorem exec_bind (p : Performer) (c : Code α) (f : α → Code β) (w : World) :
    Act.exec ((c >>= f).exec p) w = Act.goOn (Act.exec (c.exec p) w) fun a => (f a).exec p := by
  show Act.exec ((c.bind f).exec p) w = _
  induction c generalizing w with
  | done a => rfl
  | ask request next ih =>
    simp only [Code.bind, Code.exec, Act.exec_bind]
    rcases Act.exec (p request) w with ⟨halt | answer, u⟩
    · rfl
    · exact ih answer u

end Code

namespace Foreign

variable {α β : Type}

/-- The handle that one of the words stands for. -/
def handleAt? (args : List Wire) (place : Nat) : Option Handle :=
  (args[place]?).bind fun word => word.asHandle.toOption

theorem handleAt_eq (args : List Wire) (place : Nat) :
    (∃ h, handleAt? args place = some h ∧ handleAt args place = pure h) ∨
      (handleAt? args place = none ∧ ∃ message, handleAt args place = typeError message) := by
  cases found : args[place]? with
  | none =>
    refine Or.inr ⟨by simp [handleAt?, found], "missing argument " ++ toString place, ?_⟩
    simp only [handleAt, wordAt, found]
    rfl
  | some word =>
    cases read : word.asHandle with
    | ok h =>
      refine Or.inl ⟨h, by simp [handleAt?, found, read, Except.toOption], ?_⟩
      have same : handleAt args place = ofResult word.asHandle := by
        simp only [handleAt, wordAt, found]
        rfl
      rw [same, read]
      rfl
    | error e =>
      refine Or.inr ⟨by simp [handleAt?, found, read, Except.toOption], ?_⟩
      cases word with
      | i32 n => cases read
      | f64 _ | f32 _ | void =>
        cases read
        simp only [handleAt, wordAt, found]
        exact ⟨_, rfl⟩

/-- A type error is thrown without anything that a realm could refuse. -/
theorem exec_typeError (p : Performer) (message : String) (f : α → Foreign β) (w : World) :
    ∃ v u, Act.exec ((ExceptT.run (typeError message >>= f)).exec (Act.perform p)) w =
      (.ok (.error v), u) :=
  ⟨_, _, rfl⟩

end Foreign

namespace Realm

/-- What a realm is asked for that may need its owner. -/
inductive Demand where
  | retain (v : Host.Value)
  | retainHandle (h : Handle)
  | release (h : Handle)
  | read (h : Handle)
  | contains (h : Handle)
  | refcount (h : Handle)
  | liveCount
  | collectGarbage
  | makeString (text : String)
  | stringLength (h : Handle)
  | decodeString (h : Handle) (room : Nat)
  | lowerString (text : String)
  | loadString (h : Handle)
  /-- An import takes one of its arguments as a type. -/
  | argument (args : List Wire) (type : TakeType) (place : Nat)
  | lowerRaw (v : Host.Value)
  | liftRaw (raw : Raw)
  | getProperty (h : Handle) (name : String)
  | setProperty (h : Handle) (name : String) (raw : Raw)
  | reflect (target : Handle) (how : Reflection) (args : List Raw)
  | invokeImport (name : String) (args : List Wire)
  | callImport (name : String) (args : List Wire)
  | callTyped (name : String) (args : List Wire) (type : Guest.ResultType)
  | callFunction (id : FunctionId) (args : List Raw)

namespace Demand

open Act

/-- Does what is asked for; the answer is not looked at. -/
def run (p : Performer) (r : RealmId) : Demand → Act Unit
  | retain v => do let _ ← Act.retain r v
  | retainHandle h => do let _ ← Act.retainHandle r h
  | release h => do let _ ← Act.release r h
  | read h => do let _ ← Act.read r h
  | contains h => do let _ ← Act.contains r h
  | refcount h => do let _ ← Act.refcount? r h
  | liveCount => do let _ ← Act.liveCount r
  | collectGarbage => do let _ ← Act.collectGarbage r
  | makeString text => do let _ ← Act.makeString r text
  | stringLength h => do let _ ← Act.stringLength r h
  | decodeString h room => do let _ ← Act.decodeString r h room
  | lowerString text => do let _ ← Act.lowerString r text
  | loadString h => do let _ ← Act.loadString r h
  | argument args type place => do
    let _ ← (ExceptT.run (Foreign.take r args type place)).exec (perform p)
  | lowerRaw v => do let _ ← Act.lowerRaw r v
  | liftRaw raw => do let _ ← Act.liftRaw r raw
  | getProperty h name => do let _ ← getRawProperty r h name
  | setProperty h name raw => do let _ ← setRawProperty r h name raw
  | reflect target how args => do let _ ← Act.reflect p r target how args
  | invokeImport name args => do let _ ← Act.invokeImport p r name args
  | callImport name args => do let _ ← Act.callImport p r name args
  | callTyped name args type => do let _ ← Act.callTyped p r name args type
  | callFunction id args => do let _ ← Act.callFunction p r id args

/-- Whether it comes to the question who owns the realm. Nothing noted is nothing to collect, values
that are not kept by reference cross without the realm, and an argument is looked up in the realm if
it is to be a string or an object and is there. -/
def NeedsOwner (x : Realm) : Demand → Prop
  | collectGarbage => x.finalizers ≠ []
  | argument args type place =>
    (type = .string ∨ type = .object) ∧ (Foreign.handleAt? args place).isSome
  | lowerRaw v =>
    match v with
    | .string _ | .object _ => True
    | _ => False
  | liftRaw raw => raw.handle?.isSome
  | _ => True

/-- The handle whose string is read. -/
def reads? : Demand → Option Handle
  | loadString h => some h
  | argument args .string place => Foreign.handleAt? args place
  | _ => none

/-- What is left of the realm of work that was refused. -/
def left (x : Realm) (d : Demand) : Realm :=
  match d, d.reads? with
  | collectGarbage, _ => { x with finalizers := [] }
  | _, some h => x.claimLowered h
  | _, none => x

/-- Refused work has lost something: handles that were noted, or the listing of a string. -/
def Loses (x : Realm) (d : Demand) : Prop :=
  (d = collectGarbage ∧ x.finalizers ≠ []) ∨ ∃ h, d.reads? = some h ∧ x.Lists h

end Demand

end Realm

namespace Act

open World

variable {α β : Type}

/-- A thread that does not own the realm is turned away. -/
def TurnedAway (act : Act α) (w : World) (r : RealmId) (x y : Realm) : Prop :=
  exec act w = (.error (.misuse (.foreignThreadAccess x.thread)), w.withRealm r y)

section

variable {w : World} {r : RealmId} {x y : Realm}

theorem TurnedAway.bind {act : Act α} (away : TurnedAway act w r x y) (rest : α → Act β) :
    TurnedAway (act >>= rest) w r x y := by
  rw [TurnedAway, exec_bind, away, goOn_error]

variable (present : w.realms[r]? = some x) (foreign : x.owner ≠ w.here)
include present foreign

theorem turnedAway_assertOwner : TurnedAway (assertOwner r) w r x x := by
  rw [TurnedAway, w.withRealm_self r x present]
  exact exec_assertOwner_foreign w r x present foreign

/-- What was done to the realm before its owner was asked for is not undone. -/
theorem exec_assertOwner_written (y : Realm) (thread : y.thread = x.thread)
    (owner : y.owner = x.owner) :
    exec (assertOwner r) (w.withRealm r y) =
      (.error (.misuse (.foreignThreadAccess x.thread)), w.withRealm r y) := by
  rw [← thread]
  exact exec_assertOwner_foreign _ r y (realm_withRealm w r x y present) (owner ▸ foreign)

/-- A read claims the string before the thread is checked. -/
theorem turnedAway_loadString (h : Handle) :
    TurnedAway (loadString r h) w r x (x.claimLowered h) := by
  obtain ⟨lowered, frames, struck⟩ := x.claimLowered_eq h
  have away := exec_assertOwner_written present foreign (x.claimLowered h) (by rw [struck])
    (by rw [struck])
  rw [TurnedAway, loadString, exec_bind, exec_onRealm w r x present, goOn_ok, exec_bind, away,
    goOn_error]

/-- A collection takes what was noted before the thread is checked. -/
theorem turnedAway_collectGarbage (noted : x.finalizers ≠ []) :
    TurnedAway (collectGarbage r) w r x { x with finalizers := [] } := by
  have pending : x.finalizers.isEmpty = false := List.isEmpty_eq_false_iff.mpr noted
  have away := exec_assertOwner_written present foreign { x with finalizers := [] } rfl rfl
  simp only [TurnedAway, collectGarbage, exec_bind, exec_realm w r x present, goOn_ok, pending,
    Bool.false_eq_true, ↓reduceIte, exec_setRealm, away, goOn_error]

theorem turnedAway_read (h : Handle) : TurnedAway (read r h) w r x x :=
  (turnedAway_assertOwner present foreign).bind _

theorem turnedAway_retain (v : Host.Value) : TurnedAway (retain r v) w r x x :=
  (turnedAway_assertOwner present foreign).bind _

theorem turnedAway_objectAt (h : Handle) : TurnedAway (objectAt r h) w r x x :=
  (turnedAway_read present foreign h).bind _

theorem turnedAway_invokeImport (p : Performer) (name : String) (args : List Wire) :
    TurnedAway (invokeImport p r name args) w r x x :=
  (turnedAway_assertOwner present foreign).bind _

end

end Act

namespace Realm.Demand

open Act

variable {w : World} {r : RealmId} {x : Realm} (present : w.realms[r]? = some x)
  (foreign : x.owner ≠ w.here) (p : Performer)
include present foreign

/-- An argument that is a string is read, an object is looked up. -/
theorem turnedAway_argument (args : List Wire) (type : TakeType) (place : Nat)
    (needed : (Demand.argument args type place).NeedsOwner x) :
    TurnedAway (run p r (.argument args type place)) w r x
      ((Demand.argument args type place).left x) := by
  obtain ⟨kind, there⟩ := needed
  obtain ⟨h, found, same⟩ | ⟨missing, _⟩ := Foreign.handleAt_eq args place
  · refine TurnedAway.bind ?_ _
    rcases kind with rfl | rfl
    · have left : (Demand.argument args .string place).left x = x.claimLowered h := by
        simp only [Demand.left, reads?, found]
      rw [left, Foreign.take, same]
      change TurnedAway (Code.exec (perform p) (.ask (.loadString r h) _)) w r x _
      exact ((turnedAway_loadString present foreign h).bind _).bind _
    · rw [Foreign.take, same]
      change TurnedAway (Code.exec (perform p) (.ask (.read r h) _)) w r x _
      exact ((turnedAway_read present foreign h).bind _).bind _
  · rw [missing] at there
    cases there

theorem turnedAway (d : Demand) (needed : d.NeedsOwner x) :
    TurnedAway (d.run p r) w r x (d.left x) := by
  have asked := turnedAway_assertOwner present foreign
  cases d with
  | retain v | makeString text => exact (turnedAway_retain present foreign _).bind _
  | retainHandle | release | contains | refcount | liveCount | lowerString =>
    exact (asked.bind _).bind _
  | read h => exact (turnedAway_read present foreign h).bind _
  | collectGarbage => exact (turnedAway_collectGarbage present foreign needed).bind _
  | stringLength h | decodeString h room => exact ((asked.bind _).bind _).bind _
  | loadString h => exact (turnedAway_loadString present foreign h).bind _
  | argument args type place => exact turnedAway_argument present foreign p args type place needed
  | lowerRaw v =>
    cases v with
    | string s => exact ((turnedAway_retain present foreign _).bind _).bind _
    | object o =>
      refine TurnedAway.bind ?_ _
      rw [TurnedAway, Act.lowerRaw, exec_bind, exec_get, goOn_ok]
      exact (turnedAway_retain present foreign _).bind _
    | undefined | null | bool | number => exact absurd needed id
  | liftRaw raw =>
    refine TurnedAway.bind ?_ _
    obtain ⟨kind, int, number⟩ := raw
    cases kind with
    | string | object | function => exact turnedAway_read present foreign _
    | undefined | null | boolean | number => exact absurd needed (by simp [NeedsOwner, Raw.handle?])
  | getProperty h name | setProperty h name raw | reflect h how args =>
    exact ((turnedAway_objectAt present foreign h).bind _).bind _
  | invokeImport name args => exact (turnedAway_invokeImport present foreign p name args).bind _
  | callImport name args =>
    exact ((turnedAway_invokeImport present foreign p name args).bind _).bind _
  | callTyped name args type =>
    exact (((turnedAway_invokeImport present foreign p name args).bind _).bind _).bind _
  | callFunction id args => exact (asked.bind _).bind _

end Realm.Demand

namespace Realm

theorem claimLowered_eq_self_iff (x : Realm) (h : Handle) : x.claimLowered h = x ↔ ¬ x.Lists h := by
  refine ⟨fun same listed => ?_, x.claimLowered_of_unlisted h⟩
  have fewer := x.owed_claimLowered h listed h
  rw [same, Handle.only_self] at fewer
  omega

namespace Demand

open Act World

/-- What does not come to the question who owns the realm is not refused. -/
theorem served (p : Performer) (r : RealmId) (d : Demand) (w : World) (x : Realm)
    (present : w.realms[r]? = some x) (unneeded : ¬ d.NeedsOwner x) :
    ∃ u, exec (d.run p r) w = (.ok (), u) := by
  cases d with
  | collectGarbage =>
    have nothing : x.finalizers.isEmpty = true := List.isEmpty_iff.mpr (not_not.mp unneeded)
    refine ⟨w, ?_⟩
    simp only [run, Act.collectGarbage, exec_bind, exec_realm w r x present, goOn_ok, nothing,
      ↓reduceIte, exec_pure]
  | argument args type place =>
    have ends : ∃ outcome u, exec ((ExceptT.run (Foreign.take r args type place)).exec (perform p)) w =
        (.ok outcome, u) := by
      cases type with
      | string | object =>
        obtain ⟨h, found, _⟩ | ⟨_, message, same⟩ := Foreign.handleAt_eq args place
        · exact absurd ⟨by simp, by rw [found]; rfl⟩ unneeded
        · rw [Foreign.take, same]
          obtain ⟨v, u, thrown⟩ := Foreign.exec_typeError p message _ w
          exact ⟨_, u, thrown⟩
      | number | bool =>
        simp only [Foreign.take, Foreign.wordAt]
        cases args[place]? with
        | none => exact ⟨_, _, rfl⟩
        | some word => cases word <;> exact ⟨_, _, rfl⟩
    obtain ⟨outcome, u, done⟩ := ends
    exact ⟨u, by rw [run, exec_bind, done, goOn_ok, exec_pure]⟩
  | lowerRaw v =>
    cases v with
    | string | object => exact absurd trivial unneeded
    | undefined | null | bool | number => exact ⟨w, rfl⟩
  | liftRaw raw =>
    obtain ⟨kind, int, number⟩ := raw
    cases kind with
    | string | object | function => exact absurd rfl unneeded
    | undefined | null | boolean | number => exact ⟨w, rfl⟩
  | _ => exact absurd trivial unneeded

theorem left_of_reads (x : Realm) (d : Demand) (h : Handle) (reads : d.reads? = some h) :
    d.left x = x.claimLowered h := by
  cases d with
  | collectGarbage => cases reads
  | _ => simp only [left, reads]

theorem left_of_no_read (x : Realm) (d : Demand) (collects : d ≠ collectGarbage)
    (reads : d.reads? = none) : d.left x = x := by
  cases d with
  | collectGarbage => exact absurd rfl collects
  | _ => simp only [left, reads]

/-- Refused work leaves the realm as it was just where there was nothing to lose. -/
theorem left_eq_self_iff (x : Realm) (d : Demand) : d.left x = x ↔ ¬ d.Loses x := by
  by_cases collects : d = collectGarbage
  · subst collects
    have nothing : ({ x with finalizers := [] } : Realm) = x ↔ x.finalizers = [] :=
      ⟨fun same => (congrArg Realm.finalizers same).symm, fun empty => by rw [← empty]⟩
    simpa [left, Loses, reads?] using nothing
  · cases reads : d.reads? with
    | none => simp [d.left_of_no_read x collects reads, Loses, collects, reads]
    | some h =>
      rw [d.left_of_reads x h reads, claimLowered_eq_self_iff]
      simp [Loses, collects, reads]

/-- Refused work changes nothing but the list of what was noted and those of the strings. -/
theorem left_eq (x : Realm) (d : Demand) :
    ∃ finalizers lowered frames, d.left x = { x with finalizers, lowered, frames } := by
  by_cases collects : d = collectGarbage
  · subst collects
    exact ⟨[], x.lowered, x.frames, rfl⟩
  · cases reads : d.reads? with
    | none => exact ⟨_, _, _, d.left_of_no_read x collects reads⟩
    | some h =>
      obtain ⟨lowered, frames, struck⟩ := x.claimLowered_eq h
      exact ⟨x.finalizers, lowered, frames, (d.left_of_reads x h reads).trans struck⟩

/-- What a thread that does not own a realm brings about with any work on it. Work that comes to the
question who owns the realm is refused, and all other work is done. Refused work leaves the table,
the thrown value and the guest functions as they were, and it leaves the world as it was unless it is
a collection, which has emptied the list of what was noted, or the read of a listed string, which
has struck the string off. -/
theorem refusal (p : Performer) (r : RealmId) (d : Demand) (w : World) (x : Realm)
    (present : w.realms[r]? = some x) (foreign : x.owner ≠ w.here) :
    (d.NeedsOwner x →
      exec (d.run p r) w =
        (.error (.misuse (.foreignThreadAccess x.thread)), w.withRealm r (d.left x))) ∧
    (¬ d.NeedsOwner x → ∃ u, exec (d.run p r) w = (.ok (), u)) ∧
    (∃ finalizers lowered frames, d.left x = { x with finalizers, lowered, frames }) ∧
    (w.withRealm r (d.left x) = w ↔ ¬ d.Loses x) := by
  refine ⟨d.turnedAway present foreign p, d.served p r w x present,
    d.left_eq x, ?_⟩
  rw [← left_eq_self_iff]
  constructor
  · intro same
    have there := realm_withRealm w r x (d.left x) present
    rw [same, present] at there
    exact (Option.some.inj there).symm
  · intro same
    rw [same, w.withRealm_self r x present]

/-- A realm in which the only reference to a text waits to be given back. -/
def littered : Realm := ((blank.retain (.string "a")).2.scheduleFinalizer ⟨2⟩).2

/-- Another thread asks for a collection and is refused. When the owner collects afterwards nothing is
noted any more. -/
theorem refusal_of_collection :
    (World.lone littered []).realms[0]? = some littered ∧ littered.owner ≠ 1 ∧
      exec (collectGarbage.run outermost 0) { World.lone littered [] with here := 1 } =
        (.error (.misuse (.foreignThreadAccess ⟨0⟩)),
          { World.lone { littered with finalizers := [] } [] with here := 1 }) ∧
      exec (Act.collectGarbage 0) (World.lone { littered with finalizers := [] } []) =
        (.ok 0, World.lone { littered with finalizers := [] } []) := by
  have foreign : littered.owner ≠ 1 := by decide
  obtain ⟨refused, _⟩ := refusal outermost 0 collectGarbage { World.lone littered [] with here := 1 }
    littered rfl foreign
  exact ⟨rfl, foreign, refused (List.cons_ne_nil _ _), rfl⟩

end Demand

end Realm

end Membrane
