import Membrane.Proofs.Strings.Conduct
/-!
Records of what foreign code does to the references of a realm, calls of imports inside one another
included. A request that works on a reference or a string of the realm directly is counted for what
it is; of any other one it is known that the realm goes through some course meanwhile. Whatever is
run to its end has a record.
-/

set_option autoImplicit false

namespace Membrane

open Realm (Course)

/-- What a request does to a realm that it works on directly. -/
def Request.tally? (r : RealmId) (x : Realm) : Request → Option Tally
  | .retain s v => if s = r then some (.gain (x.retain v).1) else none
  | .release s h => if s = r then some (.loss x h) else none
  | .loadString s h => if s = r then some (.reading x h) else none
  | .lowerString s content => if s = r then some (.lowering (x.lowerString content).1) else none
  | _ => none

namespace Act

/-- A run of code that came to its end, with what it did to the references of a realm. -/
inductive Recorded (r : RealmId) :
    Performer → {α : Type} → Code α → World → Tally → α → World → Prop
  | done {p : Performer} {α : Type} (a : α) (w : World) : Recorded r p (.done a) w .none a w
  | direct {q : Performer} {α : Type} {request : Request} {next : request.Answer → Code α}
      {w w' w'' : World} {x : Realm} {answer : request.Answer} {s t : Tally} {a : α}
      (present : w.realms[r]? = some x) (counted : request.tally? r x = some s)
      (answered : exec (perform q request) w = (.ok answer, w'))
      (rest : Recorded r (perform q) (next answer) w' t a w'') :
      Recorded r (perform q) (.ask request next) w (s.followedBy t) a w''
  /-- An import is called that is there, and runs in a frame. -/
  | call {q : Performer} {α : Type} {name : String} {args : List Wire}
      {next : (Request.invokeImport r name args).Answer → Code α} {w u w' w'' : World}
      {x z : Realm} {i : Import} {outcome : Except Host.Value Wire}
      {word : (Request.invokeImport r name args).Answer} {s t : Tally} {a : α}
      (present : w.realms[r]? = some x) (known : w.runtime.import? name = some i)
      (inside : Recorded r q (i.run r args) (w.withRealm r x.openFrame) s outcome u)
      (last : u.realms[r]? = some z)
      (answered : exec (perform q (.invokeImport r name args)) w = (.ok word, w'))
      (rest : Recorded r (perform q) (next word) w' t a w'') :
      Recorded r (perform q) (.ask (.invokeImport r name args) next) w
        ((s.closing z).followedBy t) a w''
  /-- An import is called that is not there. -/
  | missing {q : Performer} {α : Type} {name : String} {args : List Wire}
      {next : (Request.invokeImport r name args).Answer → Code α} {w w' w'' : World} {x : Realm}
      {word : (Request.invokeImport r name args).Answer} {t : Tally} {a : α}
      (present : w.realms[r]? = some x) (unknown : w.runtime.import? name = none)
      (answered : exec (perform q (.invokeImport r name args)) w = (.ok word, w'))
      (rest : Recorded r (perform q) (next word) w' t a w'') :
      Recorded r (perform q) (.ask (.invokeImport r name args) next) w
        ((Tally.none.closing x.openFrame).followedBy t) a w''
  | other {q : Performer} {α : Type} {request : Request} {next : request.Answer → Code α}
      {w w' w'' : World} {x y : Realm} {answer : request.Answer} {s t : Tally} {a : α}
      (present : w.realms[r]? = some x) (uncounted : request.tally? r x = none)
      (uncalled : ∀ name args, request ≠ .invokeImport r name args)
      (answered : exec (perform q request) w = (.ok answer, w'))
      (last : w'.realms[r]? = some y) (course : Course x s y)
      (rest : Recorded r (perform q) (next answer) w' t a w'') :
      Recorded r (perform q) (.ask request next) w (s.followedBy t) a w''

variable {α : Type} {r : RealmId} {p : Performer} {c : Code α} {w w' : World} {t : Tally} {a : α}

theorem exec_ask (p : Performer) (request : Request) (next : request.Answer → Code α) (w : World) :
    exec ((Code.ask request next).exec p) w =
      goOn (exec (p request) w) fun answer => (next answer).exec p :=
  exec_bind _ _ w

theorem exec_ask_of_answered {request : Request} {next : request.Answer → Code α}
    {answer : request.Answer} (answered : exec (p request) w = (.ok answer, w')) :
    exec ((Code.ask request next).exec p) w = exec ((next answer).exec p) w' :=
  (exec_ask p request next w).trans (congrArg (goOn · _) answered)

theorem exec_request (p : Performer) (request : Request) (w : World) :
    exec ((Code.request request).exec p) w = exec (p request) w := by
  rw [Code.request, exec_ask]
  rcases exec (p request) w with ⟨halt | answer, w'⟩ <;> rfl

/-- Text that is read brings no object, and neither does the fault where there is none. -/
theorem exec_perform_loadString (p : Performer) (w : World) (r : RealmId) (x : Realm)
    (present : w.realms[r]? = some x) (owner : x.owner = w.here) (h : Handle) :
    exec (perform p (.loadString r h)) w =
      (.ok (x.stringAt w.heap.typeName h), w.withRealm r (x.read h)) := by
  refine exec_perform_of_bare p _ _ _ _ ?_ (exec_loadString w r x present owner h)
  rw [Realm.stringAt, RefTable.get]
  rcases x.table.find? h with - | ⟨v, n⟩
  · rfl
  · cases v <;> rfl

/-- What is recorded is what is run. -/
theorem Recorded.exec (recorded : Recorded r p c w t a w') :
    Act.exec (c.exec p) w = (.ok a, w') := by
  induction recorded with
  | done a w => rfl
  | direct _ _ answered _ ih | call _ _ _ _ answered _ _ ih | missing _ _ answered _ ih
  | other _ _ _ answered _ _ _ ih => exact (exec_ask_of_answered answered).trans ih

/-- A request that works on a realm directly does what it is counted for. -/
theorem course_of_tally? {q : Performer} {request : Request} {answer : request.Answer} {x : Realm}
    (present : w.realms[r]? = some x) (counted : request.tally? r x = some t)
    (answered : Act.exec (perform q request) w = (.ok answer, w')) :
    ∃ y, w'.realms[r]? = some y ∧ Course x t y := by
  obtain ⟨u, done, rfl⟩ := exec_perform_eq_ok q request w w' answer answered
  suffices ∃ y, u.realms[r]? = some y ∧ Course x t y from this
  clear answered
  cases request with
  | retain s v =>
    obtain ⟨rfl, same⟩ := Option.ite_none_right_eq_some.mp counted
    cases same
    have owner := owner_of_asserted w s x present _ _ _ done
    have last := (exec_retain w s x present owner v).symm.trans done
    cases last
    exact ⟨_, realm_withRealm w s x _ present, .retain x v⟩
  | release s h =>
    obtain ⟨rfl, same⟩ := Option.ite_none_right_eq_some.mp counted
    cases same
    have owner := owner_of_asserted w s x present _ _ _ done
    have last := (exec_release w s x present owner h).symm.trans done
    have quiet := x.releaseQuietly_eq h
    rw [Realm.releaseQuietly] at quiet
    refine ⟨_, ?_, .release x h⟩
    rw [← quiet]
    cases result : x.release h with
    | ok y =>
      rw [result] at last
      cases last
      exact realm_withRealm w s x y present
    | error e =>
      rw [result] at last
      cases last
      exact present
  | loadString s h =>
    obtain ⟨rfl, same⟩ := Option.ite_none_right_eq_some.mp counted
    cases same
    obtain ⟨y, there, _, rfl⟩ := exec_loadString_eq_ok w s h u answer done
    obtain rfl := Option.some.inj (present.symm.trans there)
    exact ⟨_, realm_withRealm w s x _ present, .read x h⟩
  | lowerString s content =>
    obtain ⟨rfl, same⟩ := Option.ite_none_right_eq_some.mp counted
    cases same
    have owner := owner_of_asserted w s x present _ _ _ done
    have last := (exec_lowerString w s x present owner content).symm.trans done
    cases last
    exact ⟨_, realm_withRealm w s x _ present, .lower x content⟩
  | _ => cases counted

/-- Nothing comes after what changes none of the holdings. -/
theorem course_aside {x y z : Realm} (course : Course x t y) (same : z.holdings = y.holdings) :
    Course x t z := by
  have last := course.andThen (.aside same)
  rwa [Tally.followedBy_none] at last

/-- A call goes through the course of its import and gives back what is left of its frame. -/
theorem course_of_call {q : Performer} {name : String} {args : List Wire} {u : World}
    {outcome : Except Host.Value Wire} {word : Wire} {x z : Realm}
    (present : w.realms[r]? = some x)
    (run : Act.exec (runImport q r name args) (w.withRealm r x.openFrame) = (.ok outcome, u))
    (last : u.realms[r]? = some z) (course : Course x.openFrame t z)
    (answered : Act.exec (invokeImport q r name args) w = (.ok word, w')) :
    ∃ y, w'.realms[r]? = some y ∧ Course x (t.closing z) y := by
  have owner : x.owner = w.here := by
    rw [invokeImport_eq] at answered
    exact owner_of_asserted w r x present _ _ _ answered
  rw [exec_invokeImport w q r x present owner, run, goOn_ok, exec_endImport u r z last] at answered
  cases answered
  exact ⟨_, realm_withRealm u r z _ last,
    course_aside course.call (z.closeFrame.holdings_answered outcome)⟩

theorem exec_runImport_of_known (q : Performer) (name : String) (args : List Wire) (i : Import)
    (w : World) (known : w.runtime.import? name = some i) :
    Act.exec (runImport q r name args) w = Act.exec ((i.run r args).exec q) w := by
  rw [runImport, exec_bind, exec_get, goOn_ok, known]

theorem exec_runImport_of_unknown (q : Performer) (name : String) (args : List Wire)
    (w : World) (unknown : w.runtime.import? name = none) :
    ∃ v w', Act.exec (runImport q r name args) w = (.ok (.error v), w') ∧ w'.realms = w.realms := by
  let thrown := w.heap.newError "TypeError" (name ++ " is not an imported function")
  refine ⟨thrown.1, { w with heap := thrown.2 }, ?_, rfl⟩
  rw [runImport, exec_bind, exec_get, goOn_ok, unknown]
  rfl

theorem Recorded.course (recorded : Recorded r p c w t a w') (x : Realm)
    (present : w.realms[r]? = some x) : ∃ y, w'.realms[r]? = some y ∧ Course x t y := by
  induction recorded generalizing x with
  | done a w => exact ⟨x, present, .aside rfl⟩
  | direct there counted answered _ ih =>
    obtain rfl := Option.some.inj (there.symm.trans present)
    obtain ⟨y, between, first⟩ := course_of_tally? there counted answered
    obtain ⟨z, last, rest⟩ := ih y between
    exact ⟨z, last, first.andThen rest⟩
  | @call q β name args next v u v' v'' x' z i outcome word s t b there known inside last answered
      rest ihInside ihRest =>
    obtain rfl := Option.some.inj (there.symm.trans present)
    obtain ⟨z', same, course⟩ := ihInside _ (realm_withRealm v r x' _ there)
    obtain rfl := Option.some.inj (last.symm.trans same)
    have run : Act.exec (runImport q r name args) (v.withRealm r x'.openFrame) =
        (.ok outcome, u) := by
      rw [exec_runImport_of_known q name args i (v.withRealm r x'.openFrame) known]
      exact inside.exec
    obtain ⟨_, called, rfl⟩ := exec_perform_eq_ok _ _ _ _ _ answered
    obtain ⟨y, between, first⟩ := course_of_call there run last course called
    obtain ⟨z'', final, more⟩ := ihRest y between
    exact ⟨z'', final, first.andThen more⟩
  | @missing q β name args next v v' v'' x' word t b there unknown answered rest ih =>
    obtain rfl := Option.some.inj (there.symm.trans present)
    obtain ⟨e, u, run, realms⟩ :=
      exec_runImport_of_unknown (r := r) q name args (v.withRealm r x'.openFrame) unknown
    have last : u.realms[r]? = some x'.openFrame := realms ▸ realm_withRealm v r x' _ there
    obtain ⟨_, called, rfl⟩ := exec_perform_eq_ok _ _ _ _ _ answered
    obtain ⟨y, between, first⟩ := course_of_call there run last (.aside rfl) called
    obtain ⟨z, final, more⟩ := ih y between
    exact ⟨z, final, first.andThen more⟩
  | other there _ _ _ between first _ ih =>
    obtain rfl := Option.some.inj (there.symm.trans present)
    obtain ⟨z, last, rest⟩ := ih _ between
    exact ⟨z, last, first.andThen rest⟩

/-- Every run that comes to its end has a record. -/
theorem exists_recorded (depth : Nat) (c : Code α) (w w' : World) (a : α) (x : Realm)
    (present : w.realms[r]? = some x) (run : Act.exec (c.exec (performer depth)) w = (.ok a, w')) :
    ∃ t, Recorded r (performer depth) c w t a w' := by
  induction depth generalizing α w w' a x with
  | zero =>
    cases c with
    | done b =>
      cases run
      exact ⟨.none, .done _ _⟩
    | ask request next =>
      rw [exec_ask] at run
      cases run
  | succ depth inner =>
    induction c generalizing w x with
    | done b =>
      cases run
      exact ⟨.none, .done _ _⟩
    | ask request next ih =>
      obtain ⟨answer, v, answered, rest⟩ := exec_bind_eq_ok _ _ _ _ _ run
      obtain ⟨s, y, between, course⟩ :=
        (OnCourse.performer (depth + 1) request w v answer answered).course r x present
      obtain ⟨t, recorded⟩ := ih answer v y between rest
      cases counted : request.tally? r x with
      | some s => exact ⟨_, .direct present counted answered recorded⟩
      | none =>
        by_cases called : ∃ name args, request = .invokeImport r name args
        · obtain ⟨name, args, rfl⟩ := called
          cases known : w.runtime.import? name with
          | none => exact ⟨_, .missing present known answered recorded⟩
          | some i =>
            obtain ⟨_, done, rfl⟩ := exec_perform_eq_ok _ _ _ _ _ answered
            obtain ⟨x', outcome, u, there, _, inside, _⟩ :=
              exec_invokeImport_eq_ok w (performer depth) r name args _ answer done
            obtain rfl := Option.some.inj (present.symm.trans there)
            have opened := realm_withRealm w r x x.openFrame present
            rw [exec_runImport_of_known _ name args i (w.withRealm r x.openFrame) known] at inside
            obtain ⟨_, z, last, _⟩ :=
              (OnCourse.code (OnCourse.performer depth) _ _ u outcome inside).course r _ opened
            obtain ⟨s, run⟩ := inner _ _ _ outcome _ opened inside
            exact ⟨_, .call present known run last answered recorded⟩
        · have uncalled : ∀ name args, request ≠ .invokeImport r name args :=
            fun name args same => called ⟨name, args, same⟩
          exact ⟨_, .other present counted uncalled answered between course recorded⟩

end Act

namespace World

/-- A world with one realm and some imports. -/
def lone (x : Realm) (imports : List (String × Import)) : World :=
  { World.create .default with
    realms := #[x], runtime := { Runtime.create .default with imports } }

theorem withRealm_lone (x y : Realm) (imports : List (String × Import)) :
    (lone x imports).withRealm 0 y = lone y imports := rfl

end World

namespace Realm

/-- A realm with nothing in it. -/
def blank : Realm := .create ⟨0⟩ 0 0 (.negotiate true) .dense 0

/-- The handle of a text that somebody holds a reference to. -/
def sharedHandle : Handle := (blank.retain (.string "a")).1

/-- A realm in which a text that somebody holds is lowered as well. -/
def shared : Realm := ((blank.retain (.string "a")).2.lowerString "a").2

theorem shared_state :
    shared.table.Sound (.object 0) ∧ shared.table.RoomFor 1 ∧ shared.frames = [] ∧
      shared.lowered = [sharedHandle] ∧ shared.table.lent sharedHandle = 2 := by
  have start : blank.table.Sound (.object 0) := RefTable.create_sound .dense (.object 0)
  have room : blank.table.RoomFor 3 := RefTable.create_roomFor .dense (.object 0) (by decide)
  obtain ⟨kept, left, first⟩ := start.retain_lent (.string "a") room
  obtain ⟨sound, rest, second⟩ := kept.retain_lent (.string "a") left
  have again : ((blank.table.retain (.string "a")).2.retain (.string "a")).1 = sharedHandle :=
    start.retain_retain_fst (.string "a") room
  refine ⟨sound, rest, rfl, congrArg (fun h => [h]) again, ?_⟩
  have none : blank.table.lent sharedHandle = 0 := RefTable.lent_create .dense (.object 0) _
  have two := second sharedHandle
  rw [again, Handle.only_self, first sharedHandle, none] at two
  exact two.trans (congrArg (0 + · + 1) (Handle.only_self sharedHandle))

end Realm

namespace Act

open World

variable (x : Realm) (imports : List (String × Import))

/-- A call of an import that is there, from its run in the frame. -/
theorem exec_invokeImport_lone (p : Performer) (owner : x.owner = 0) (name : String)
    (args : List Wire) (i : Import) (known : imports.lookup name = some i)
    (outcome : Except Host.Value Wire) (z : Realm)
    (run : exec ((i.run 0 args).exec p) (lone x.openFrame imports) =
      (.ok outcome, lone z imports)) :
    exec (invokeImport p 0 name args) (lone x imports) =
      (.ok (.answer outcome), lone (z.closeFrame.answered outcome) imports) := by
  have there : (lone x.openFrame imports).runtime.import? name = some i := known
  rw [exec_invokeImport (lone x imports) p 0 x rfl owner, withRealm_lone,
    exec_runImport_of_known p name args i _ there, run, goOn_ok, exec_endImport _ 0 z rfl]
  rfl

/-- The same call, asked for by code. -/
theorem exec_perform_invokeImport_lone (p : Performer) (owner : x.owner = 0) (name : String)
    (args : List Wire) (i : Import) (known : imports.lookup name = some i)
    (outcome : Except Host.Value Wire) (z : Realm)
    (run : exec ((i.run 0 args).exec p) (lone x.openFrame imports) =
      (.ok outcome, lone z imports)) :
    exec (perform p (.invokeImport 0 name args)) (lone x imports) =
      (.ok (.answer outcome), lone (z.closeFrame.answered outcome) imports) :=
  (exec_perform_invokeImport p 0 name args _).trans
    (exec_invokeImport_lone x imports p owner name args i known outcome z run)

end Act

end Membrane
