import Membrane.Proofs.Calls.Tree
import Membrane.Proofs.Strings.Nesting
/-!
What the calls in a tree of calls report. A call reports a thrown value when the code that it ran
threw it, and only then: what was thrown further inside and handled there does not come up again.
-/

set_option autoImplicit false

namespace Membrane

/-- A call out of a guest. -/
inductive GuestCall
  | ofImport (realm : RealmId) (name : String) (args : List Wire)
  /-- A call of an import whose answer is read as a type. -/
  | typedImport (realm : RealmId) (name : String) (args : List Wire) (type : Guest.ResultType)
  /-- A call of the object at a handle. -/
  | reflective (realm : RealmId) (target : Handle) (how : Reflection) (args : List Raw)
  /-- A call of a guest value. -/
  | ofValue (target : Guest.Value) (how : Reflection) (args : List Guest.Value)
  | ofClosure (closure : Guest.Closure) (args : List Guest.Value)

namespace GuestCall

open Act World

def Result : GuestCall → Type
  | ofImport .. => Wire
  | typedImport .. => Guest.Result
  | reflective .. => Raw
  | ofValue .. => Guest.Value
  | ofClosure .. => Guest.Value

def act (p : Performer) : (k : GuestCall) → Act (Except Fault k.Result)
  | ofImport s name args => callImport p s name args
  | typedImport s name args type => callTyped p s name args type
  | reflective s target how args => Act.reflect p s target how args
  | ofValue target how args => Act.reflectGuest p target how args
  | ofClosure c args => callClosure p c args

/-- What a call begins to run. -/
def Begins : GuestCall → World → Frame → Prop
  | ofImport s name args, w, f => ImportBegins s name args w f
  | typedImport s name args _, w, f => ImportBegins s name args w f
  | reflective s target how args, w, f => Act.Begins (.reflect s target how args) w f
  | ofValue target how args, w, f => Act.Begins (.reflectGuest target how args) w f
  | ofClosure c args, w, f => ∃ function u, exec (functionOf c) w = (.ok (.ok function), u) ∧
      Act.Begins (.reflectGuest function .call args) u f

/-- What a call runs throws a value. An import that is missing and an object that is not a function
throw a type error. -/
def Throws (p : Performer) : GuestCall → World → Host.Value → Prop
  | ofImport s name args => ImportThrows p s name args
  | typedImport s name args _ => ImportThrows p s name args
  | reflective s target how args => ReflectThrows p s target how args
  | ofValue target how args => GuestThrows p target how args
  | ofClosure c args => ClosureThrows p c args

/-- What a call makes for the code that it runs can be given back after it. -/
def GivesBack (p : Performer) : GuestCall → World → Prop
  | ofImport .. | typedImport .. | reflective .. => fun _ => True
  | ofValue target how args => GuestGivesBack p target how args
  | ofClosure c args => ClosureGivesBack p c args

/-- The call of an import goes through the slot of the import's realm. -/
def InRealm (r : RealmId) : GuestCall → Prop
  | ofImport s .. | typedImport s .. => s = r
  | reflective .. | ofValue .. | ofClosure .. => True

/-- What code asks for that makes a call. A closure is called by a call of a guest value. -/
def request? : GuestCall → Option Request
  | ofImport s name args => some (.invokeImport s name args)
  | reflective s target how args => some (.reflect s target how args)
  | ofValue target how args => some (.reflectGuest target how args)
  | typedImport .. | ofClosure .. => none

variable {r : RealmId} {p : Performer}

theorem begins_of_request (k : GuestCall) (request : Request) (asks : k.request? = some request)
    (w : World) (f : Frame) (begins : k.Begins w f) : Act.Begins request w f := by
  cases k with
  | ofImport s name args =>
    obtain rfl := Option.some.inj asks
    exact .invokeImport begins
  | reflective s target how args =>
    obtain rfl := Option.some.inj asks
    exact begins
  | ofValue target how args =>
    obtain rfl := Option.some.inj asks
    exact begins
  | typedImport | ofClosure => cases asks

/-- A call leaves an empty slot empty if what it runs does. -/
theorem spares (k : GuestCall) (w w' : World) (result : Except Fault k.Result)
    (frames : ∀ f, k.Begins w f → f.Clean p r) (done : exec (k.act p) w = (.ok result, w')) :
    Spares r w w' := by
  cases k with
  | ofImport s name args => exact spares_callImport s name args w w' result frames done
  | typedImport s name args type =>
    obtain ⟨answer, u, called, _, read⟩ := callTyped_eq_ok s name args type w w' result done
    exact read ∘ spares_callImport s name args w u answer frames called
  | reflective s target how args => exact spares_reflect s target how args w w' result frames done
  | ofValue target how args => exact spares_reflectGuest target how args w w' result frames done
  | ofClosure c args =>
    exact spares_callClosure c args w w' result
      (fun function u f made begins => frames f ⟨function, u, made, begins⟩) done

/-- Where nothing else is in the slot, a call reports what the code threw that it ran. -/
theorem reported_act (k : GuestCall) (w w' : World) (result : Except Fault k.Result)
    (frames : ∀ f, k.Begins w f → f.Clean p r) (empty : w.slot r = none) (inside : k.InRealm r)
    (done : exec (k.act p) w = (.ok result, w')) (v : Host.Value) :
    reported result = some v ↔ k.Throws p w v ∧ k.GivesBack p w := by
  cases k with
  | ofImport s name args =>
    obtain rfl : s = r := inside
    have told := reported_callImport name args w w' result frames empty done v
    exact told.trans (iff_of_eq (and_true _).symm)
  | typedImport s name args type =>
    obtain rfl : s = r := inside
    obtain ⟨answer, u, called, same, _⟩ :=
      callTyped_eq_ok (r := s) s name args type w w' result done
    have told := reported_callImport name args w u answer frames empty called v
    rw [← same] at told
    exact told.trans (iff_of_eq (and_true _).symm)
  | reflective s target how args =>
    have told := reported_reflect s target how args w w' result done v
    exact told.trans (iff_of_eq (and_true _).symm)
  | ofValue target how args => exact reported_reflectGuest target how args w w' result done v
  | ofClosure c args => exact reported_callClosure c args w w' result done v

theorem spares_of_begins (k : GuestCall) (w : World) (f : Frame) (begins : k.Begins w f) :
    Spares r w f.world := by
  cases k with
  | ofImport | typedImport => exact begins.spares
  | reflective | ofValue => exact begins.spares
  | ofClosure c args =>
    obtain ⟨function, u, made, begins⟩ := begins
    intro empty
    exact begins.spares (slot_of_keeps (.functionOf c) made empty)

/-- All code that is run in a tree of calls is checked. -/
def CheckedTree (d : Nat) (k : GuestCall) (w : World) : Prop :=
  ∀ f, k.Begins w f → f.code.Checked ∧ CheckedBelow d f

/-- The calls that are made in a tree of calls, each with what is left of the depth and the world in
which it is made. -/
inductive Made (d : Nat) (k : GuestCall) (w : World) : Nat → GuestCall → World → Prop
  | outermost : Made d k w d k w
  | inner {α : Type} {e : Nat} {k' : GuestCall} {request : Request} {next : request.Answer → Code α}
      {u : World} {f : Frame} (begins : k.Begins w f)
      (reached : Reaches d f (e + 1) ⟨.ask request next, u⟩) (asks : k'.request? = some request) :
      Made d k w e k' u

/-- A call in a tree of calls stands as the outermost one does. -/
theorem Made.ready {d e : Nat} {k k' : GuestCall} {w u : World} (made : Made d k w e k' u)
    (tree : CheckedTree d k w) (empty : w.slot r = none) : u.slot r = none ∧ CheckedTree e k' u := by
  cases made with
  | outermost => exact ⟨empty, tree⟩
  | @inner _ _ _ request next _ f begins reached asks =>
    obtain ⟨checked, below⟩ := tree f begins
    have start := k.spares_of_begins w f begins empty
    obtain ⟨ready, below⟩ := reached.ready (.settled checked start) below
    have further (g : Frame) (begins : k'.Begins u g) : g.code.Checked ∧ CheckedBelow e g :=
      below.inside (k'.begins_of_request request asks u g begins)
    cases ready with
    | settled _ empty => exact ⟨empty, further⟩
    | answered => cases k' <;> cases asks

/-- In a tree of checked code the slot is empty whenever a call is made and whenever it is over, and
what a call reports to have been thrown was thrown by what it ran. -/
theorem throws_reach_their_callers (r : RealmId) (d : Nat) (k : GuestCall) (w : World)
    (tree : CheckedTree d k w) (empty : w.slot r = none) (e : Nat) (k' : GuestCall) (u : World)
    (made : Made d k w e k' u) :
    u.slot r = none ∧
      ∀ (result : Except Fault k'.Result) (u' : World),
        exec (k'.act (performer e)) u = (.ok result, u') →
          u'.slot r = none ∧
            (k'.InRealm r → ∀ v, result = .error (.hostException v) ↔
              k'.Throws (performer e) u v ∧ k'.GivesBack (performer e) u) := by
  obtain ⟨start, further⟩ := made.ready tree empty
  refine ⟨start, ?_⟩
  intro result u' done
  have frames (f : Frame) (begins : k'.Begins u f) : f.Clean (performer e) r :=
    clean_of_checked e f (further f begins).1 (further f begins).2
  refine ⟨k'.spares u u' result frames done start, ?_⟩
  intro inside v
  rw [← reported_eq_some_iff]
  exact k'.reported_act u u' result frames start inside done v

end GuestCall

namespace Import

/-- Throws a value. -/
def throwing (v : Host.Value) : Import where
  holds := [v]
  run _ _ := .done (.error v)

/-- Calls another import and goes on whatever it throws. -/
def catching (name : String) : Import where
  holds := []
  run r _ := .ask (.invokeImport r name []) fun _ =>
    .ask (.takeException r) fun _ => .done (.ok .void)

end Import

namespace GuestCall

open Act World

theorem checkedTree_catching :
    CheckedTree 1 (.ofImport 0 "f" [])
      (lone .blank [("f", .catching "g"), ("g", .throwing (.string "a"))]) := by
  intro f begins
  cases begins with
  | run present known =>
    obtain rfl : Import.catching "g" = _ := Option.some.inj known
    refine ⟨.call fun _ _ => .done _, checkedBelow_call ?_ fun _ _ _ => checkedBelow_done _⟩
    intro g begins
    cases begins with
    | run present known =>
      obtain rfl : Import.throwing (.string "a") = _ := Option.some.inj known
      exact ⟨.done _, checkedBelow_zero _⟩

/-- An import catches what another one throws. -/
theorem throws_reach_their_callers_of_caught :
    let w := lone .blank [("f", .catching "g"), ("g", .throwing (.string "a"))]
    w.slot 0 = none ∧
      ∃ u u' w', Made 1 (.ofImport 0 "f" []) w 0 (.ofImport 0 "g" []) u ∧
        exec (callImport (performer 0) 0 "g" []) u =
          (.ok (.error (.hostException (.string "a"))), u') ∧ u'.slot 0 = none ∧
        exec (callImport (performer 1) 0 "f" []) w = (.ok (.ok .void), w') ∧ w'.slot 0 = none := by
  intro w
  have tree : CheckedTree 1 (.ofImport 0 "f" []) w := checkedTree_catching
  let imports := [("f", Import.catching "g"), ("g", Import.throwing (.string "a"))]
  -- the realms in which the two imports run, and those after them
  let x := Realm.blank.openFrame
  let y := x.openFrame
  let y' := y.closeFrame.answered (.error (.string "a"))
  let x' := y'.takeException.2
  have thrown : exec (((Import.throwing (.string "a")).run 0 []).exec (performer 0))
      (lone y imports) = (.ok (.error (.string "a")), lone y imports) := rfl
  have run : exec (runImport (performer 0) 0 "g" []) (lone y imports) =
      (.ok (.error (.string "a")), lone y imports) :=
    (exec_runImport_of_known (performer 0) "g" [] (.throwing (.string "a")) _ rfl).trans thrown
  have inner := exec_callImport (lone x imports) (performer 0) 0 "g" [] x y rfl rfl _ _ run rfl
  have answered : exec (performer 1 (.invokeImport 0 "g" [])) (lone x imports) = _ :=
    exec_perform_invokeImport_lone x imports (performer 0) rfl "g" [] _ rfl _ y thrown
  have taken : exec (performer 1 (.takeException 0)) (lone y' imports) =
      (.ok (some (.string "a")), lone x' imports) :=
    exec_perform_of_bare (performer 0) (.takeException 0) _ _ _ rfl
      (exec_onRealm _ 0 y' rfl Realm.takeException)
  have caught : exec (((Import.catching "g").run 0 []).exec (performer 1)) (lone x imports) =
      (.ok (.ok .void), lone x' imports) :=
    (exec_ask_of_answered answered).trans (exec_ask_of_answered taken)
  have run : exec (runImport (performer 1) 0 "f" []) (lone x imports) =
      (.ok (.ok .void), lone x' imports) :=
    (exec_runImport_of_known (performer 1) "f" [] (.catching "g") _ rfl).trans caught
  have outer := exec_callImport w (performer 1) 0 "f" [] .blank x' rfl rfl _ _ run rfl
  have made : Made 1 (.ofImport 0 "f" []) w 0 (.ofImport 0 "g" []) (lone x imports) :=
    .inner (.run rfl rfl) (.here _ _) rfl
  obtain ⟨_, within⟩ := throws_reach_their_callers 0 1 _ w tree rfl _ _ _ made
  obtain ⟨_, around⟩ := throws_reach_their_callers 0 1 _ w tree rfl _ _ _ .outermost
  have left : x'.exception = none := rfl
  rw [left] at outer
  exact ⟨rfl, _, _, _, made, inner, (within _ _ inner).1, outer, (around _ _ outer).1⟩

end GuestCall

namespace Realm

/-- A realm in which somebody holds a text. -/
def withText : Realm := (blank.retain (.string "a")).2

theorem withText_state :
    withText.table.Sound (.object 0) ∧ withText.table.get .globalObject = .ok (.object 0) ∧
      withText.table.get sharedHandle = .ok (.string "a") ∧
      withText.table.lent sharedHandle = 1 ∧ RefTable.rooted sharedHandle = 0 := by
  have start : blank.table.Sound (.object 0) := RefTable.create_sound .dense (.object 0)
  have room : blank.table.RoomFor 1 := RefTable.create_roomFor .dense (.object 0) (by decide)
  obtain ⟨kept, _, more⟩ := start.retain_lent (.string "a") room
  obtain ⟨⟨u, there, same⟩, _⟩ := start.value?_retain_within _ (room.fits_retain (.string "a"))
  obtain rfl : u = .string "a" := by
    cases u <;> cases same
    rfl
  have apart : sharedHandle ≠ .globalObject := by
    intro same
    have root := kept.root
    rw [← same] at root
    cases there.symm.trans root
  have none : blank.table.lent sharedHandle = 0 := RefTable.lent_create .dense (.object 0) _
  have one := more sharedHandle
  rw [none, Nat.zero_add] at one
  exact ⟨kept, (RefTable.get_eq_ok_iff _ _).mpr kept.root, (RefTable.get_eq_ok_iff _ _).mpr there,
    one.trans (Handle.only_self sharedHandle), if_neg apart⟩

/-- The realm when the reference to the text is given back. -/
def spent : Realm := { withText with table := withText.table.releaseQuietly sharedHandle }

theorem release_spent :
    spent.release sharedHandle = .error (.invalidReference sharedHandle .release) := by
  obtain ⟨sound, _, _, one, free⟩ := withText_state
  obtain ⟨kept, less⟩ := sound.releaseQuietly sharedHandle
  have count := kept.count_eq_lent sharedHandle
  rw [less, Handle.only_self, one, free] at count
  have gone : spent.table.find? sharedHandle = none := by
    rw [← Option.not_isSome_iff_eq_none, spent, ← kept.count_pos_iff, count]
    exact Nat.lt_irrefl 0
  rw [release, RefTable.release_of_dead _ gone]
  rfl

end Realm

/-- Has an import read a text that somebody holds, and throws when that is over. -/
def Host.Function.spending : Host.Function where
  holds := []
  run _ _ := .ask (.invokeImport 0 "g" [.ofHandle Realm.sharedHandle]) fun _ =>
    .ask (.takeException 0) fun _ => .done (.error (.string "b"))

namespace World

/-- A world in which the global object is a function that spends what somebody else holds. -/
def spending (y : Realm) : World :=
  { lone y [("g", .reading)] with heap := ⟨#[⟨none, .function .spending, []⟩]⟩ }

end World

namespace Act

open World

theorem exec_spending (this : Host.Value) (args : List Host.Value) (w : World)
    (present : w.realms[0]? = some .withText) (here : w.here = 0)
    (known : w.runtime.import? "g" = some .reading) :
    exec ((Host.Function.spending.run this args).exec (performer 2)) w =
      (.ok (.error (.string "b")), w.withRealm 0 .spent) := by
  let h := Realm.sharedHandle
  let y := Realm.withText.openFrame
  let u := w.withRealm 0 y
  have opened : u.realms[0]? = some y := realm_withRealm w 0 _ y present
  have unlisted : ¬ y.Lists h := fun listed => listed.elim List.not_mem_nil List.not_mem_nil
  have left : y.read h = Realm.spent.openFrame := by
    rw [Realm.read, y.claimLowered_of_unlisted h unlisted, Realm.releaseQuietly_eq]
    rfl
  have read : exec (performer 1 (.loadString 0 h)) u =
      (.ok (y.stringAt u.heap.typeName h), w.withRealm 0 Realm.spent.openFrame) := by
    have done := exec_perform_loadString (performer 0) u 0 y opened here.symm h
    rw [left, withRealm_withRealm] at done
    exact done
  have run : exec (runImport (performer 1) 0 "g" [.ofHandle h]) u =
      (.ok (.ok .void), w.withRealm 0 Realm.spent.openFrame) :=
    (exec_runImport_of_known (performer 1) "g" [.ofHandle h] .reading u known).trans
      (exec_ask_of_answered read)
  have invoked : exec (performer 2 (.invokeImport 0 "g" [.ofHandle h])) w =
      (.ok Wire.void, w.withRealm 0 .spent) := by
    have done := exec_invokeImport w (performer 1) 0 _ present here.symm "g" [.ofHandle h]
    rw [run, goOn_ok, exec_endImport _ 0 _ (realm_withRealm w 0 _ _ present),
      withRealm_withRealm] at done
    exact (exec_perform_invokeImport (performer 1) 0 "g" [.ofHandle h] w).trans done
  have taken : exec (performer 2 (.takeException 0)) (w.withRealm 0 .spent) =
      (.ok none, w.withRealm 0 .spent) := by
    have done := exec_onRealm _ 0 _ (realm_withRealm w 0 _ Realm.spent present) Realm.takeException
    rw [withRealm_withRealm] at done
    exact exec_perform_of_bare (performer 1) (.takeException 0) _ _ _ rfl done
  exact (exec_ask_of_answered invoked).trans (exec_ask_of_answered taken)

theorem exec_callObject_spending :
    exec (callObject (performer 2) 0 .undefined [.string "a"]) (spending .withText) =
      (.ok (.error (.string "b")), spending .spent) := by
  have ran := exec_spending .undefined [.string "a"]
    ((spending .withText).pinned [.object 0, .undefined, .string "a"]) rfl rfl rfl
  have fetched := exec_fetch (fun w => w.heap.get? 0) (spending .withText)
    ⟨none, .function .spending, []⟩ rfl
  rw [callObject, exec_bind, fetched, goOn_ok, exec_pinning]
  simp only
  rw [ran]
  rfl

theorem exec_objectAt_spending :
    exec (objectAt 0 .globalObject) (spending .withText) = (.ok (.ok 0), spending .withText) := by
  rw [objectAt, exec_bind, exec_read _ 0 .withText rfl rfl, Realm.withText_state.2.1]
  rfl

theorem exec_liftAll_spending :
    exec (liftAll 0 [.ofHandle .string Realm.sharedHandle]) (spending .withText) =
      (.ok (.ok [.string "a"]), spending .withText) := by
  have read := exec_read (spending .withText) 0 .withText rfl rfl Realm.sharedHandle
  rw [Realm.withText_state.2.2.1] at read
  have lifted : exec (liftRaw 0 (.ofHandle .string Realm.sharedHandle)) (spending .withText) =
      (.ok (.ok (.string "a")), spending .withText) := read
  rw [liftAll, exec_bind, lifted, goOn_ok]
  rfl

theorem exec_reflectGuest_spending :
    exec (reflectGuest (performer 2) (.function ⟨0, .globalObject⟩) .call [.string "a"])
        (spending .blank) =
      (.ok (.error (.invalidReference Realm.sharedHandle .release)), spending .spent) := by
  let encoded := [(Raw.ofHandle .string Realm.sharedHandle, some Realm.sharedHandle)]
  have made : exec ([Guest.Value.string "a"].mapM (encodeArg 0)) (spending .blank) =
      (.ok encoded, spending .withText) := rfl
  have called : exec (reflect (performer 2) 0 .globalObject .call (encoded.map (·.1)))
      (spending .withText) = (.ok (.error (.hostException (.string "b"))), spending .spent) :=
    exec_reflect 0 .globalObject .call _ exec_objectAt_spending exec_liftAll_spending
      exec_callObject_spending
  have refused := exec_release (spending .spent) 0 .spent rfl rfl Realm.sharedHandle
  rw [Realm.release_spent] at refused
  have released : exec (releaseAll 0 (encoded.filterMap (·.2))) (spending .spent) =
      (.ok (.error (.invalidReference Realm.sharedHandle .release)), spending .spent) := by
    show exec (releaseAll 0 [Realm.sharedHandle]) _ = _
    rw [releaseAll, exec_bind, refused]
    rfl
  show exec (withEncoded 0 [.string "a"] (reflect (performer 2) 0 .globalObject .call) >>= _)
    (spending .blank) = _
  rw [exec_bind, withEncoded, exec_bind, made, goOn_ok, exec_bind, called, goOn_ok, exec_bind,
    released]
  rfl

theorem checkedTree_spending :
    (GuestCall.ofValue (.function ⟨0, .globalObject⟩) .call [.string "a"]).CheckedTree 2
      (spending .blank) := by
  intro f begins
  cases begins with
  | reflectGuest found made begins =>
    cases found
    cases made
    cases begins with
    | reflect found lifted begins =>
      cases exec_objectAt_spending.symm.trans found
      cases exec_liftAll_spending.symm.trans lifted
      cases begins with
      | call begins =>
        cases begins with
        | guest there kind =>
          cases there
          cases kind
        | host there kind =>
          cases there
          cases kind
          refine ⟨.call fun _ _ => .done _, checkedBelow_call ?_ fun _ _ _ => checkedBelow_done _⟩
          intro g begins
          cases begins with
          | run present known =>
            cases known
            refine ⟨.ask (fun _ _ _ same => by cases same) fun _ => .done _, ?_⟩
            apply checkedBelow_ask
            · intro f begins
              cases begins
            · intro _ _ _
              exact checkedBelow_done _

end Act

namespace GuestCall

open Act World

theorem reports_without_throw :
    (let w := lone .withText []
     let k := GuestCall.reflective 0 Realm.sharedHandle .call []
     w.slot 0 = none ∧ CheckedTree 1 k w ∧
       exec (read 0 Realm.sharedHandle) w = (.ok (.ok (.string "a")), w) ∧
       ∃ result w', exec (k.act (performer 1)) w = (.ok result, w') ∧
         ∀ v, result ≠ .error (.hostException v)) ∧
    (let w := spending .blank
     let k := GuestCall.ofValue (.function ⟨0, .globalObject⟩) .call [.string "a"]
     w.slot 0 = none ∧ CheckedTree 2 k w ∧ k.Throws (performer 2) w (.string "b") ∧
       ∃ result w', exec (k.act (performer 2)) w = (.ok result, w') ∧
         ∀ v, result ≠ .error (.hostException v)) := by
  have read := exec_read (lone .withText []) 0 .withText rfl rfl Realm.sharedHandle
  rw [Realm.withText_state.2.2.1] at read
  have refused : exec (objectAt 0 Realm.sharedHandle) (lone .withText []) =
      (.ok (.error (.valueMismatch "object" "string")), lone .withText []) := by
    rw [objectAt, exec_bind, read]
    rfl
  have called : exec (Act.reflect (performer 1) 0 Realm.sharedHandle .call []) (lone .withText []) =
      (.ok (.error (.valueMismatch "object" "string")), lone .withText []) := by
    rw [Act.reflect, exec_bind, refused]
    rfl
  refine ⟨⟨rfl, ?_, read, ?_⟩, rfl, checkedTree_spending, ?_, ?_⟩
  · intro f begins
    cases begins with
    | reflect found => cases refused.symm.trans found
  · exact ⟨_, _, called, fun v same => by cases same⟩
  · exact ⟨_, _, _, rfl, rfl, 0, _, _, _, _, exec_objectAt_spending, exec_liftAll_spending,
      exec_callObject_spending⟩
  · exact ⟨_, _, exec_reflectGuest_spending, fun v same => by cases same⟩

end GuestCall

end Membrane
