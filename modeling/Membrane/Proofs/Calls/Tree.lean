import Membrane.Proofs.Calls.Outcome
/-!
Trees of calls. Code that a call runs makes calls of its own, whose code makes further ones. Where
all code takes what an import threw as soon as the import is over, nothing is left in the slot between
two calls.
-/

set_option autoImplicit false

namespace Membrane

/-- Code that takes what an import threw as soon as the import is over. -/
inductive Code.Checked {α : Type} : Code α → Prop
  | done (a : α) : Checked (.done a)
  | call {s : RealmId} {name : String} {args : List Wire}
      {next : Wire → Option Host.Value → Code α} (rest : ∀ word slot, Checked (next word slot)) :
      Checked (.ask (.invokeImport s name args) fun word => .ask (.takeException s) (next word))
  | ask {request : Request} {next : request.Answer → Code α}
      (plain : ∀ s name args, request ≠ .invokeImport s name args)
      (rest : ∀ answer, Checked (next answer)) : Checked (.ask request next)

namespace Act

open World

variable {r : RealmId}

/-! Code is begun to be run with an empty slot where the slot was empty before -/

theorem FunctionBegins.spares {s : RealmId} {id : FunctionId} {raws : List Raw} {w : World}
    {f : Frame} (begins : FunctionBegins s id raws w f) : Spares r w f.world := by
  intro empty
  cases begins with
  | run known lifted =>
    have swept := Lasting.sweep (R := Spares r) w empty
    have reached := slot_of_keeps (.liftGuests s raws []) lifted swept
    exact reached

theorem ObjectBegins.spares {o : ObjectId} {this : Host.Value} {args : List Host.Value} {w : World}
    {f : Frame} (begins : ObjectBegins o this args w f) : Spares r w f.world := by
  intro empty
  cases begins with
  | host => exact empty
  | guest there kind held lowered begins =>
    exact begins.spares (slot_of_keeps (.mapM _ (Keeps.lowerRaw _) args) lowered empty)

theorem ReflectionBegins.spares {o : ObjectId} {how : Reflection} {args : List Host.Value}
    {w : World} {f : Frame} (begins : ReflectionBegins o args w how f) : Spares r w f.world := by
  cases begins with
  | call begins => exact begins.spares
  | construct begins =>
    cases begins with
    | run => exact id
  | method found begins => exact begins.spares

theorem ImportBegins.spares {s : RealmId} {name : String} {args : List Wire} {w : World} {f : Frame}
    (begins : ImportBegins s name args w f) : Spares r w f.world := by
  cases begins with
  | run present known => exact spares_openFrame s w _ present

theorem Begins.spares {request : Request} {w : World} {f : Frame} (begins : Begins request w f) :
    Spares r w f.world := by
  induction begins with
  | invokeImport begins => exact begins.spares
  | apply begins => exact begins.spares
  | construct begins =>
    cases begins with
    | run => exact id
  | reflect found lifted begins =>
    intro empty
    have reached := slot_of_keeps (.objectAt _ _) found empty
    exact begins.spares (slot_of_keeps (.liftAll _ _) lifted reached)
  | reflectGuest found made begins ih =>
    intro empty
    exact ih (slot_of_keeps (.mapM _ (Keeps.encodeArg _) _) made empty)

/-- What code that runs in a frame gets to, at any depth below it: what is left of its own code after
some answers, and what is left of the code that is begun to be run as it asks for something. -/
inductive Reaches : Nat → Frame → Nat → Frame → Prop
  | here (d : Nat) (f : Frame) : Reaches d f d f
  | later {α : Type} {d e : Nat} {request : Request} {next : request.Answer → Code α}
      {answer : request.Answer} {w v : World} {g : Frame}
      (answered : exec (performer d request) w = (.ok answer, v))
      (rest : Reaches d ⟨next answer, v⟩ e g) : Reaches d ⟨.ask request next, w⟩ e g
  | inside {α : Type} {d e : Nat} {request : Request} {next : request.Answer → Code α} {w : World}
      {f g : Frame} (begins : Begins request w f) (rest : Reaches d f e g) :
      Reaches (d + 1) ⟨.ask request next, w⟩ e g

/-- All code that is begun to be run below a frame is checked. -/
def CheckedBelow (d : Nat) (f : Frame) : Prop :=
  ∀ (e : Nat) (α : Type) (request : Request) (next : request.Answer → Code α) (u : World)
    (g : Frame), Reaches d f (e + 1) ⟨.ask request next, u⟩ → Begins request u g → g.code.Checked

section

variable {α : Type} {d : Nat} {request : Request} {next : request.Answer → Code α} {w v : World}

theorem CheckedBelow.later (below : CheckedBelow d ⟨.ask request next, w⟩) {answer : request.Answer}
    (answered : exec (performer d request) w = (.ok answer, v)) :
    CheckedBelow d ⟨next answer, v⟩ :=
  fun e β q rest u g reached => below e β q rest u g (.later answered reached)

theorem CheckedBelow.inside (below : CheckedBelow (d + 1) ⟨.ask request next, w⟩) {f : Frame}
    (begins : Begins request w f) : f.code.Checked ∧ CheckedBelow d f :=
  ⟨below d α request next w f (.here _ _) begins,
    fun e β q rest u g reached => below e β q rest u g (.inside begins reached)⟩

end

theorem Reaches.le {d e : Nat} {f g : Frame} (reached : Reaches d f e g) : e ≤ d := by
  induction reached with
  | here => exact Nat.le_refl _
  | later _ _ ih => exact ih
  | inside _ _ ih => exact Nat.le_succ_of_le ih

theorem checkedBelow_zero (f : Frame) : CheckedBelow 0 f := by
  intro e β q rest u g reached
  have bound := reached.le
  omega

section

variable {α : Type} {d : Nat} {request : Request} {next : request.Answer → Code α} {w : World}

theorem checkedBelow_done (a : α) : CheckedBelow d ⟨.done a, w⟩ := by
  intro e β q rest u g reached
  cases reached

theorem checkedBelow_ask
    (inner : ∀ f, Begins request w f → f.code.Checked ∧ CheckedBelow d f)
    (later : ∀ answer v, exec (performer (d + 1) request) w = (.ok answer, v) →
      CheckedBelow (d + 1) ⟨next answer, v⟩) : CheckedBelow (d + 1) ⟨.ask request next, w⟩ := by
  intro e β q rest u g reached begins
  cases reached with
  | here => exact (inner g begins).1
  | later answered reached => exact later _ _ answered e β q rest u g reached begins
  | inside first reached => exact (inner _ first).2 e β q rest u g reached begins

theorem checkedBelow_call {s : RealmId} {name : String} {args : List Wire}
    {next : Wire → Option Host.Value → Code α}
    (inner : ∀ f, ImportBegins s name args w f → f.code.Checked ∧ CheckedBelow d f)
    (rest : ∀ word slot v, CheckedBelow (d + 1) ⟨next word slot, v⟩) :
    CheckedBelow (d + 1)
      ⟨.ask (.invokeImport s name args) fun word => .ask (.takeException s) (next word), w⟩ := by
  apply checkedBelow_ask
  · intro f begins
    cases begins with
    | invokeImport begins => exact inner f begins
  · intro word u _
    apply checkedBelow_ask
    · intro f begins
      cases begins
    · intro slot v _
      exact rest word slot v

end

/-- How a frame of checked code stands between two answers: its slot is empty, but for the one of the
realm whose import is over and which is to be emptied next. -/
inductive Ready (r : RealmId) : Frame → Prop
  | settled {α : Type} {code : Code α} {w : World} (checked : code.Checked)
      (empty : w.slot r = none) : Ready r ⟨code, w⟩
  | answered {α : Type} {s : RealmId} {next : Option Host.Value → Code α} {w : World}
      (rest : ∀ slot, (next slot).Checked) (empty : s ≠ r → w.slot r = none) :
      Ready r ⟨.ask (.takeException s) next, w⟩

section

variable {α : Type} {d : Nat} {request : Request} {next : request.Answer → Code α} {w v : World}

theorem Ready.later {p : Performer} (ready : Ready r ⟨.ask request next, w⟩)
    (clean : ∀ f, Begins request w f → f.Clean p r) (answer : request.Answer)
    (answered : exec (perform p request) w = (.ok answer, v)) : Ready r ⟨next answer, v⟩ := by
  cases ready with
  | settled checked empty =>
    cases checked with
    | @call s name args _ rest =>
      obtain ⟨u, done, rfl⟩ := exec_perform_eq_ok _ _ _ _ _ answered
      refine .answered (rest answer) fun other => ?_
      exact spares_invokeImport s name args w u answer other
        (fun f begins => clean f (.invokeImport begins)) done empty
    | ask plain rest =>
      exact .settled (rest answer) (spares_perform request w v answer plain clean answered empty)
  | @answered _ s _ _ rest empty =>
    refine .settled (rest answer) ?_
    obtain ⟨u, done, rfl⟩ := exec_perform_eq_ok _ _ _ _ _ answered
    obtain ⟨x, present, _, rfl⟩ := takeException_eq_ok s w u answer done
    have left := slot_withRealm w s x { x with exception := none } present r
    split at left
    · exact left
    · next other => exact left.trans (empty (Ne.symm other))

theorem Ready.inside (ready : Ready r ⟨.ask request next, w⟩)
    (below : CheckedBelow (d + 1) ⟨.ask request next, w⟩) {f : Frame} (begins : Begins request w f) :
    Ready r f ∧ CheckedBelow d f := by
  obtain ⟨checked, further⟩ := below.inside begins
  cases ready with
  | settled _ empty => exact ⟨.settled checked (begins.spares empty), further⟩
  | answered => cases begins

end

/-- Checked code, with checked code below it, leaves an empty slot empty. The induction is on the
depth; at each depth the code is run to its end answer by answer. -/
theorem clean_of_checked (d : Nat) (f : Frame) (checked : f.code.Checked)
    (below : CheckedBelow d f) : f.Clean (performer d) r := by
  induction d generalizing f with
  | zero =>
    obtain ⟨code, w⟩ := f
    intro a w' done empty
    cases code with
    | done => cases done; exact empty
    | ask request next =>
      obtain ⟨_, _, answered, _⟩ := exec_bind_eq_ok _ _ _ _ _ done
      cases answered
  | succ d deeper =>
    obtain ⟨code, w⟩ := f
    intro a w' done empty
    have ready : Ready r ⟨code, w⟩ := .settled checked empty
    clear checked empty
    simp only at done
    induction code generalizing w with
    | done =>
      cases done
      cases ready with
      | settled _ empty => exact empty
    | ask request next ih =>
      obtain ⟨answer, v, answered, rest⟩ := exec_bind_eq_ok _ _ _ _ _ done
      have clean (f : Frame) (begins : Begins request w f) : f.Clean (performer d) r :=
        deeper f (below.inside begins).1 (below.inside begins).2
      exact ih answer v (below.later answered) a rest (ready.later clean answer answered)

/-- Whatever is reached from a frame stands as the frame did. -/
theorem Reaches.ready {d e : Nat} {f g : Frame} (reached : Reaches d f e g) (ready : Ready r f)
    (below : CheckedBelow d f) : Ready r g ∧ CheckedBelow e g := by
  induction reached with
  | here => exact ⟨ready, below⟩
  | @later _ d _ request next answer w v _ answered rest ih =>
    cases d with
    | zero => cases answered
    | succ d =>
      have clean (f : Frame) (begins : Begins request w f) : f.Clean (performer d) r :=
        clean_of_checked d f (below.inside begins).1 (below.inside begins).2
      exact ih (ready.later clean answer answered) (below.later answered)
  | inside begins rest ih =>
    obtain ⟨inner, further⟩ := ready.inside below begins
    exact ih inner further

end Act

end Membrane
