import Membrane.Proofs.Closures.Calls
import Membrane.Proofs.Closures.Kept
/-!
Guest functions that are given up by code, however deep it runs: they are not known when it is over. A
call goes on from where the code that it ran ended, and nothing that it does makes a function known.
-/

set_option autoImplicit false

namespace Membrane

open World Request

namespace Act

variable {α β : Type} {A : List Host.Value} {w v : World} {d : Nat}

/-- Anything may be given up. -/
abbrev Anything : RealmId → FunctionId → Prop := fun _ _ => True

theorem Brings.grows {act : Act α} {values : α → List Host.Value}
    (brings : Brings Anything A act values) (w : World) : Grows w (exec act w).2 :=
  (brings w).moves.grows

/-! What goes on from where a part of it ended -/

theorem grows_bind {act : Act α} {rest : α → Act β} (first : Grows v (exec act w).2)
    (next : ∀ a u, exec act w = (.ok a, u) → Grows u (exec (rest a) u).2) :
    Grows v (exec (act >>= rest) w).2 := by
  rw [exec_bind]
  rcases done : exec act w with ⟨halt | a, u⟩
  · rw [done] at first
    exact first
  · rw [done] at first
    exact first.trans (next a u done)

theorem grows_after {act : Act α} {rest : α → Act β} {a : α} {u : World}
    (done : exec act w = (.ok a, u)) (next : Grows v (exec (rest a) u).2) :
    Grows v (exec (act >>= rest) w).2 := by
  rw [exec_bind, done]
  exact next

/-- Nothing is done with the result. -/
theorem grows_ending {act : Act α} (first : Grows v (exec act w).2) :
    Grows v (exec (do let _ ← act) w).2 :=
  grows_bind first fun _ u _ => .refl u

theorem grows_onHalt {act : Act α} {cleanup : Act Unit} (first : Grows v (exec act w).2)
    (after : ∀ u, Grows u (exec cleanup u).2) : Grows v (exec (onHalt act cleanup) w).2 := by
  rw [onHalt, exec_tryCatch]
  rcases done : exec act w with ⟨halt | a, u⟩
  · rw [done] at first
    exact grows_bind (first.trans (after u)) fun _ u _ => .refl u
  · rw [done] at first
    exact first

theorem grows_pinning {act : Act α} {values : List Host.Value}
    (first : Grows v (exec act (w.pinned values)).2) :
    Grows v (exec (pinning values act) w).2 := by
  rw [exec_pinning]
  exact first.trans { Grows.refl _ with }

section

variable {p : Performer} {f : Frame}

theorem grows_callFunction {s : RealmId} {id : FunctionId} {raws : List Raw} (owns : w.Owns s)
    (begins : FunctionBegins s id raws w f) :
    Grows (exec (f.code.exec p) f.world).2 (exec (callFunction p s id raws) w).2 := by
  obtain ⟨x, present, owner⟩ := owns
  cases begins with
  | @run g values u known lifted =>
    rw [exec_callFunction id raws w x present owner, known]
    simp only
    rw [lifted, goOn_ok]
    refine grows_bind (grows_onHalt (grows_pinning (.refl _)) ?_) fun outcome u _ => ?_
    · exact (Brings.forM (A := []) _ values fun v _ => .dropGuest v).grows
    · refine grows_bind
        ((Brings.forM (A := []) _ values fun v _ => .releaseGuestQuietly v).grows u) fun _ u _ => ?_
      cases outcome with
      | error thrown => exact .refl u
      | ok result =>
        exact grows_bind ((Brings.encodeResult (A := []) s result).grows u) fun _ u _ => .refl u

theorem grows_callObject {o : ObjectId} {this : Host.Value} {args : List Host.Value}
    (enters : ObjectEnters o this args w f) :
    Grows (exec (f.code.exec p) f.world).2 (exec (callObject p o this args) w).2 := by
  cases enters with
  | @host x g there kind =>
    refine grows_after (exec_fetch (·.heap.get? o) w x there) (grows_pinning ?_)
    rw [kind]
    exact .refl _
  | @guest x s id raws v f there kind held lowered owns begins =>
    refine grows_after (exec_fetch (·.heap.get? o) w x there) (grows_pinning ?_)
    rw [kind]
    simp only
    rw [callThroughObject, exec_bind, exec_get, goOn_ok, exec_ite, if_neg (by simp [held])]
    refine grows_after lowered (grows_bind (grows_callFunction owns begins) fun answer u _ => ?_)
    cases answer with
    | error thrown => exact .refl u
    | ok raw =>
      refine grows_bind ((Brings.liftRaw (A := []) s raw).grows u) fun lifted u _ => ?_
      cases lifted with
      | error e =>
        have throws : Brings Anything [] (throwFault e) outcomeValues :=
          Brings.throwFault e fun _ => rfl
        exact throws.grows u
      | ok value =>
        cases raw.handle? with
        | none => exact .refl u
        | some h =>
          exact grows_bind ((Brings.releaseQuietly (A := []) s h).grows u) fun _ u _ => .refl u

theorem grows_constructObject {o : ObjectId} {args : List Host.Value}
    (begins : ConstructorBegins o args w f) :
    Grows (exec (f.code.exec p) f.world).2 (exec (constructObject p o args) w).2 := by
  cases begins with
  | @run x c there kind =>
    refine grows_after (exec_fetch (·.heap.get? o) w x there) (grows_pinning ?_)
    rw [kind]
    exact .refl _

theorem grows_reflectObject {o : ObjectId} {how : Reflection} {args : List Host.Value}
    (enters : ReflectionEnters o args w how f) :
    Grows (exec (f.code.exec p) f.world).2 (exec (reflectObject p o how args) w).2 := by
  cases enters with
  | call enters => exact grows_callObject enters
  | construct begins => exact grows_constructObject begins
  | @method name m f found enters =>
    have read : exec (property o name) w = (.ok (.object m), w) := by
      rw [← found]
      rfl
    exact grows_after read (grows_callObject enters)

/-- A request is answered from where the code that it ran ended. -/
theorem grows_answer {request : Request} (enters : Enters request w f) :
    Grows (exec (f.code.exec p) f.world).2 (exec (answer p request) w).2 := by
  induction enters with
  | @invokeImport s name args w f owns begins =>
    obtain ⟨x, present, owner⟩ := owns
    cases begins with
    | @run y i there known =>
      obtain rfl := Option.some.inj (present.symm.trans there)
      show Grows _ (exec (invokeImport p s name args) w).2
      rw [exec_invokeImport w p s x present owner]
      have body : exec (runImport p s name args) (w.withRealm s x.openFrame) =
          exec ((i.run s args).exec p) (w.withRealm s x.openFrame) := by
        have there : (w.withRealm s x.openFrame).runtime.import? name = some i := known
        rw [runImport, exec_bind, exec_get, goOn_ok, there]
      rw [body, ← exec_bind]
      have closes : Brings Anything [] (onRealm s fun x => ((), x.closeFrame)) fun _ => [] :=
        .onRealm s _ (fun x => x.turns_closeFrame) fun _ _ held => (List.not_mem_nil held).elim
      refine grows_bind (.refl _) fun outcome u _ => grows_bind (closes.grows u) fun _ u _ => ?_
      cases outcome with
      | ok word => exact .refl u
      | error thrown =>
        have known : thrown.IsKnown [thrown] := Host.Value.isKnown_of_mem List.mem_cons_self
        exact grows_bind ((Brings.setException s known).grows u) fun _ u _ => .refl u
  | apply enters => exact grows_callObject enters
  | construct begins => exact grows_constructObject begins
  | reflect found lifted enters =>
    refine grows_after found (grows_after lifted
      (grows_bind (grows_reflectObject enters) fun outcome u _ => ?_))
    exact (LeadsAt.finish (F := Anything) _ outcome).moves.grows
  | @reflectGuest target how args w u ref encoded f found made enters ih =>
    show Grows _ (exec (reflectGuest p target how args) w).2
    unfold Act.reflectGuest
    rw [found]
    refine grows_bind (grows_after made (grows_bind ih fun result u _ => ?_)) fun result u _ => ?_
    · refine grows_bind ((Brings.releaseAll (A := []) ref.realm _).grows u) fun released u _ => ?_
      cases released <;> exact .refl u
    · cases result with
      | error e => exact .refl u
      | ok raw => exact (Brings.liftGuest (A := []) ref.realm raw).grows u

/-- A call of a closure gives back the copy that it made of its function. -/
theorem grows_callClosure {c : Guest.Closure} {args : List Guest.Value} {copy : Guest.Value} {u : World}
    (copied : exec (functionOf c) w = (.ok (.ok copy), u))
    (enters : Enters (.reflectGuest copy .call args) u f) :
    Grows (exec (f.code.exec p) f.world).2 (exec (callClosure p c args) w).2 := by
  refine grows_after copied (grows_bind (grows_onHalt (grows_answer enters)
    (Brings.dropGuest (A := []) copy).grows) fun result u _ => ?_)
  refine grows_bind ((Brings.releaseGuest (A := []) copy).grows u) fun released u _ => ?_
  cases released with
  | ok => exact .refl u
  | error e =>
    cases result with
    | ok v => exact grows_bind ((Brings.dropGuest (A := []) v).grows u) fun _ u _ => .refl u
    | error => exact .refl u

end

/-- What is left of code after an answer can count on what it knows. -/
theorem grounded_of_answered {values : α → List Host.Value} {request : Request}
    {next : request.Answer → Code α} {a : request.Answer}
    (grounded : (Code.ask request next).Grounded values w)
    (answered : exec (performer d request) w = (.ok a, v)) :
    (next a).Grounded values v ∧ Grows w v := by
  obtain ⟨known, promises, honest, stands⟩ := grounded
  cases d with
  | zero => cases answered
  | succ d =>
    cases honest with
    | ask named held rest =>
      have leads := leadsAt_request (runs Anything d) next stands named held
        fun _ _ _ => trivial
      exact ⟨⟨_, _, rest a, stands_of_answered stands leads answered⟩,
        (leads.moves_ok answered).grows⟩

/-- What is left of code after an answer is a frame like the one that asked. -/
theorem sound_of_answered {request : Request} {next : request.Answer → Code α} {a : request.Answer}
    (sound : Frame.Sound ⟨.ask request next, w⟩)
    (answered : exec (performer d request) w = (.ok a, v)) :
    Frame.Sound ⟨next a, v⟩ ∧ Grows w v := by
  obtain ⟨values, grounded⟩ := sound
  obtain ⟨further, grows⟩ := grounded_of_answered grounded answered
  exact ⟨⟨values, further⟩, grows⟩

/-- So is the code that is run as code asks for something. -/
theorem sound_of_enters {F : RealmId → FunctionId → Prop} {request : Request}
    {next : request.Answer → Code α} {f : Frame} (sound : Frame.Sound ⟨.ask request next, w⟩)
    (enters : Enters request w f) : f.Sound ∧ Moves F [] w [] f.world := by
  obtain ⟨values, known, promises, honest, stands⟩ := sound
  cases honest with
  | ask named held more =>
    exact enters.sound stands.honest fun v there => stands.atHand (named v there)

theorem grows_exec {values : α → List Host.Value} {code : Code α}
    (grounded : code.Grounded values w) (d : Nat) :
    Grows w (exec (code.exec (performer d)) w).2 :=
  (runs Anything d _ _ _ _ grounded fun _ _ _ => trivial).moves.grows

/-- Code goes on from where a request of it was answered. -/
theorem grows_rest {values : α → List Host.Value} {request : Request}
    {next : request.Answer → Code α} (grounded : (Code.ask request next).Grounded values w)
    (d : Nat) : Grows (exec (performer d request) w).2
      (exec ((Code.ask request next).exec (performer d)) w).2 :=
  grows_bind (.refl _) fun _ _ answered =>
    grows_exec (grounded_of_answered grounded answered).1 d

/-- To give a guest function up leaves it unknown. -/
theorem lost_of_freeFunction {r : RealmId} {id : FunctionId} {x : Realm}
    (present : w.realms[r]? = some x) : (exec (freeFunction r id) w).2.Lost r id := by
  obtain ⟨y, swept, _⟩ := (Grows.sweep w).realms r x present
  have done : exec (freeFunction r id) w = exec (onRealm r fun x =>
      ((x.closures.remove id).1, x.without id)) w.sweep := rfl
  rw [done, exec_onRealm _ r y swept]
  exact ⟨y.without id, realm_withRealm _ r y _ swept,
    (y.closures.get?_without id id).trans (if_pos rfl)⟩

/-- What code gives up, itself or further below, is unknown when it is over. -/
theorem Frees.lost {f : Frame} {r : RealmId} {id : FunctionId} (frees : Frees r id d f)
    (sound : f.Sound) (there : ∃ x, f.world.realms[r]? = some x) :
    (exec (f.code.exec (performer d)) f.world).2.Lost r id := by
  obtain ⟨e, α, next, u, gets⟩ := frees
  generalize level : e + 1 = k at gets
  generalize last : (⟨.ask (.freeFunction r id) next, u⟩ : Frame) = g at gets
  induction gets with
  | here d f =>
    subst level last
    obtain ⟨values, grounded⟩ := sound
    obtain ⟨x, present⟩ := there
    refine (grows_rest grounded (e + 1)).lost ?_
    rw [performer, exec_perform_of_none _ _ _ fun _ => rfl]
    exact lost_of_freeFunction present
  | @later _ d _ request next' a w v _ answered _ ih =>
    obtain ⟨further, grows⟩ := sound_of_answered sound answered
    have lost := ih further (grows.present there) level last
    show (exec ((Code.ask request next').exec (performer d)) w).2.Lost r id
    rw [Code.exec, exec_bind, answered]
    exact lost
  | @inside _ d _ request next' w f _ enters _ ih =>
    obtain ⟨inner, moves⟩ := sound_of_enters (F := Anything) sound enters
    have lost := ih inner (moves.grows.present there) level last
    obtain ⟨values, grounded⟩ := sound
    refine (grows_rest grounded (d + 1)).lost (Grows.lost ?_ lost)
    exact grows_bind (grows_answer enters) fun _ _ _ => { Grows.refl _ with }

/-! Inside of calls -/

/-- A guest function is given up by code on the way from a frame to one that it gets to. -/
inductive FreesBefore (r : RealmId) (id : FunctionId) : Nat → Frame → Nat → Frame → Prop
  /-- The code asked for it. -/
  | asked {α : Type} {d e : Nat} {next : (Request.freeFunction r id).Answer → Code α}
      {answer : (Request.freeFunction r id).Answer} {w v : World} {g : Frame}
      (answered : exec (performer d (.freeFunction r id)) w = (.ok answer, v))
      (rest : GetsTo d ⟨next answer, v⟩ e g) :
      FreesBefore r id d ⟨.ask (.freeFunction r id) next, w⟩ e g
  /-- Code did it that was run as the code asked for something. -/
  | deeper {α : Type} {d e : Nat} {request : Request} {next : request.Answer → Code α}
      {answer : request.Answer} {w v : World} {f g : Frame} (enters : Enters request w f)
      (frees : Frees r id d f) (answered : exec (performer (d + 1) request) w = (.ok answer, v))
      (rest : GetsTo (d + 1) ⟨next answer, v⟩ e g) :
      FreesBefore r id (d + 1) ⟨.ask request next, w⟩ e g
  | later {α : Type} {d e : Nat} {request : Request} {next : request.Answer → Code α}
      {answer : request.Answer} {w v : World} {g : Frame}
      (answered : exec (performer d request) w = (.ok answer, v))
      (rest : FreesBefore r id d ⟨next answer, v⟩ e g) :
      FreesBefore r id d ⟨.ask request next, w⟩ e g
  | inside {α : Type} {d e : Nat} {request : Request} {next : request.Answer → Code α} {w : World}
      {f g : Frame} (enters : Enters request w f) (rest : FreesBefore r id d f e g) :
      FreesBefore r id (d + 1) ⟨.ask request next, w⟩ e g

/-- What code gets to is reached by moves that forget only what was given up on the way. -/
theorem GetsTo.moves {d e : Nat} {f g : Frame} (gets : GetsTo d f e g) (sound : f.Sound)
    {F : RealmId → FunctionId → Prop} (allowed : ∀ r id, FreesBefore r id d f e g → F r id) :
    g.Sound ∧ Moves F [] f.world [] g.world := by
  induction gets with
  | here d f => exact ⟨sound, .refl [] _⟩
  | @later α d e request next a w v g answered rest ih =>
    obtain ⟨values, known, promises, honest, stands⟩ := sound
    cases d with
    | zero => cases answered
    | succ d =>
      cases honest with
      | ask named held more =>
        have leads : LeadsAt F w [] (perform (performer d) request) request.received := by
          refine .taking request.named (fun v there => stands.atHand (named v there))
            (.perform (runs F d) stands.honest request (fun _ => Host.Value.isKnown_of_mem)
              (fun p there => stands.isOpen p (held p there)) (fun f enters r id frees => ?_) ?_)
          · exact allowed r id (.deeper enters frees answered rest)
          · rintro r id rfl
            exact allowed r id (.asked answered rest)
        obtain ⟨sound, moves⟩ := ih ⟨values, _, _, more a, stands_of_answered stands leads answered⟩
          fun r id frees => allowed r id (.later answered frees)
        have started : Moves F [] w [] v :=
          .trans (leads.moves_ok answered) (.take fun _ => nofun)
        exact ⟨sound, .trans started moves⟩
  | inside enters rest ih =>
    obtain ⟨inner, moves⟩ := sound_of_enters (F := F) sound enters
    obtain ⟨last, further⟩ := ih inner fun r id frees => allowed r id (.inside enters frees)
    exact ⟨last, .trans moves further⟩

theorem GetsTo.grows {d e : Nat} {f g : Frame} (gets : GetsTo d f e g) (sound : f.Sound) :
    Grows f.world g.world :=
  (gets.moves sound (F := Anything) fun _ _ _ => trivial).2.grows

/-- What was given up by the code that a request ran is unknown when the request is answered. -/
theorem lost_of_answered {request : Request} {f : Frame} {r : RealmId} {id : FunctionId}
    {a : request.Answer} (enters : Enters request w f)
    (lost : (exec (f.code.exec (performer d)) f.world).2.Lost r id)
    (answered : exec (performer (d + 1) request) w = (.ok a, v)) : v.Lost r id := by
  have grows : Grows (exec (f.code.exec (performer d)) f.world).2
      (exec (performer (d + 1) request) w).2 :=
    grows_bind (grows_answer enters) fun _ _ _ => { Grows.refl _ with }
  rw [answered] at grows
  exact grows.lost lost

/-- What was given up on the way is unknown at the end of it. -/
theorem FreesBefore.lost {d e : Nat} {f g : Frame} {r : RealmId} {id : FunctionId}
    (frees : FreesBefore r id d f e g) (sound : f.Sound)
    (there : ∃ x, f.world.realms[r]? = some x) : g.world.Lost r id := by
  induction frees with
  | @asked α d e next a w v g answered rest =>
    refine (rest.grows (sound_of_answered sound answered).1).lost ?_
    obtain ⟨x, present⟩ := there
    cases d with
    | zero => cases answered
    | succ d =>
      rw [performer, exec_perform_of_none _ _ _ fun _ => rfl] at answered
      have lost : (exec (freeFunction r id) w).2.Lost r id := lost_of_freeFunction present
      rwa [show exec (freeFunction r id) w = (.ok a, v) from answered] at lost
  | deeper enters frees answered rest =>
    obtain ⟨inner, moves⟩ := sound_of_enters (F := Anything) sound enters
    exact (rest.grows (sound_of_answered sound answered).1).lost
      (lost_of_answered enters (frees.lost inner (moves.grows.present there)) answered)
  | later answered _ ih =>
    obtain ⟨further, grows⟩ := sound_of_answered sound answered
    exact ih further (grows.present there)
  | inside enters _ ih =>
    obtain ⟨inner, moves⟩ := sound_of_enters (F := Anything) sound enters
    exact ih inner (moves.grows.present there)

end Act

end Membrane
