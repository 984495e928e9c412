import Membrane.Proofs.Closures.Freed
import Membrane.World.Naming
/-!
What is done to guest functions, and to what refers to them: they are made, given back and let go of,
freed and called; programs of the host store, copy and drop their function objects; promises are
settled, jobs are taken from loops, and what was noted is collected. All of it but making functions and
settling promises comes to moves.
-/

set_option autoImplicit false

namespace Membrane

open World Request

namespace Job

/-- A job that collects, that settles a promise, or that only logs a line. -/
def IsPlain : Job → Prop
  | .collect _ | .settle .. | .line _ => True
  | _ => False

end Job

/-- Something that is done from outside, by the host or by the guest. -/
inductive Deed where
  /-- Makes a guest function known, with a function object. -/
  | create (r : RealmId) (g : Guest.Function)
  /-- Gives a closure back. -/
  | release (c : Guest.Closure)
  /-- Lets go of a reference, such as that of a closure, without giving it back. -/
  | drop (ref : Guest.Ref)
  /-- Frees a guest function under its number. -/
  | free (r : RealmId) (id : FunctionId)
  /-- Calls a guest function under its number. -/
  | call (r : RealmId) (id : FunctionId) (args : List Raw)
  /-- Calls a closure through the host. -/
  | callClosure (c : Guest.Closure) (args : List Guest.Value)
  /-- Runs a program of the host on the values in its registers. Its result is what they hold then. -/
  | host (program : Names Host.Value → Code (Names Host.Value))
  /-- Makes a host function, a constructor or a plain object, and names it. -/
  | define (name : String) (kind : Host.Kind)
  | settle (p : PromiseId) (outcome : Outcome)
  /-- Gives back what was noted to be. -/
  | collect (r : RealmId)
  /-- Takes a job out of a loop and carries it out. -/
  | job (l : LoopId) (rest : EventLoop Job) (job : Job)

namespace Deed

def act : Deed → Act Unit
  | create r g => do
    let _ ← Act.newClosure r g
  | release c => do
    let _ ← Act.releaseClosure c
  | drop ref => Act.dropRef ref
  | free r id => do
    let _ ← Act.freeFunction r id
  | call r id args => do
    match ← Act.callFunction Act.outermost r id args with
    | .ok _ => return ()
    | .error v => Act.setException r v
  | callClosure c args => do
    let _ ← Act.callClosure Act.outermost c args
  | host program => do
    let names := (← get).registers.values
    Act.pinning (names.map (·.2)) do
      let values ← (program names).exec Act.outermost
      Act.setRegisters fun r => { r with values }
  | define name kind => do
    Act.nameValue name (.object (← Act.newObject ⟨none, kind, []⟩))
  | settle p outcome => do
    let _ ← Act.settle p outcome
  | collect r => do
    let _ ← Act.collectGarbage r
  | job l rest j => do
    Act.onQueue l fun _ => rest
    Act.performJob j

/-- The code that a deed runs. -/
inductive Begins (w : World) : Deed → Frame → Prop
  | call {r : RealmId} {id : FunctionId} {args : List Raw} {f : Frame} (owns : w.Owns r)
      (begins : Act.FunctionBegins r id args w f) : Begins w (.call r id args) f
  | callClosure {c : Guest.Closure} {args : List Guest.Value} {v : Guest.Value} {u : World} {f : Frame}
      (copied : Act.exec (Act.functionOf c) w = (.ok (.ok v), u))
      (enters : Act.Enters (.reflectGuest v .call args) u f) : Begins w (.callClosure c args) f
  | host {program : Names Host.Value → Code (Names Host.Value)} :
      Begins w (.host program)
        ⟨program w.registers.values, w.pinned (w.registers.values.map (·.2))⟩

/-- What can be done in a world: code is honest, and values and promises are at hand. A job is taken
from a loop that it waits in, and nothing else comes into that loop. -/
def Fits (w : World) : Deed → Prop
  | create _ g => g.Honest ∧ ∀ v ∈ g.holds, w.AtHand [] v
  | host program => ∀ names, (program names).Honest (·.map (·.2)) (names.map (·.2)) []
  | define _ kind => w.Makes kind ∧ ∀ v ∈ kind.holds, w.AtHand [] v
  | settle p outcome => w.AtHand [] outcome.value ∧
      ∃ o y, w.AtHand [] (.object o) ∧ w.heap.get? o = some y ∧ y.kind = .promise p
  | job l rest j => j.IsPlain ∧ (∃ (r : RealmId) (x : Realm), w.realms[r]? = some x ∧ x.loop = l) ∧
      ∃ c, w.loops[l]? = some c ∧ j ∈ c.queue.jobs ∧ ∀ i ∈ rest.jobs, i ∈ c.queue.jobs
  | _ => True

/-- A guest function is freed, by a deed itself or by code that it runs. -/
def Frees (w : World) (r : RealmId) (id : FunctionId) (d : Deed) : Prop :=
  d = .free r id ∨ ∃ f, d.Begins w f ∧ Act.Frees r id Act.depthLimit f

/-- The closure of a guest function is given back. -/
def Releases (r : RealmId) (id : FunctionId) : Deed → Prop
  | .release c => c.ref.realm = r ∧ c.function = id
  | _ => False

/-- A guest function is given up: it is freed, or its closure is given back where there are no weak
references. -/
def GivesUp (w : World) (r : RealmId) (id : FunctionId) (d : Deed) : Prop :=
  d.Frees w r id ∨ d.Releases r id ∧ ∃ x, w.realms[r]? = some x ∧ x.features.weakRefs = false

/-- Deeds that come to moves. -/
def IsOrdinary : Deed → Prop
  | create .. | settle .. | job .. => False
  | _ => True

end Deed

theorem Names.mem_put {α : Type} (names : Names α) (name n : String) (a b : α)
    (held : (n, b) ∈ names.put name a) : b = a ∨ ∃ n, (n, b) ∈ names := by
  unfold put at held
  split at held
  · obtain ⟨⟨m, c⟩, there, same⟩ := List.mem_map.mp held
    simp only [Prod.mk.injEq] at same
    obtain ⟨rfl, same⟩ := same
    split at same
    · exact Or.inl same.symm
    · exact Or.inr ⟨m, same ▸ there⟩
  · obtain there | there := List.mem_append.mp held
    · exact Or.inr ⟨n, there⟩
    · exact Or.inl (Prod.mk.inj (List.mem_singleton.mp there)).2

namespace Act

variable {F : RealmId → FunctionId → Prop} {A : List Host.Value} {w : World} {d : Nat}

theorem exec_nameValue (name : String) (v : Host.Value) (w : World) :
    exec (nameValue name v) w = (.ok (),
      { w with registers := { w.registers with values := w.registers.values.put name v } }) := by
  cases old : w.registers.values.lookup name <;>
    simp [nameValue, keepNamed, registers, setRegisters, old]

namespace LeadsAt

theorem releaseClosure (c : Guest.Closure)
    (allowed : ∀ x, w.realms[c.ref.realm]? = some x → x.features.weakRefs = false →
      F c.ref.realm c.function) :
    LeadsAt F w A (releaseClosure c) thrownValues := by
  refine .dropping (.fetch fun x present => ?_)
  cases weak : x.features.weakRefs with
  | false =>
    exact .bind (freeFunction (allowed x present weak)) fun _ u _ =>
      (Brings.release c.ref.realm c.ref.handle).leads u
  | true => exact (Brings.release c.ref.realm c.ref.handle).leads w

theorem collectGarbage (r : RealmId) : LeadsAt F w [] (collectGarbage r) fun _ => [] := by
  refine .fetch fun x present => ?_
  split
  · exact .pure fun _ => nofun
  · have emptied : x.Turns (w.AtHand []) { x with finalizers := [] } :=
      Realm.turns_aside rfl rfl rfl rfl rfl rfl
    refine .bind (C := fun _ => []) (.of_ok rfl (List.Subset.refl _) (.turn present emptied))
      fun _ u done => .assertOwner fun _ => ?_
    obtain rfl : w.withRealm r { x with finalizers := [] } = u := congrArg Prod.snd done
    have there := realm_withRealm w r x { x with finalizers := [] } present
    have back : { x with finalizers := [] }.Turns ((w.withRealm r { x with finalizers := [] }).AtHand []) x :=
      Realm.turns_aside rfl rfl rfl rfl rfl rfl
    refine .bind (C := fun _ => []) (.of_ok rfl (List.Subset.refl _)
      (.turn there (back.trans x.turns_collect))) fun _ _ _ => .pure fun _ => nofun

theorem callClosure (runs : Runs F d) (honest : w.Honest) (c : Guest.Closure)
    (args : List Guest.Value)
    (frames : ∀ v u f, exec (functionOf c) w = (.ok (.ok v), u) →
      Enters (.reflectGuest v .call args) u f → Permits F d f) :
    LeadsAt F w [] (callClosure (performer d) c args) thrownValues := by
  have copies := Brings.functionOf (F := F) (A := []) c
  refine .bind (copies w) fun copied u done => ?_
  cases copied with
  | error e => exact .pure fun _ held => .hand (List.mem_append_left _ held)
  | ok v =>
    have stands := (copies w).stands done honest.stands
    refine .bind (.onHalt (reflectGuest runs stands.honest v .call args fun f =>
      frames v u f done) (.dropGuest v)) fun result z _ => ?_
    refine .bind (Brings.releaseGuest v z) fun released z' _ => ?_
    cases released with
    | ok => exact .pure fun v held => .hand (List.mem_append_right _ held)
    | error e =>
      cases result with
      | ok u =>
        refine .bind (Brings.dropGuest u z') fun _ _ _ => .pure fun _ held => .hand ?_
        exact List.mem_append_right [] (List.mem_append_left _ held)
      | error => exact .pure fun _ held => .hand (List.mem_append_left _ held)

theorem host (runs : Runs F d) (honest : w.Honest) (program : Names Host.Value → Code (Names Host.Value))
    (code : (program w.registers.values).Honest (·.map (·.2)) (w.registers.values.map (·.2)) [])
    (frames : Permits F d ⟨program w.registers.values, w.pinned (w.registers.values.map (·.2))⟩) :
    LeadsAt F w [] (Act.pinning (w.registers.values.map (·.2)) do
      let values ← (program w.registers.values).exec (performer d)
      setRegisters fun r => { r with values }) fun _ => [] := by
  refine .pinning _ (fun v held => ?_) (.bind (runs _ _ _ _ ⟨_, [], code, honest.pinned _,
    fun v held => .pinned (List.mem_append_left _ held), fun _ => nofun⟩ frames) fun values u _ => ?_)
  · obtain ⟨⟨name, v⟩, there, rfl⟩ := List.mem_map.mp held
    exact .register there
  · refine .of_ok rfl (List.Subset.refl _) (.trans (.name values fun name v held => .hand ?_)
      (.take fun _ => nofun))
    exact List.mem_map.mpr ⟨(name, v), held, rfl⟩

theorem define (name : String) (kind : Host.Kind) (makes : w.Makes kind)
    (had : ∀ v ∈ kind.holds, w.AtHand [] v) :
    LeadsAt F w [] (do nameValue name (.object (← Act.newObject ⟨none, kind, []⟩))) fun _ => [] := by
  have new : LeadsAt F w [] (Act.newObject ⟨none, kind, []⟩) fun o => [.object o] := by
    refine .newObject (fun v held => ?_) makes
    obtain ⟨_, held⟩ | held := (Host.Object.mem_references_iff _ v).mp held
    · cases held
    · exact had v held
  refine new.bind fun o u _ => .of_ok (exec_nameValue name _ u) (List.Subset.refl _)
    (.trans (.name _ fun n v held => ?_) (.take fun _ => nofun))
  · obtain rfl | ⟨n, held⟩ := Names.mem_put _ _ _ _ _ held
    · exact .hand List.mem_cons_self
    · exact .register held

end LeadsAt

end Act

/-- An ordinary deed comes to moves that forget only what it gives up. -/
theorem Deed.leads {w : World} (d : Deed) (ordinary : d.IsOrdinary) (honest : w.Honest)
    (fits : d.Fits w) : Act.LeadsAt (d.GivesUp w · ·) w [] d.act fun _ => [] := by
  have runs := Act.runs (d.GivesUp w · ·) Act.depthLimit
  have permits (f : Frame) (begins : d.Begins w f) :
      Act.Permits (d.GivesUp w · ·) Act.depthLimit f :=
    fun r id frees => Or.inl (Or.inr ⟨f, begins, frees⟩)
  cases d with
  | create | settle | job => exact ordinary.elim
  | release c =>
    refine .bind (.releaseClosure (A := []) c fun x present weak => ?_) fun _ _ _ =>
      .pure fun _ => nofun
    exact Or.inr ⟨⟨rfl, rfl⟩, x, present, weak⟩
  | drop ref => exact Act.Brings.dropRef ref w
  | free r id =>
    exact .bind (.freeFunction (Or.inl (Or.inl rfl))) fun _ _ _ => .pure fun _ => nofun
  | call r id args =>
    refine .bind (.callFunction (A := []) runs honest r id args fun f owns begins =>
      permits f (.call owns begins)) fun outcome u _ => ?_
    cases outcome with
    | ok => exact .pure fun _ => nofun
    | error v =>
      exact .weaken (Act.Brings.setException r (Host.Value.isKnown_of_mem List.mem_cons_self) u)
        (fun _ => Host.Value.isKnown_of_mem) fun _ _ => nofun
  | callClosure c args =>
    exact .bind (.callClosure runs honest c args fun v u f copied enters =>
      permits f (.callClosure copied enters)) fun _ _ _ => .pure fun _ => nofun
  | host program =>
    exact .get (.host runs honest program (fits _) (permits _ .host))
  | define name kind => exact .define name kind fits.1 fits.2
  | collect r => exact .bind (.collectGarbage r) fun _ _ _ => .pure fun _ => nofun

/-- Without weak references, to give a closure back is to free its function and to go on. -/
theorem Act.grows_releaseClosure (c : Guest.Closure) {w : World} {x : Realm}
    (present : w.realms[c.ref.realm]? = some x) (weak : x.features.weakRefs = false) :
    Grows (exec (freeFunction c.ref.realm c.function) w).2 (exec (releaseClosure c) w).2 := by
  refine grows_after (exec_realm w _ x present) ?_
  rw [weak]
  exact grows_bind (.refl _) fun _ u _ =>
    (Brings.release (A := []) c.ref.realm c.ref.handle).grows u

namespace Deed

variable {w : World} {d : Deed} {r : RealmId} {id : FunctionId} {F : RealmId → FunctionId → Prop}

/-- Code that a deed runs can count on what it knows, and is reached by moves. -/
theorem Begins.sound (honest : w.Honest) (fits : d.Fits w) {f : Frame} (begins : d.Begins w f) :
    f.Sound ∧ Moves F [] w [] f.world := by
  cases begins with
  | call _ begins => exact begins.sound honest
  | @callClosure c args v u f copied enters =>
    have copies := Act.Brings.functionOf (F := F) (A := []) c w
    obtain ⟨sound, moves⟩ := enters.sound (F := F) (A := [])
      (copies.stands copied honest.stands).honest fun v held => by cases held
    exact ⟨sound, .trans (copies.moves_ok copied) (.trans (.take (B := []) fun _ => nofun) moves)⟩
  | @host program =>
    refine ⟨⟨_, _, [], fits w.registers.values, honest.pinned _, fun v held => ?_, fun _ => nofun⟩,
      .pin _ fun v held => ?_⟩
    · exact .pinned (List.mem_append_left _ held)
    · obtain held | held := List.mem_append.mp held
      · obtain ⟨⟨name, v⟩, there, rfl⟩ := List.mem_map.mp held
        exact .register there
      · exact .pinned held

/-- A deed goes on from where the code that it ran ended. -/
theorem Begins.grows {f : Frame} (begins : d.Begins w f) :
    Grows (Act.exec (f.code.exec Act.outermost) f.world).2 (Act.exec d.act w).2 := by
  cases begins with
  | call owns begins =>
    refine Act.grows_bind (Act.grows_callFunction owns begins) fun outcome u _ => ?_
    cases outcome with
    | ok => exact .refl u
    | error v =>
      exact (Act.Brings.setException (A := [v]) _
        (Host.Value.isKnown_of_mem List.mem_cons_self)).grows u
  | callClosure copied enters => exact Act.grows_ending (Act.grows_callClosure copied enters)
  | host =>
    refine Act.grows_after (Act.exec_get w) (Act.grows_pinning (Act.grows_bind (.refl _) ?_))
    exact fun _ u _ => { World.Grows.refl u with }

/-- What a deed gives up is unknown when it is over. -/
theorem lost (honest : w.Honest) (fits : d.Fits w) {x : Realm} (present : w.realms[r]? = some x)
    (gives : d.GivesUp w r id) : (Act.exec d.act w).2.Lost r id := by
  obtain (rfl | ⟨f, begins, frees⟩) | ⟨releases, y, there, weak⟩ := gives
  · exact (Act.grows_ending (.refl _)).lost (Act.lost_of_freeFunction present)
  · obtain ⟨sound, moves⟩ := begins.sound (F := Act.Anything) honest fits
    exact begins.grows.lost (frees.lost sound (moves.grows.present ⟨x, present⟩))
  · cases d with
    | release c =>
      obtain ⟨rfl, rfl⟩ := releases
      exact (Act.grows_ending (Act.grows_releaseClosure c there weak)).lost
        (Act.lost_of_freeFunction present)
    | _ => exact releases.elim

end Deed

end Membrane
