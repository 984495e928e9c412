import Membrane.Proofs.Calls.Slot
import Membrane.Proofs.Closures.Quiet
/-!
Code that is begun to be run. It is honest, and what it knows is in the hands of its call or referred to
by code that is.
-/

set_option autoImplicit false

namespace Membrane

open World Request

/-- What code can count on: the world's code is honest, what it knows stays at hand, and the promises
that it made are open. -/
structure World.Stands (w : World) (known : List Host.Value) (promises : List PromiseId) : Prop where
  honest : w.Honest
  gripped : ∀ v ∈ known, w.Gripped v
  isOpen : ∀ p ∈ promises, w.Open p

/-- Honest code in a world where it can count on all that it knows. -/
def Code.Grounded {α : Type} (values : α → List Host.Value) (code : Code α) (w : World) : Prop :=
  ∃ known promises, code.Honest values known promises ∧ w.Stands known promises

/-- A frame of such code. -/
def Frame.Sound (f : Frame) : Prop := ∃ values, f.code.Grounded values f.world

namespace World

variable {w : World} {known : List Host.Value} {promises : List PromiseId}

theorem Honest.stands (honest : w.Honest) : w.Stands [] [] :=
  ⟨honest, fun _ => nofun, fun _ => nofun⟩

theorem Stands.atHand (stands : w.Stands known promises) {A : List Host.Value} {v : Host.Value}
    (isKnown : v.IsKnown known) : w.AtHand A v := by
  cases object : v.object? with
  | none => exact .plain object
  | some o => exact (stands.gripped v (isKnown (by rw [object]; rfl))).atHand

theorem Honest.pinned (honest : w.Honest) (values : List Host.Value) : (w.pinned values).Honest :=
  { honest with }

end World

namespace Act

/-- The code that is run when an object is called: a guest function runs on the thread that owns its
realm, or not at all. -/
inductive ObjectEnters (o : ObjectId) (this : Host.Value) (args : List Host.Value) (w : World) :
    Frame → Prop
  | host {x : Host.Object} {g : Host.Function} (there : w.heap.get? o = some x)
      (kind : x.kind = .function g) :
      ObjectEnters o this args w ⟨g.run this args, w.pinned (.object o :: this :: args)⟩
  | guest {x : Host.Object} {s : RealmId} {id : FunctionId} {raws : List Raw} {v : World} {f : Frame}
      (there : w.heap.get? o = some x) (kind : x.kind = .guestFunction s id)
      (held : (w.pinned (.object o :: this :: args)).holdsRealm s)
      (lowered : exec (args.mapM (lowerRaw s)) (w.pinned (.object o :: this :: args)) = (.ok raws, v))
      (owns : v.Owns s) (begins : FunctionBegins s id raws v f) : ObjectEnters o this args w f

/-- The code that is run by a reflective call of an object. -/
inductive ReflectionEnters (o : ObjectId) (args : List Host.Value) (w : World) :
    Reflection → Frame → Prop
  | call {f : Frame} (enters : ObjectEnters o .undefined args w f) :
      ReflectionEnters o args w .call f
  | construct {f : Frame} (begins : ConstructorBegins o args w f) :
      ReflectionEnters o args w .construct f
  | method {name : String} {m : ObjectId} {f : Frame}
      (found : w.heap.property o name = .object m) (enters : ObjectEnters m (.object o) args w f) :
      ReflectionEnters o args w (.method name) f

/-- The code that is run as a request is answered. -/
inductive Enters : Request → World → Frame → Prop
  | invokeImport {s : RealmId} {name : String} {args : List Wire} {w : World} {f : Frame}
      (owns : w.Owns s) (begins : ImportBegins s name args w f) :
      Enters (.invokeImport s name args) w f
  | apply {o : ObjectId} {this : Host.Value} {args : List Host.Value} {w : World} {f : Frame}
      (enters : ObjectEnters o this args w f) : Enters (.apply o this args) w f
  | construct {o : ObjectId} {args : List Host.Value} {w : World} {f : Frame}
      (begins : ConstructorBegins o args w f) : Enters (.construct o args) w f
  | reflect {s : RealmId} {target : Handle} {how : Reflection} {args : List Raw} {w u v : World}
      {o : ObjectId} {values : List Host.Value} {f : Frame}
      (found : exec (objectAt s target) w = (.ok (.ok o), u))
      (lifted : exec (liftAll s args) u = (.ok (.ok values), v))
      (enters : ReflectionEnters o values v how f) : Enters (.reflect s target how args) w f
  | reflectGuest {target : Guest.Value} {how : Reflection} {args : List Guest.Value} {w u : World}
      {ref : Guest.Ref} {encoded : List (Raw × Option Handle)} {f : Frame}
      (found : targetOf target = .ok ref)
      (made : exec (args.mapM (encodeArg ref.realm)) w = (.ok encoded, u))
      (enters : Enters (.reflect ref.realm ref.handle how (encoded.map (·.1))) u f) :
      Enters (.reflectGuest target how args) w f

/-- What code that runs in a frame gets to, at any depth below it: what is left of its own code after
some answers, and what is left of the code that is run as it asks for something. -/
inductive GetsTo : Nat → Frame → Nat → Frame → Prop
  | here (d : Nat) (f : Frame) : GetsTo d f d f
  | later {α : Type} {d e : Nat} {request : Request} {next : request.Answer → Code α}
      {answer : request.Answer} {w v : World} {g : Frame}
      (answered : exec (performer d request) w = (.ok answer, v))
      (rest : GetsTo d ⟨next answer, v⟩ e g) : GetsTo d ⟨.ask request next, w⟩ e g
  | inside {α : Type} {d e : Nat} {request : Request} {next : request.Answer → Code α} {w : World}
      {f g : Frame} (enters : Enters request w f) (rest : GetsTo d f e g) :
      GetsTo (d + 1) ⟨.ask request next, w⟩ e g

/-- A guest function is given up by code that runs in a frame, or below it. -/
def Frees (r : RealmId) (id : FunctionId) (d : Nat) (f : Frame) : Prop :=
  ∃ (e : Nat) (α : Type) (next : (Request.freeFunction r id).Answer → Code α) (u : World),
    GetsTo d f (e + 1) ⟨.ask (.freeFunction r id) next, u⟩

variable {α : Type} {F : RealmId → FunctionId → Prop} {A : List Host.Value} {w : World}

theorem LeadsAt.stands {act : Act α} {C : α → List Host.Value} (leads : LeadsAt F w A act C)
    {a : α} {w' : World} (done : exec act w = (.ok a, w')) {known : List Host.Value}
    {promises : List PromiseId} (stands : w.Stands known promises) : w'.Stands known promises where
  honest := (leads.moves_ok done).honest stands.honest
  gripped v held := (leads.moves_ok done).grows.gripped (leads.pins_ok done) (stands.gripped v held)
  isOpen p held := (leads.moves_ok done).grows.isOpen (stands.isOpen p held)

/-! The code that is run -/

section

variable (honest : w.Honest)

include honest

theorem grounded_guestFunction {s : RealmId} {id : FunctionId} {raws : List Raw}
    {g : Guest.Function} {values : List Guest.Value} {u : World}
    (known : w.guestFunction? s id = some g)
    (lifted : exec (liftGuests s [] raws) w.sweep = (.ok (.ok values), u)) :
    (g.run values).Grounded Code.thrown (u.pinned g.holds) ∧
      Moves F A w g.holds u := by
  obtain ⟨x, present, found⟩ := Option.bind_eq_some_iff.mp known
  have swept : w.sweep.Honest := Moves.sweep (F := F).honest honest
  have held (v : Host.Value) (held : v ∈ g.holds) : w.sweep.AtHand [] v :=
    .realm present ((x.mem_held_iff v).mpr
      (Or.inr (Or.inr (Or.inr ⟨id, g, mem_of_lookup found, held⟩))))
  have lifts := Brings.liftGuests (F := F) (A := g.holds) s raws [] w.sweep
  refine ⟨⟨g.holds, [], ?_, ((lifts.stands lifted swept.stands).honest.pinned _), fun v held => ?_,
    fun _ => nofun⟩, ?_⟩
  · exact swept.closures s x id g present (mem_of_lookup found) values
  · exact .pinned (List.mem_append_left _ held)
  · exact .trans (.take (B := []) fun _ => nofun) (.trans .sweep (.trans (.take held)
      (lifts.moves_ok lifted)))

theorem grounded_function {o : ObjectId} {x : Host.Object} {g : Host.Function}
    (there : w.heap.get? o = some x) (kind : x.kind = .function g) (this : Host.Value)
    (args : List Host.Value) :
    (g.run this args).Grounded outcomeValues (w.pinned (.object o :: this :: args)) := by
  have code := honest.objects o x there
  rw [kind] at code
  refine ⟨_, [], code this args, honest.pinned _, fun v held => ?_, fun _ => nofun⟩
  obtain held | held := List.mem_append.mp held
  · exact .code (.pinned List.mem_cons_self) there (kind ▸ held)
  · exact .pinned (List.mem_cons_of_mem _ (List.mem_append_left w.pins held))

theorem grounded_constructor {o : ObjectId} {x : Host.Object} {c : Host.Constructor}
    (there : w.heap.get? o = some x) (kind : x.kind = .constructor c) (args : List Host.Value) :
    (c.run args).Grounded outcomeValues (w.pinned (.object o :: args)) := by
  have code := honest.objects o x there
  rw [kind] at code
  refine ⟨_, [], code args, honest.pinned _, fun v held => ?_, fun _ => nofun⟩
  obtain held | held := List.mem_append.mp held
  · exact .code (.pinned List.mem_cons_self) there (kind ▸ held)
  · exact .pinned (List.mem_cons_of_mem _ (List.mem_append_left w.pins held))

theorem grounded_import {s : RealmId} {x : Realm} {name : String} {i : Import}
    (present : w.realms[s]? = some x) (known : w.runtime.import? name = some i)
    (args : List Wire) :
    (i.run s args).Grounded Code.thrown (w.withRealm s x.openFrame) ∧
      Moves F A w A (w.withRealm s x.openFrame) := by
  have opens : Moves F A w A (w.withRealm s x.openFrame) := .turn present x.turns_openFrame
  refine ⟨⟨_, [], honest.imports name i (mem_of_lookup known) s args, opens.honest honest,
    fun v held => ?_, fun _ => nofun⟩, opens⟩
  exact .imported (mem_of_lookup known) held

/-! What is begun to be run -/

theorem FunctionBegins.sound {s : RealmId} {id : FunctionId} {raws : List Raw} {f : Frame}
    (begins : FunctionBegins s id raws w f) : f.Sound ∧ Moves F A w [] f.world := by
  cases begins with
  | @run g values u known lifted =>
    obtain ⟨grounded, moves⟩ := grounded_guestFunction (F := F) (A := A) honest known lifted
    refine ⟨⟨_, grounded⟩, .trans moves (.trans (.pin _ fun v held => ?_)
      (.take fun _ => nofun))⟩
    exact (List.mem_append.mp held).elim .hand .pinned

theorem ObjectEnters.sound {o : ObjectId} {this : Host.Value} {args : List Host.Value} {f : Frame}
    (had : ∀ v ∈ .object o :: this :: args, w.AtHand A v) (enters : ObjectEnters o this args w f) :
    f.Sound ∧ Moves F A w [] f.world := by
  have pins : Moves F A w A (w.pinned (.object o :: this :: args)) :=
    .pin _ fun v held => (List.mem_append.mp held).elim (had v) .pinned
  cases enters with
  | host there kind =>
    exact ⟨⟨_, grounded_function honest there kind this args⟩,
      .trans pins (.take fun _ => nofun)⟩
  | @guest x s id raws v f there kind held lowered _ begins =>
    have lowers := Brings.mapM (F := F) (A := args) (lowerRaw s) args
      (fun v held => .lowerRaw s (Host.Value.isKnown_of_mem held))
      (w.pinned (.object o :: this :: args))
    obtain ⟨sound, moves⟩ := begins.sound (F := F) (A := args)
      (lowers.stands lowered (honest.pinned _).stands).honest
    refine ⟨sound, .trans pins (.trans (.take fun v held => .pinned ?_)
      (.trans (lowers.moves_ok lowered) moves))⟩
    exact List.mem_cons_of_mem _ (List.mem_cons_of_mem _ (List.mem_append_left _ held))

theorem ConstructorBegins.sound {o : ObjectId} {args : List Host.Value} {f : Frame}
    (had : ∀ v ∈ .object o :: args, w.AtHand A v) (begins : ConstructorBegins o args w f) :
    f.Sound ∧ Moves F A w [] f.world := by
  cases begins with
  | run there kind =>
    refine ⟨⟨_, grounded_constructor honest there kind args⟩,
      .trans (.pin _ fun v held => ?_) (.take fun _ => nofun)⟩
    exact (List.mem_append.mp held).elim (had v) .pinned

theorem ReflectionEnters.sound {o : ObjectId} {how : Reflection} {args : List Host.Value}
    {f : Frame} (had : ∀ v ∈ .object o :: args, w.AtHand A v)
    (enters : ReflectionEnters o args w how f) : f.Sound ∧ Moves F A w [] f.world := by
  cases enters with
  | call enters =>
    refine enters.sound honest fun v held => ?_
    obtain rfl | held := List.mem_cons.mp held
    · exact had _ List.mem_cons_self
    · obtain rfl | held := List.mem_cons.mp held
      · exact .plain rfl
      · exact had v (List.mem_cons_of_mem _ held)
  | construct begins => exact begins.sound honest had
  | @method name m f found enters =>
    refine enters.sound honest fun v held => ?_
    obtain rfl | held := List.mem_cons.mp held
    · obtain plain | ⟨x, there, held⟩ := w.heap.property_eq o name
      · rw [found] at plain
        cases plain
      · exact .object (had _ List.mem_cons_self) there (found ▸ held)
    · exact had v held

theorem ImportBegins.sound {s : RealmId} {name : String} {args : List Wire} {f : Frame}
    (begins : ImportBegins s name args w f) : f.Sound ∧ Moves F A w [] f.world := by
  cases begins with
  | run present known =>
    obtain ⟨grounded, moves⟩ := grounded_import (F := F) (A := A) honest present known args
    exact ⟨⟨_, grounded⟩, .trans moves (.take fun _ => nofun)⟩

end

/-- Code that is run as a request is answered can count on what it knows, and is reached by moves. -/
theorem Enters.sound {request : Request} {f : Frame} (honest : w.Honest)
    (had : ∀ v ∈ request.named, w.AtHand A v) (enters : Enters request w f) :
    f.Sound ∧ Moves F A w [] f.world := by
  induction enters generalizing A with
  | invokeImport _ begins => exact begins.sound honest
  | apply enters => exact enters.sound honest had
  | construct begins => exact begins.sound honest had
  | @reflect s target how args w u v o values f found lifted enters =>
    have finds := Brings.objectAt (F := F) (A := []) s target w
    have lifts := Brings.liftAll (F := F) (A := [.object o]) s args u
    have stands := lifts.stands lifted (finds.stands found honest.stands)
    obtain ⟨sound, moves⟩ := enters.sound (F := F) (A := .object o :: values) stands.honest
      fun _ => .hand
    refine ⟨sound, .trans (.take (B := []) fun _ => nofun) (.trans (finds.moves_ok found)
      (.trans (lifts.moves_ok lifted) (.trans (.take fun v held => .hand ?_) moves)))⟩
    obtain rfl | held := List.mem_cons.mp held
    · exact List.mem_append_right values List.mem_cons_self
    · exact List.mem_append_left _ held
  | @reflectGuest target how args w u ref encoded f found made enters ih =>
    have encodes := Brings.mapM (F := F) (A := []) (encodeArg ref.realm) args
      (fun v _ => .encodeArg ref.realm v) w
    obtain ⟨sound, moves⟩ := ih (A := []) (encodes.stands made honest.stands).honest fun _ => nofun
    exact ⟨sound, .trans (.take (B := []) fun _ => nofun) (.trans (encodes.moves_ok made) moves)⟩

end Act

end Membrane
