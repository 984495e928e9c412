import Membrane.Proofs.Closures.Frames
/-!
Calls, as moves. Code that makes nothing up, and that is run with what it knows in the hands of its
call, spreads only what is at hand, and so do the calls that it makes in turn. The induction is on the
depth; at each depth the code is run to its end answer by answer.
-/

set_option autoImplicit false

namespace Membrane

open World Request

namespace Act

variable {α β : Type} {F : RealmId → FunctionId → Prop} {A : List Host.Value} {w : World} {d : Nat}

/-- No guest function is given up below a frame but those that may be. -/
def Permits (F : RealmId → FunctionId → Prop) (d : Nat) (f : Frame) : Prop :=
  ∀ r id, Frees r id d f → F r id

/-- Code that can count on what it knows is run by moves, up to a depth. -/
def Runs (F : RealmId → FunctionId → Prop) (d : Nat) : Prop :=
  ∀ (α : Type) (values : α → List Host.Value) (code : Code α) (w : World),
    code.Grounded values w → Permits F d ⟨code, w⟩ →
    LeadsAt F w [] (code.exec (performer d)) values

namespace LeadsAt

section

variable (runs : Runs F d) (honest : w.Honest)

include runs honest

theorem callFunction (s : RealmId) (id : FunctionId) (raws : List Raw)
    (frames : ∀ f, w.Owns s → FunctionBegins s id raws w f → Permits F d f) :
    LeadsAt F w A (callFunction (performer d) s id raws) Code.thrown := by
  refine .dropping (.assertOwner fun owns => LeadsAt.sweep.bind fun _ w₁ swept => ?_)
  obtain rfl : w.sweep = w₁ := congrArg Prod.snd swept
  refine .fetch fun x present => ?_
  cases found : x.closures.get? id with
  | none => exact (Brings.throwTypeError _ fun _ => rfl).leads _
  | some g =>
    have known : w.guestFunction? s id = some g := by
      rw [guestFunction?, present, Option.bind_some, found]
    refine .taking g.holds (fun v held => .realm present ?_)
      ((Brings.liftGuests s raws [] _).bind fun result u lifted => ?_)
    · exact (x.mem_held_iff v).mpr (Or.inr (Or.inr (Or.inr ⟨id, g, mem_of_lookup found, held⟩)))
    cases result with
    | error e => exact .dropping ((Brings.throwFault e fun _ => rfl).leads u)
    | ok values =>
      have code := (grounded_guestFunction (F := F) (A := []) honest known lifted).1
      have body : LeadsAt F u g.holds
          (Act.pinning g.holds ((g.run values).exec (performer d))) Code.thrown :=
        .pinning g.holds (fun _ => .hand) (runs _ _ _ _ code (frames _ owns (.run known lifted)))
      refine .bind (.onHalt body (.forM _ values fun v _ => .dropGuest v)) fun outcome v _ => ?_
      refine .bind (Brings.forM _ values (fun v _ => .releaseGuestQuietly v) v) fun _ v' _ => ?_
      cases outcome with
      | error thrown => exact .pure fun _ => .hand
      | ok result =>
        exact .bind (Brings.encodeResult s result v') fun _ _ _ =>
          .pure fun _ held => (List.not_mem_nil held).elim

theorem callThroughObject (s : RealmId) (id : FunctionId) (args : List Host.Value)
    (known : ∀ v ∈ args, v.IsKnown A)
    (frames : ∀ raws v f, w.holdsRealm s → exec (args.mapM (lowerRaw s)) w = (.ok raws, v) →
      v.Owns s → FunctionBegins s id raws v f → Permits F d f) :
    LeadsAt F w A (callThroughObject (performer d) s id args) outcomeValues := by
  refine .get ?_
  split
  · exact (Brings.bind (.newError _ _) fun v => .handOn fun _ held => held).leads w
  · next kept =>
    have lowers := Brings.mapM (F := F) (lowerRaw s) args fun v held =>
      .lowerRaw s (known v held)
    refine .bind (lowers w) fun raws v lowered => ?_
    refine .bind (callFunction runs ((lowers w).stands lowered honest.stands).honest s id raws
      fun f => frames raws v f (by simpa using kept) lowered) fun answer u _ => ?_
    cases answer with
    | error thrown => exact .pure fun _ => .hand
    | ok raw =>
      refine .bind (Brings.liftRaw s raw u) fun result u' _ => ?_
      cases result with
      | error e => exact .dropping ((Brings.throwFault e fun _ => rfl).leads u')
      | ok value =>
        cases raw.handle? with
        | none => exact .pure fun _ => .hand
        | some h =>
          exact .bind (C := fun _ => [value]) (Brings.releaseQuietly s h u') fun _ _ _ =>
            .pure fun _ => .hand

theorem callObject (o : ObjectId) (this : Host.Value) (args : List Host.Value)
    (known : ∀ v ∈ .object o :: this :: args, v.IsKnown A)
    (frames : ∀ f, ObjectEnters o this args w f → Permits F d f) :
    LeadsAt F w A (callObject (performer d) o this args) outcomeValues := by
  refine .fetch fun x there => ?_
  refine .pinning _ (fun v held => atHand_of_known (known v held)) ?_
  cases kind : x.kind with
  | function g =>
    exact runs _ _ _ _ (grounded_function honest there kind this args) (frames _ (.host there kind))
  | guestFunction s id =>
    refine .taking args (fun v held => .pinned ?_) (callThroughObject runs (honest.pinned _) s id args
      (fun v => Host.Value.isKnown_of_mem) fun raws v f held lowered owns begins =>
        frames f (.guest there kind held lowered owns begins))
    exact List.mem_cons_of_mem _ (List.mem_cons_of_mem _ (List.mem_append_left w.pins held))
  | constructor | plain | promise => exact (Brings.throwTypeError _ fun _ => rfl).leads _

theorem constructObject (o : ObjectId) (args : List Host.Value)
    (known : ∀ v ∈ .object o :: args, v.IsKnown A)
    (frames : ∀ f, ConstructorBegins o args w f → Permits F d f) :
    LeadsAt F w A (constructObject (performer d) o args) outcomeValues := by
  refine .fetch fun x there => ?_
  refine .pinning _ (fun v held => atHand_of_known (known v held)) ?_
  cases kind : x.kind with
  | constructor c =>
    exact runs _ _ _ _ (grounded_constructor honest there kind args) (frames _ (.run there kind))
  | function | guestFunction | plain | promise =>
    exact (Brings.throwTypeError _ fun _ => rfl).leads _

theorem reflectObject (o : ObjectId) (how : Reflection) (args : List Host.Value)
    (known : ∀ v ∈ .object o :: args, v.IsKnown A)
    (frames : ∀ f, ReflectionEnters o args w how f → Permits F d f) :
    LeadsAt F w A (reflectObject (performer d) o how args) outcomeValues := by
  cases how with
  | call =>
    refine callObject runs honest o .undefined args (fun v held => ?_) fun f enters =>
      frames f (.call enters)
    obtain rfl | held := List.mem_cons.mp held
    · exact known _ List.mem_cons_self
    · obtain rfl | held := List.mem_cons.mp held
      · exact Host.Value.isKnown_of_plain rfl A
      · exact known v (List.mem_cons_of_mem _ held)
  | construct =>
    exact constructObject runs honest o args known fun f begins => frames f (.construct begins)
  | method name =>
    have reads := Brings.property (F := F) (known _ List.mem_cons_self) name
    refine .bind (reads w) fun v w' read => ?_
    obtain ⟨rfl, rfl⟩ : w.heap.property o name = v ∧ w = w' := by
      cases read
      exact ⟨rfl, rfl⟩
    split
    · next m found =>
      refine callObject runs honest m (.object o) args (fun v held => ?_) fun f enters =>
        frames f (.method found enters)
      obtain rfl | held := List.mem_cons.mp held
      · exact Host.Value.isKnown_of_mem (List.mem_append_left A (found ▸ List.mem_cons_self))
      · exact (known v held).more _
    · exact .dropping ((Brings.throwTypeError _ fun _ => rfl).leads w)

omit runs honest in
theorem finish (s : RealmId) (outcome : Except Host.Value Host.Value) :
    LeadsAt F w (outcomeValues outcome) (finish s outcome) thrownValues := by
  cases outcome with
  | ok v =>
    have known : v.IsKnown [v] := Host.Value.isKnown_of_mem List.mem_cons_self
    exact .bind (C := fun _ => [v]) (Brings.lowerRaw s known w) fun _ _ _ => .pure fun _ => nofun
  | error v =>
    exact (Brings.andThen (.setException s (Host.Value.isKnown_of_mem List.mem_cons_self)) fun _ =>
      .mapping _ (.checkException s)).leads w

theorem reflect (s : RealmId) (target : Handle) (how : Reflection) (args : List Raw)
    (frames : ∀ f, Enters (.reflect s target how args) w f → Permits F d f) :
    LeadsAt F w A (reflect (performer d) s target how args) thrownValues := by
  have finds := Brings.objectAt (F := F) (A := A) s target
  refine .bind (finds w) fun target' u found => ?_
  cases target' with
  | error e => exact .pure fun _ held => .hand (List.mem_append_left _ held)
  | ok o =>
    have lifts := Brings.liftAll (F := F) (A := .object o :: A) s args
    refine .bind (lifts u) fun lifted' v lifted => ?_
    cases lifted' with
    | error e => exact .pure fun _ held => .hand (List.mem_append_left _ held)
    | ok values =>
      have stands := (lifts u).stands lifted ((finds w).stands found honest.stands)
      refine .bind (reflectObject runs stands.honest o how values (fun v held => ?_) fun f enters =>
        frames f (.reflect found lifted enters)) fun outcome z _ => finish s outcome
      apply Host.Value.isKnown_of_mem
      obtain rfl | held := List.mem_cons.mp held
      · exact List.mem_append_right values List.mem_cons_self
      · exact List.mem_append_left _ held

omit runs honest in
theorem withEncoded (r : RealmId) (args : List Guest.Value)
    (act : List Raw → Act (Except Fault α))
    (inside : ∀ encoded u, exec (args.mapM (encodeArg r)) w = (.ok encoded, u) →
      LeadsAt F u A (act (encoded.map (·.1))) thrownValues) :
    LeadsAt F w A (withEncoded r args act) thrownValues := by
  refine .bind (Brings.mapM _ args (fun v _ => .encodeArg r v) w) fun encoded u made => ?_
  refine .bind (inside encoded u made) fun result v _ => ?_
  refine .bind (Brings.releaseAll r _ v) fun released _ _ => ?_
  cases released with
  | error e => exact .pure fun _ held => .hand (List.mem_append_left _ held)
  | ok done => exact .pure fun _ => .hand

theorem reflectGuest (target : Guest.Value) (how : Reflection) (args : List Guest.Value)
    (frames : ∀ f, Enters (.reflectGuest target how args) w f → Permits F d f) :
    LeadsAt F w A (reflectGuest (performer d) target how args) thrownValues := by
  unfold Act.reflectGuest
  cases found : targetOf target with
  | error e => exact (Brings.noTarget found).leads w
  | ok ref =>
    refine .bind (withEncoded ref.realm args _ fun encoded u made => ?_) fun result v _ => ?_
    · have encodes := Brings.mapM (F := F) (A := A) (encodeArg ref.realm) args fun v _ =>
        .encodeArg ref.realm v
      exact reflect runs ((encodes w).stands made honest.stands).honest ref.realm ref.handle how _
        fun f enters => frames f (.reflectGuest found made enters)
    · cases result with
      | error e => exact .pure fun _ => .hand
      | ok raw => exact .dropping ((Brings.liftGuest ref.realm raw).leads v)

theorem invokeImport (s : RealmId) (name : String) (args : List Wire)
    (frames : ∀ f, w.Owns s → ImportBegins s name args w f → Permits F d f) :
    LeadsAt F w A (invokeImport (performer d) s name args) fun _ => [] := by
  rw [invokeImport_eq]
  refine .dropping (.assertOwner fun owns => .bind (C := fun _ => [])
    (.onRealm fun x present => .turn present x.turns_openFrame) fun _ u opened => ?_)
  obtain ⟨x, present, _, rfl⟩ := exec_onRealm_eq_ok w s _ u () opened
  refine .bind (C := Code.thrown) (.get ?_) fun outcome v _ => ?_
  · cases known : (w.withRealm s x.openFrame).runtime.import? name with
    | none => exact (Brings.throwTypeError _ fun _ => rfl).leads _
    | some i =>
      exact runs _ _ _ _ (grounded_import (F := F) (A := []) honest present known args).1
        (frames _ owns (.run present known))
  · have closes : Brings F (Code.thrown outcome) (Act.onRealm s fun x => ((), x.closeFrame))
        fun _ => [] :=
      .onRealm s _ (fun x => x.turns_closeFrame) fun _ _ => nofun
    refine .bind (closes v) fun _ v' _ => ?_
    cases outcome with
    | ok word => exact .pure fun _ => nofun
    | error thrown =>
      have known : thrown.IsKnown [thrown] := Host.Value.isKnown_of_mem List.mem_cons_self
      exact .bind (C := fun _ => []) ((Brings.setException s known).leads v') fun _ _ _ =>
        .pure fun _ => nofun

omit runs honest in
theorem freeFunction {r : RealmId} {id : FunctionId} (allowed : F r id) :
    LeadsAt F w A (freeFunction r id) fun _ => [] :=
  .dropping (.bind .sweep fun _ _ _ => .onRealm fun _ present => .forget present allowed)

/-- A request is answered by moves. -/
theorem answer (request : Request) (known : ∀ v ∈ request.named, v.IsKnown A)
    (isOpen : ∀ p ∈ request.namedPromises, w.Open p)
    (frames : ∀ f, Enters request w f → Permits F d f)
    (frees : ∀ r id, request = .freeFunction r id → F r id) :
    LeadsAt F w A (answer (performer d) request) request.received := by
  cases request with
  | newObject className => exact (Brings.newPlain className).leads w
  | property o name => exact (Brings.property (known _ List.mem_cons_self) name).leads w
  | setProperty o name v =>
    have stored : v.IsKnown A := known v (List.mem_cons_of_mem _ List.mem_cons_self)
    exact (Brings.setProperty (known _ List.mem_cons_self) stored name).leads w
  | typeName v => exact (Brings.typeName v).leads w
  | text v => exact (Brings.text v).leads w
  | apply f this args =>
    exact callObject runs honest f this args known fun f enters => frames f (.apply enters)
  | construct f args =>
    exact constructObject runs honest f args known fun f begins => frames f (.construct begins)
  | log line => exact (Brings.log line).leads w
  | currentRealm => exact .get (.pure fun _ => nofun)
  | retain r v => exact (Brings.retain r (known v List.mem_cons_self)).leads w
  | release r h => exact (Brings.release r h).leads w
  | read r h => exact (Brings.read r h).leads w
  | loadString r h => exact (Brings.loadString r h).leads w
  | lowerString r s => exact (Brings.lowerString r s).leads w
  | invokeImport r name args =>
    exact invokeImport runs honest r name args fun f owns begins => frames f (.invokeImport owns begins)
  | takeException r => exact (Brings.takeException r).leads w
  | hasException r => exact (Brings.hasException r).leads w
  | liveCount r => exact (Brings.liveCount r).leads w
  | reflect r target how args => exact reflect runs honest r target how args frames
  | newPromise r =>
    exact .fetch fun x present =>
      .dropping (.of_ok rfl (List.Subset.refl _) (.promise present))
  | promiseObject p =>
    have makes : w.Makes (.promise p) := isOpen p List.mem_cons_self
    have stands : LeadsAt F w A (promiseObject p) fun o => .object o :: A :=
      .newObject (fun _ => nofun) makes
    refine stands.weaken (fun _ => Host.Value.isKnown_of_mem) fun o v held =>
      Host.Value.isKnown_of_mem ?_
    obtain rfl := List.mem_singleton.mp held
    exact List.mem_cons_self
  | settleLater r p delay outcome =>
    refine .fetch fun x present => ?_
    have held : Outcome.value outcome ∈ outcomeValues outcome := by
      cases outcome <;> exact List.mem_cons_self
    have posts : w.Posts A (.settle p outcome) :=
      ⟨isOpen p List.mem_cons_self, atHand_of_known (known _ held)⟩
    exact (setTimeout present delay posts).weaken (fun _ => Host.Value.isKnown_of_mem)
      fun _ _ => nofun
  | adopt r v => exact (Brings.adopt r (known v List.mem_cons_self)).leads w
  | duplicate v => exact (Brings.duplicate v).leads w
  | getProperty target name => exact (Brings.getProperty target name).leads w
  | putProperty target name v => exact (Brings.putProperty target name v).leads w
  | reflectGuest target how args => exact reflectGuest runs honest target how args frames
  | giveBack v => exact (Brings.releaseGuest v).leads w
  | freeFunction r id => exact freeFunction (frees r id rfl)

/-- What an answer brings stays in the hands of the call that asked. -/
theorem perform (request : Request) (known : ∀ v ∈ request.named, v.IsKnown A)
    (isOpen : ∀ p ∈ request.namedPromises, w.Open p)
    (frames : ∀ f, Enters request w f → Permits F d f)
    (frees : ∀ r id, request = .freeFunction r id → F r id) :
    LeadsAt F w A (perform (performer d) request) request.received := by
  refine .bind (answer runs honest request known isOpen frames frees) fun a u _ => ?_
  refine .bind (C := fun _ => request.received a) (.of_ok rfl ?_ (.pin _ ?_)) fun _ v _ =>
    .pure fun _ => .hand
  · exact List.subset_append_right _ _
  · intro v held
    obtain held | held := List.mem_append.mp held
    · exact .hand (List.mem_filter.mp held).1
    · exact .pinned held

end

end LeadsAt

/-- The answer to a request for a promise is open. -/
theorem isOpen_of_made (p : Performer) (request : Request) (w w' : World) (a : request.Answer)
    (done : exec (perform p request) w = (.ok a, w')) :
    ∀ q ∈ request.made a, w'.Open q := by
  intro q made
  cases request with
  | newPromise r =>
    obtain ⟨u, answered, rfl⟩ := exec_perform_eq_ok p _ w w' a done
    obtain ⟨x, present, rest⟩ := exec_fetch_bind_eq_ok _ _ _ _ _ answered
    cases rest
    obtain rfl := List.mem_singleton.mp made
    exact ⟨_, Array.getElem?_push_size, rfl, r, x, present, rfl⟩
  | _ => cases made

/-- What an answer brings can be counted on by the code that asked. -/
theorem stands_of_answered {p : Performer} {request : Request} {w' : World} {a : request.Answer}
    {known : List Host.Value} {promises : List PromiseId} (stands : w.Stands known promises)
    (leads : LeadsAt F w A (perform p request) request.received)
    (answered : exec (perform p request) w = (.ok a, w')) :
    w'.Stands (request.received a ++ known) (request.made a ++ promises) := by
  have later := leads.stands answered stands
  refine ⟨later.honest, fun v held => ?_, fun q held => ?_⟩
  · obtain held | held := List.mem_append.mp held
    · obtain ⟨u, _, rfl⟩ := exec_perform_eq_ok p request w w' a answered
      cases object : v.object? with
      | none => exact .plain object
      | some o =>
        exact .pinned (List.mem_append_left _ (List.mem_filter.mpr ⟨held, by rw [object]; rfl⟩))
    · exact later.gripped v held
  · obtain made | held := List.mem_append.mp held
    · exact isOpen_of_made p request w w' a answered q made
    · exact later.isOpen q held

/-- A request of code is answered by moves if what is given up below it may be. -/
theorem leadsAt_request (runs : Runs F d) {request : Request} (next : request.Answer → Code α)
    {known : List Host.Value} {promises : List PromiseId} (stands : w.Stands known promises)
    (named : ∀ v ∈ request.named, v.IsKnown known)
    (held : ∀ p ∈ request.namedPromises, p ∈ promises)
    (permits : Permits F (d + 1) ⟨.ask request next, w⟩) :
    LeadsAt F w [] (perform (performer d) request) request.received := by
  refine .taking request.named (fun v there => stands.atHand (named v there))
    (.perform runs stands.honest request (fun _ => Host.Value.isKnown_of_mem)
      (fun p there => stands.isOpen p (held p there)) ?_ ?_)
  · rintro f enters r id ⟨e, β, more, u, reached⟩
    exact permits r id ⟨e, β, more, u, .inside enters reached⟩
  · rintro r id rfl
    exact permits r id ⟨d, α, next, w, .here _ _⟩

/-- Code is run by moves, however deep its calls are nested. -/
theorem runs (F : RealmId → FunctionId → Prop) (d : Nat) : Runs F d := by
  induction d with
  | zero =>
    intro α values code w grounded _
    obtain ⟨known, promises, honest, stands⟩ := grounded
    cases honest with
    | done result => exact .pure fun v held => stands.atHand (result v held)
    | ask => exact .bind (C := fun _ => []) .throw fun _ _ done => by cases done
  | succ d deeper =>
    intro α values code w grounded permits
    induction code generalizing w with
    | done a =>
      obtain ⟨known, promises, honest, stands⟩ := grounded
      cases honest with
      | done result => exact .pure fun v held => stands.atHand (result v held)
    | ask request next ih =>
      obtain ⟨known, promises, honest, stands⟩ := grounded
      cases honest with
      | ask named held rest =>
        have leads := leadsAt_request deeper next stands named held permits
        refine .bind leads fun a w' answered => .dropping (ih a w' ?_ ?_)
        · exact ⟨_, _, rest a, stands_of_answered stands leads answered⟩
        · rintro r id ⟨e, β, more, u, reached⟩
          exact permits r id ⟨e, β, more, u, .later answered reached⟩

end Act

end Membrane
