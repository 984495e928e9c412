import Membrane.Proofs.Closures.Brings
import Membrane.Proofs.Loop.Timers
/-!
Actions that run no foreign code, one by one: what they bring. A request is answered with values that
it named or that the world led to.
-/

set_option autoImplicit false

namespace Membrane

open World Request

theorem Host.Heap.property_eq (heap : Host.Heap) (o : ObjectId) (name : String) :
    heap.property o name = .undefined ∨
      ∃ x, heap.get? o = some x ∧ heap.property o name ∈ x.references := by
  cases there : heap.get? o with
  | none => exact Or.inl (by rw [property, there]; rfl)
  | some x =>
    rw [property, there, Option.map_some, Option.getD_some, Host.Object.get]
    cases found : x.properties.lookup name with
    | none => exact Or.inl rfl
    | some v =>
      exact Or.inr ⟨x, rfl, (x.mem_references_iff v).mpr (Or.inl ⟨name, mem_of_lookup found⟩)⟩

theorem EventLoop.mem_jobs_of_queueMicrotask {α : Type} (q : EventLoop α) (caller : ThreadId)
    (job j : α) (waits : j ∈ (q.queueMicrotask caller job).jobs) : j ∈ q.jobs ∨ j = job := by
  unfold queueMicrotask at waits
  split at waits <;> simp only [jobs, List.mem_append, List.mem_singleton] at waits ⊢ <;> tauto

theorem EventLoop.mem_jobs_of_setTimeout {α : Type} (q : EventLoop α) (now : Time) (delay : Number)
    (job j : α) (waits : j ∈ (q.setTimeout now delay job).jobs) : j ∈ q.jobs ∨ j = job := by
  simp only [setTimeout, jobs, List.mem_append, List.mem_map] at waits ⊢
  obtain waits | ⟨t, held, rfl⟩ := waits
  · exact Or.inl (Or.inl waits)
  · obtain rfl | held := (mem_insertTimer _ t q.timers).mp held
    · exact Or.inr rfl
    · exact Or.inl (Or.inr ⟨t, held, rfl⟩)

namespace Act

variable {α β : Type} {F : RealmId → FunctionId → Prop} {A : List Host.Value} {w : World}

namespace LeadsAt

theorem assertOwner {r : RealmId} {rest : Unit → Act β} {C : β → List Host.Value}
    (next : w.Owns r → LeadsAt F w A (rest ()) C) :
    LeadsAt F w A (assertOwner r >>= rest) C := by
  refine .bind (C := fun _ => A) (.fetch fun x present => .get ?_) fun a w' done => ?_
  · split
    · exact .pure fun _ => .hand
    · exact .throw
  · obtain ⟨rfl, owns⟩ := exec_assertOwner_eq_ok w r w' done
    exact next owns

theorem newObject {o : Host.Object} (had : ∀ v ∈ o.references, w.AtHand A v)
    (makes : w.Makes o.kind) : LeadsAt F w A (newObject o) fun id => .object id :: A :=
  .of_ok rfl (List.Subset.refl _) (.make o had makes)

theorem queueMicrotask {r : RealmId} {x : Realm} (present : w.realms[r]? = some x) {job : Job}
    (posts : w.Posts A job) : LeadsAt F w A (queueMicrotask x.loop job) fun _ => A :=
  .of_ok (exec_queueMicrotask w x.loop job) (List.Subset.refl _) (.post job _ present posts
    fun c j waits => EventLoop.mem_jobs_of_queueMicrotask c.queue w.here job j waits)

theorem setTimeout {r : RealmId} {x : Realm} (present : w.realms[r]? = some x) (delay : Number)
    {job : Job} (posts : w.Posts A job) :
    LeadsAt F w A (setTimeout x.loop delay job) fun _ => A := by
  have queued (t : Time) : LeadsAt F w A (modify fun w => { w with
      loops := w.loops.modify x.loop fun c =>
        { c with queue := c.queue.setTimeout t delay job, asked := c.asked ++ [delay] } })
      fun _ => A :=
    .of_ok rfl (List.Subset.refl _) (.post job _ present posts
      fun c j waits => EventLoop.mem_jobs_of_setTimeout c.queue t delay job j waits)
  rw [Act.setTimeout, now, bind_assoc]
  refine .fetch fun c _ => ?_
  split
  · rw [bind_assoc]
    exact .get (queued _)
  · exact queued _

end LeadsAt

namespace Brings

/-! The heap -/

theorem log (line : String) : Brings F A (log line) fun _ => [] :=
  .modify _ (fun _ => rfl) fun _ => .aside _ _

theorem typeName (v : Host.Value) : Brings F A (typeName v) fun _ => [] :=
  .andThen .get fun _ => .pure fun _ => nofun

theorem text (v : Host.Value) : Brings F A (text v) fun _ => [] :=
  .andThen .get fun _ => .pure fun _ => nofun

theorem faultText (e : Fault) : Brings F A (faultText e) fun _ => [] :=
  .andThen .get fun _ => .pure fun _ => nofun

theorem newPlain (className : Option String) :
    Brings F A (newObject (.plain className)) fun id => [.object id] :=
  fun _ => .newObject (fun _ => nofun) trivial

theorem newError (className message : String) :
    Brings F A (newError className message) fun v => [v] := by
  refine fun w => .of_ok rfl (List.Subset.refl _) (.make _ (fun v held => ?_) trivial)
  obtain rfl := List.mem_singleton.mp held
  exact .plain rfl

theorem throwTypeError (message : String) {values : Except Host.Value α → List Host.Value}
    (thrown : ∀ v, values (.error v) = [v]) :
    Brings F A (throwTypeError message : Act (Except Host.Value α)) values :=
  .bind (.newError _ _) fun v => .handOn fun _ held => thrown v ▸ held

theorem throwFault (e : Fault) {values : Except Host.Value α → List Host.Value}
    (thrown : ∀ v, values (.error v) = [v]) :
    Brings F A (throwFault e : Act (Except Host.Value α)) values :=
  .andThen (.faultText e) fun _ => .throwTypeError _ thrown

theorem property {o : ObjectId} (known : (Host.Value.object o).IsKnown A) (name : String) :
    Brings F A (property o name) fun v => [v] := by
  refine fun w => .get (.pure fun v held => ?_)
  obtain held | held := List.mem_append.mp held
  · obtain rfl := List.mem_singleton.mp held
    obtain plain | ⟨x, there, held⟩ := w.heap.property_eq o name
    · rw [plain]
      exact .plain rfl
    · exact .object (atHand_of_known known) there held
  · exact .hand held

theorem setProperty {o : ObjectId} {v : Host.Value} (target : (Host.Value.object o).IsKnown A)
    (known : v.IsKnown A) (name : String) : Brings F A (setProperty o name v) fun _ => [] :=
  .modify _ (fun _ => rfl) fun _ => .write o name v (atHand_of_known target) (atHand_of_known known)

/-! A realm -/

theorem realm (r : RealmId) : Brings F A (realm r) fun _ => [] := .fetch _

theorem assertOwner (r : RealmId) : Brings F A (assertOwner r) fun _ => [] := by
  refine .andThen (.realm r) fun x => .andThen .get fun w => ?_
  split
  · exact .pure fun _ => nofun
  · exact .misuse _

theorem retain (r : RealmId) {v : Host.Value} (known : v.IsKnown A) :
    Brings F A (retain r v) fun _ => [] :=
  .andThen (.assertOwner r) fun _ => .onRealm r _ (fun x => x.turns_retain known) fun _ _ => nofun

theorem retainHandle (r : RealmId) (h : Handle) :
    Brings F A (retainHandle r h) thrownValues :=
  .andThen (.assertOwner r) fun _ => .tryRealm r _ (fun _ _ => Realm.turns_retainHandle h)
    fun x => x.thrownValues_retainHandle h

theorem release (r : RealmId) (h : Handle) : Brings F A (release r h) thrownValues :=
  .andThen (.assertOwner r) fun _ => .tryRealm r _ (fun _ _ => Realm.turns_release h)
    fun x => x.thrownValues_release h

theorem releaseQuietly (r : RealmId) (h : Handle) :
    Brings F A (releaseQuietly r h) fun _ => [] :=
  .bind (.release r h) fun _ => .pure fun _ => nofun

theorem read (r : RealmId) (h : Handle) : Brings F A (read r h) readValues := by
  refine fun w => .assertOwner fun _ => .fetch fun x present => .pure fun v held => ?_
  obtain held | held := List.mem_append.mp held
  · obtain none | ⟨u, found⟩ := x.table.get_error h
    · rw [none] at held
      cases held
    · rw [found] at held
      obtain rfl := List.mem_singleton.mp held
      exact .realm present ((x.mem_held_iff v).mpr (Or.inl (RefTable.mem_values_of_get h found)))
  · exact .hand held

theorem liveCount (r : RealmId) : Brings F A (liveCount r) fun _ => [] :=
  .andThen (.assertOwner r) fun _ => .andThen (.realm r) fun _ => .pure fun _ => nofun

theorem scheduleFinalizer (r : RealmId) (h : Handle) :
    Brings F A (scheduleFinalizer r h) fun _ => [] := by
  refine .andThen (.onRealm r _ (fun x => ?_) fun _ _ => nofun) fun first => ?_
  · exact Realm.turns_aside rfl rfl rfl rfl rfl rfl
  · split
    · exact fun w => .fetch fun x present => .queueMicrotask present trivial
    · exact .pure fun _ => nofun

theorem setException (r : RealmId) {v : Host.Value} (known : v.IsKnown A) :
    Brings F A (setException r v) fun _ => [] :=
  .onRealm r _ (fun x => x.turns_throwValue known) fun _ _ => nofun

theorem takeException (r : RealmId) : Brings F A (takeException r) Option.toList :=
  .onRealm r _ (fun x => x.turns_takeException) fun x v held =>
    Or.inl ((x.mem_held_iff v).mpr (Or.inr (Or.inl (Option.mem_toList.mp held))))

theorem hasException (r : RealmId) : Brings F A (hasException r) fun _ => [] :=
  .andThen (.realm r) fun _ => .pure fun _ => nofun

theorem checkException (r : RealmId) : Brings F A (checkException r) thrownValues := by
  refine .bind (.takeException r) fun slot => ?_
  cases slot with
  | none => exact .pure fun _ => nofun
  | some v =>
    exact .handOn fun _ => id

theorem lowerString (r : RealmId) (text : String) :
    Brings F A (lowerString r text) fun _ => [] :=
  .andThen (.assertOwner r) fun _ =>
    .onRealm r _ (fun x => x.turns_lowerString text (Host.Value.isKnown_of_plain rfl A))
      fun _ _ => nofun

theorem makeString (r : RealmId) (text : String) : Brings F A (makeString r text) fun _ => [] :=
  .retain r (Host.Value.isKnown_of_plain rfl A)

theorem loadString (r : RealmId) (h : Handle) : Brings F A (loadString r h) thrownValues := by
  refine .andThen (.onRealm r _ (fun x => x.turns_claimLowered h) fun _ _ => nofun) fun _ => ?_
  refine .andThen (.assertOwner r) fun _ => .andThen .get fun w => ?_
  refine .onRealm r _ (fun x => x.turns_takeString _ h) fun x v held => ?_
  have none : thrownValues (x.takeString w.heap.typeName h).1 = [] := x.thrownValues_stringAt _ h
  rw [none] at held
  cases held

theorem lowerRaw (r : RealmId) {v : Host.Value} (known : v.IsKnown A) :
    Brings F A (lowerRaw r v) fun _ => [] := by
  cases v with
  | undefined | null | bool | number => exact .pure fun _ => nofun
  | string s => exact .andThen (.retain r known) fun _ => .pure fun _ => nofun
  | object id =>
    exact .andThen .get fun _ => .andThen (.retain r known) fun _ => .pure fun _ => nofun

theorem liftRaw (r : RealmId) (raw : Raw) : Brings F A (liftRaw r raw) readValues := by
  unfold Act.liftRaw
  cases raw.kind with
  | undefined | null | boolean | number =>
    refine .pure fun v held => ?_
    obtain rfl := List.mem_singleton.mp held
    exact Host.Value.isKnown_of_plain rfl A
  | string | object | function => exact .read r _

/-- The values of a result, or the one that was thrown. -/
def allValues : Except Fault (List Host.Value) → List Host.Value
  | .ok values => values
  | .error e => thrownValues (.error e : Except Fault Unit)

theorem liftAll (r : RealmId) (raws : List Raw) : Brings F A (liftAll r raws) allValues := by
  induction raws generalizing A with
  | nil => exact .pure fun _ => nofun
  | cons raw rest ih =>
    refine .bind (.liftRaw r raw) fun result => ?_
    cases result with
    | error e =>
      exact .handOn fun _ => id
    | ok v =>
      refine .bind ih fun lifted => .pure fun u held => Host.Value.isKnown_of_mem ?_
      cases lifted with
      | error e => exact List.mem_append_left _ held
      | ok values =>
        obtain rfl | held := List.mem_cons.mp held
        · exact List.mem_append_right _ List.mem_cons_self
        · exact List.mem_append_left _ held

/-- The object of a result, or the value that was thrown. -/
def objectValues : Except Fault ObjectId → List Host.Value
  | .ok o => [.object o]
  | .error e => thrownValues (.error e : Except Fault Unit)

theorem objectAt (r : RealmId) (h : Handle) : Brings F A (objectAt r h) objectValues := by
  refine .bind (.read r h) fun result => ?_
  split
  · exact .handOn fun _ => id
  · exact .handOn fun _ => id
  · exact .andThen (.typeName _) fun _ => .pure fun _ => nofun

theorem getRawProperty (r : RealmId) (h : Handle) (name : String) :
    Brings F A (getRawProperty r h name) thrownValues := by
  refine .bind (.objectAt r h) fun result => ?_
  cases result with
  | error e =>
    exact .handOn fun _ => id
  | ok o =>
    refine .bind (.property (Host.Value.isKnown_of_mem List.mem_cons_self) name) fun v => ?_
    exact .andThen (.lowerRaw r (Host.Value.isKnown_of_mem List.mem_cons_self)) fun _ =>
      .pure fun _ => nofun

theorem setRawProperty (r : RealmId) (h : Handle) (name : String) (raw : Raw) :
    Brings F A (setRawProperty r h name raw) thrownValues := by
  refine .bind (.objectAt r h) fun result => ?_
  cases result with
  | error e =>
    exact .handOn fun _ => id
  | ok o =>
    refine .bind (.liftRaw r raw) fun lifted => ?_
    cases lifted with
    | error e =>
      exact .handOn fun _ => id
    | ok v =>
      refine .andThen (.setProperty ?_ ?_ name) fun _ => .pure fun _ => nofun
      · exact Host.Value.isKnown_of_mem (List.mem_cons_of_mem _ List.mem_cons_self)
      · exact Host.Value.isKnown_of_mem List.mem_cons_self

/-! References and values of a guest -/

theorem copyRef (ref : Guest.Ref) : Brings F A (copyRef ref) thrownValues :=
  .mapping _ (.retainHandle ref.realm ref.handle)

theorem functionOf (c : Guest.Closure) : Brings F A (functionOf c) thrownValues :=
  .mapping _ (.copyRef c.ref)

theorem dropRef (ref : Guest.Ref) : Brings F A (dropRef ref) fun _ => [] := by
  refine .andThen (.realm ref.realm) fun x => ?_
  split
  · exact .scheduleFinalizer _ _
  · exact .pure fun _ => nofun

theorem dropGuest (v : Guest.Value) : Brings F A (dropGuest v) fun _ => [] := by
  unfold Act.dropGuest
  split
  · exact .dropRef _
  · exact .pure fun _ => nofun

theorem releaseGuest (v : Guest.Value) : Brings F A (releaseGuest v) thrownValues := by
  unfold Act.releaseGuest
  split
  · exact .release _ _
  · exact .pure fun _ => nofun

theorem releaseGuestQuietly (v : Guest.Value) :
    Brings F A (releaseGuestQuietly v) fun _ => [] :=
  .bind (.releaseGuest v) fun _ => .pure fun _ => nofun

theorem duplicate (v : Guest.Value) : Brings F A (duplicate v) thrownValues := by
  cases v with
  | object ref => exact .mapping _ (.copyRef ref)
  | function ref => exact .mapping _ (.copyRef ref)
  | undefined | null | bool | number | string => exact .pure fun _ => nofun

theorem liftGuest (r : RealmId) (raw : Raw) : Brings F A (liftGuest r raw) thrownValues := by
  unfold Act.liftGuest
  cases raw.kind with
  | undefined | null | boolean | number | object | function => exact .pure fun _ => nofun
  | string => exact .mapping _ (.loadString r _)

theorem adopt (r : RealmId) {v : Host.Value} (known : v.IsKnown A) :
    Brings F A (adopt r v) thrownValues :=
  .andThen (.lowerRaw r known) fun raw => .liftGuest r raw

theorem liftGuests (r : RealmId) (raws : List Raw) (lifted : List Guest.Value) :
    Brings F A (liftGuests r lifted raws) thrownValues := by
  induction raws generalizing lifted A with
  | nil => exact .pure fun _ => nofun
  | cons raw rest ih =>
    refine .bind (.liftGuest r raw) fun result => ?_
    cases result with
    | ok v => exact ih _
    | error e =>
      refine .andThen (.forM _ lifted fun v _ => .dropGuest v) fun _ => .pure fun _ held => ?_
      exact Host.Value.isKnown_of_mem (List.mem_append_left _ held)

theorem encodeResult (r : RealmId) (v : Guest.Value) :
    Brings F A (encodeResult r v) fun _ => [] := by
  cases v with
  | undefined | null | bool | number | object | function => exact .pure fun _ => nofun
  | string s => exact .andThen (.makeString r s) fun _ => .pure fun _ => nofun

theorem encodeArg (r : RealmId) (v : Guest.Value) : Brings F A (encodeArg r v) fun _ => [] := by
  cases v with
  | undefined | null | bool | number | object | function => exact .pure fun _ => nofun
  | string s => exact .andThen (.makeString r s) fun _ => .pure fun _ => nofun

theorem releaseAll (r : RealmId) (handles : List Handle) :
    Brings F A (releaseAll r handles) thrownValues := by
  induction handles generalizing A with
  | nil => exact .pure fun _ => nofun
  | cons h rest ih =>
    refine .bind (.release r h) fun result => ?_
    cases result with
    | error e =>
      exact .handOn fun _ => id
    | ok done => exact ih

theorem withEncoded (r : RealmId) (args : List Guest.Value)
    (act : List Raw → Act (Except Fault α)) (inside : ∀ raws, Brings F A (act raws) thrownValues) :
    Brings F A (withEncoded r args act) thrownValues := by
  refine .andThen (.mapM _ args fun v _ => .encodeArg r v) fun encoded => ?_
  refine .bind (inside _) fun result => .bind (.releaseAll r _) fun released => ?_
  cases released with
  | error e => exact .handOn fun _ => id
  | ok done =>
    refine .pure fun _ held => Host.Value.isKnown_of_mem ?_
    exact List.mem_append_right _ (List.mem_append_left _ held)

/-- To look for the target of a call throws nothing. -/
theorem noTarget {target : Guest.Value} {e : Fault} (missing : targetOf target = .error e) :
    Brings F A (Pure.pure (.error e) : Act (Except Fault α)) thrownValues := by
  unfold targetOf at missing
  split at missing
  · cases missing
  · cases missing
    exact .pure fun _ => nofun

theorem getProperty (target : Guest.Value) (name : String) :
    Brings F A (getProperty target name) thrownValues := by
  unfold Act.getProperty
  cases found : targetOf target with
  | error e => exact .noTarget found
  | ok ref =>
    refine .bind (.getRawProperty ref.realm ref.handle name) fun result => ?_
    cases result with
    | error e => exact .handOn fun _ => id
    | ok raw => exact .liftGuest ref.realm raw

theorem putProperty (target : Guest.Value) (name : String) (v : Guest.Value) :
    Brings F A (putProperty target name v) thrownValues := by
  unfold Act.putProperty
  cases found : targetOf target with
  | error e => exact .noTarget found
  | ok ref =>
    refine .withEncoded ref.realm [v] _ fun raws => ?_
    cases raws with
    | nil => exact .pure fun _ => nofun
    | cons raw rest => exact .setRawProperty ref.realm ref.handle name raw

end Brings

end Act

end Membrane
