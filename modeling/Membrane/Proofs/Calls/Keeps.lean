import Mathlib.Order.Defs.Unbundled
import Membrane.Proofs.Strings.Calls
import Membrane.Proofs.World.Awaits
import Membrane.Proofs.World.Sleepers
import Membrane.World.Convert
/-!
Actions that run no foreign code. What they do to realms comes from a few moves, so they keep to
every relation between worlds that the moves keep to. Each action does because the actions it is made
of do.
-/

set_option autoImplicit false

namespace Membrane

/-- What an action that runs no foreign code does to a realm at a time, but for the slot of what was
thrown. -/
inductive Realm.Moves : Realm → Realm → Prop
  | retain (x : Realm) (v : Host.Value) : Moves x (x.retain v).2
  | copy (x y : Realm) (h : Handle) (done : x.retainHandle h = .ok y) : Moves x y
  | release (x : Realm) (h : Handle) : Moves x (x.releaseQuietly h)
  | lower (x : Realm) (text : String) : Moves x (x.lowerString text).2
  | read (x : Realm) (h : Handle) : Moves x (x.read h)
  | note (x : Realm) (finalizers : List Handle) : Moves x { x with finalizers }
  | forget (x : Realm) (id : FunctionId) : Moves x { x with closures := (x.closures.remove id).2 }

/-- Nothing happens to a realm, a promise or a task, and nothing to microtasks but that others come
behind them. -/
structure World.Aside (w w' : World) : Prop extends World.Still w w' where
  here : w'.here = w.here
  realms : w'.realms = w.realms
  owners : w'.owner? = w.owner?
  microtasks : ∀ l : LoopId, ∃ more, w'.microtasks l = w.microtasks l ++ more

namespace World.Aside

theorem of_same {w w' : World} (here : w'.here = w.here) (realms : w'.realms = w.realms)
    (promises : w'.promises = w.promises) (loops : w'.loops = w.loops) (tasks : w'.tasks = w.tasks)
    (executors : w'.executors = w.executors) (awaits : w'.awaits = w.awaits) : Aside w w' where
  toStill := .of_same tasks loops executors promises awaits
  here := here
  realms := realms
  owners := by
    funext l
    rw [owner?, owner?, loops]
  microtasks l := ⟨[], by rw [World.microtasks, World.microtasks, loops, List.append_nil]⟩

/-- A loop changes, but not its owner and the jobs that are to be run without delay. -/
theorem modifyLoop (w : World) (l : LoopId) (f : LoopCell → LoopCell)
    (same : ∀ c, (f c).queue.owner = c.queue.owner ∧ (f c).queue.microtasks = c.queue.microtasks ∧
      (f c).queue.inbox = c.queue.inbox) : Aside w { w with loops := w.loops.modify l f } where
  toStill := .modifyLoop w l f fun c => (same c).2
  here := rfl
  realms := rfl
  owners := by
    funext k
    simp only [owner?, Array.getElem?_modify]
    split
    · simp [Function.comp_def, same]
    · rfl
  microtasks k := by
    refine ⟨[], ?_⟩
    simp only [World.microtasks, Array.getElem?_modify, List.append_nil]
    split
    · simp [Function.comp_def, same]
    · rfl

theorem post (w : World) (l : LoopId) (job : Job) (plain : job.isPlain) : Aside w (w.post l job) where
  toStill := .post w l job plain
  here := rfl
  realms := rfl
  owners := w.owner?_post l job
  microtasks := w.microtasks_post l job

/-- A task is written anew, but not its state and what it waits for if that is a promise. -/
theorem withTask (w : World) (t : TaskId) (k x : Task) (present : w.tasks[t]? = some k)
    (state : x.state = k.state) (executor : x.executor = k.executor)
    (same : x.wait.bind (Wait.await? t) = k.wait.bind (Wait.await? t)) :
    Aside w (w.withTask t x) where
  toStill := .withTask w t k x present state executor same
  here := rfl
  realms := rfl
  owners := rfl
  microtasks _ := ⟨[], (List.append_nil _).symm⟩

theorem newPromise (w : World) (l : LoopId) :
    Aside w { w with promises := w.promises.push (.create l) } where
  toStill := .newPromise w l
  here := rfl
  realms := rfl
  owners := rfl
  microtasks _ := ⟨[], (List.append_nil _).symm⟩

end World.Aside

/-- Nothing happens to sleepers either, and to the timers that are set for them. -/
structure World.Beside (w w' : World) : Prop extends World.Aside w w' where
  apart : ∀ s, w.Apart s w'

namespace World.Beside

theorem of_same {w w' : World} (here : w'.here = w.here) (realms : w'.realms = w.realms)
    (promises : w'.promises = w.promises) (loops : w'.loops = w.loops) (tasks : w'.tasks = w.tasks)
    (executors : w'.executors = w.executors) (awaits : w'.awaits = w.awaits)
    (sleepers : w'.sleepers = w.sleepers) : Beside w w' where
  toAside := .of_same here realms promises loops tasks executors awaits
  apart _ := .of_same sleepers loops

theorem withQueue (w : World) (l : LoopId) (f : EventLoop Job → EventLoop Job)
    (same : ∀ q, (f q).owner = q.owner ∧ (f q).timers = q.timers ∧
      (f q).microtasks = q.microtasks ∧ (f q).inbox = q.inbox) : Beside w (w.withQueue l f) where
  toAside := .modifyLoop w l _ fun c => ⟨(same c.queue).1, (same c.queue).2.2⟩
  apart _ := .withQueue_of_kept w l f fun q => (same q).2

theorem withTimeout (w : World) (l : LoopId) (now : Time) (delay : Number) (job : Job)
    (awake : job.sleeper? = none) : Beside w (w.withTimeout l now delay job) where
  toAside := .modifyLoop w l _ fun _ => ⟨rfl, rfl, rfl⟩
  apart _ := .withTimeout w l now delay job (job.ne_fireSleeper awake)

theorem post (w : World) (l : LoopId) (job : Job) (plain : job.isPlain)
    (awake : job.sleeper? = none) : Beside w (w.post l job) where
  toAside := .post w l job plain
  apart _ := .post w l job (job.ne_fireSleeper awake)

theorem withTask (w : World) (t : TaskId) (k x : Task) (present : w.tasks[t]? = some k)
    (state : x.state = k.state) (executor : x.executor = k.executor)
    (same : x.wait.bind (Wait.await? t) = k.wait.bind (Wait.await? t)) :
    Beside w (w.withTask t x) where
  toAside := .withTask w t k x present state executor same
  apart _ := .of_same rfl rfl

theorem newPromise (w : World) (l : LoopId) :
    Beside w { w with promises := w.promises.push (.create l) } where
  toAside := .newPromise w l
  apart _ := .of_same rfl rfl

theorem newSleeper (w : World) (x : Sleeper) :
    Beside w { w with sleepers := w.sleepers.push x } where
  toAside := .of_same rfl rfl rfl rfl rfl rfl rfl
  apart _ := .newSleeper w x

end World.Beside

/-- A relation between a world and later ones that actions without foreign code keep to. It may count
what becomes of sleepers. -/
class World.Steady (R : World → World → Prop) : Prop where
  refl (w : World) : R w w
  trans {u v w : World} (first : R u v) (rest : R v w) : R u w
  beside {w w' : World} (beside : w.Beside w') : R w w'
  move {w : World} {r : RealmId} {x y : Realm} (present : w.realms[r]? = some x)
    (moves : x.Moves y) : R w (w.withRealm r y)
  sweep (w : World) : R w w.sweep
  poll {w w' : World} {s : Nat} {waiter : TaskId} {ready : Bool}
    (done : Act.exec (Act.pollSleeper s waiter) w = (.ok ready, w')) : R w w'

/-- One for which sleepers do not count. -/
class World.Lasting (R : World → World → Prop) : Prop where
  refl (w : World) : R w w
  trans {u v w : World} (first : R u v) (rest : R v w) : R u w
  aside {w w' : World} (aside : w.Aside w') : R w w'
  move {w : World} {r : RealmId} {x y : Realm} (present : w.realms[r]? = some x)
    (moves : x.Moves y) : R w (w.withRealm r y)
  sweep (w : World) : R w w.sweep

instance {R : World → World → Prop} [World.Lasting R] : World.Steady R where
  refl := World.Lasting.refl
  trans := World.Lasting.trans
  beside same := World.Lasting.aside same.toAside
  move := World.Lasting.move
  sweep := World.Lasting.sweep
  poll {w w' s waiter ready} done := by
    have written (u : World) (x : Sleeper) : R u (u.withSleeper s x) :=
      World.Lasting.aside (.of_same rfl rfl rfl rfl rfl rfl rfl)
    obtain ⟨x, _, ⟨_, _, l, now, _, _, rfl⟩ | ⟨_, _, _, rfl⟩ | ⟨_, _, rfl⟩⟩ :=
      Act.exec_pollSleeper_eq_ok w s waiter ready w' done
    · have set : w.Aside (w.withTimeout l now (Act.milliseconds x.delay) (.fireSleeper s)) :=
        .modifyLoop w l _ fun _ => ⟨rfl, rfl, rfl⟩
      exact World.Lasting.trans (World.Lasting.aside set) (written _ _)
    · exact written w _
    · exact World.Lasting.refl w'

instance {R : World → World → Prop} [World.Steady R] : IsPreorder World R where
  refl := World.Steady.refl
  trans _ _ _ := World.Steady.trans

/-- A world in which values are in the hands of a call. -/
def World.pinned (w : World) (values : List Host.Value) : World :=
  { w with pins := values ++ w.pins }

/-- Whether a request is answered without running foreign code and without taking what was thrown. -/
def Request.isQuiet : Request → Bool
  | .apply .. | .construct .. | .invokeImport .. | .takeException _ | .reflect ..
  | .reflectGuest .. => false
  | _ => true

namespace Act

variable {α β : Type}

theorem exec_onHalt_eq_ok (act : Act α) (cleanup : Act Unit) (w w' : World) (a : α)
    (done : exec (onHalt act cleanup) w = (.ok a, w')) : exec act w = (.ok a, w') := by
  rw [onHalt, exec_tryCatch] at done
  rcases result : exec act w with ⟨halt | b, w''⟩
  · rw [result] at done
    obtain ⟨_, _, _, rest⟩ := exec_bind_eq_ok _ _ _ _ _ done
    cases rest
  · rw [result] at done
    exact done

/-- What an action does with values in its hands; they leave the hands with it. -/
theorem exec_pinning (act : Act α) (values : List Host.Value) (w : World) :
    exec (pinning values act) w =
      ((exec act (w.pinned values)).1, { (exec act (w.pinned values)).2 with pins := w.pins }) := by
  simp only [pinning, exec_bind, exec_get, goOn_ok, exec_modify, exec_attempt, World.pinned]
  rcases exec act { w with pins := values ++ w.pins } with ⟨halt | a, u⟩ <;> rfl

theorem exec_pinning_eq_ok (act : Act α) (values : List Host.Value) (w w' : World) (a : α)
    (done : exec (pinning values act) w = (.ok a, w')) :
    ∃ u, exec act (w.pinned values) = (.ok a, u) ∧ w' = { u with pins := w.pins } := by
  rw [exec_pinning] at done
  obtain ⟨ran, rfl⟩ := Prod.mk.inj done
  exact ⟨_, Prod.ext ran rfl, rfl⟩

/-- What an answer brings is all that is added to what the action leaves. -/
theorem exec_perform_eq_ok (p : Performer) (request : Request) (w w' : World)
    (a : request.Answer) (done : exec (perform p request) w = (.ok a, w')) :
    ∃ u, exec (answer p request) w = (.ok a, u) ∧
      w' = u.pinned ((request.received a).filter (·.object?.isSome)) := by
  obtain ⟨_, u, answered, rest⟩ := exec_bind_eq_ok _ _ _ _ _ done
  cases rest
  exact ⟨u, answered, rfl⟩

/-- Where an answer brings no object, its request leaves what the action leaves. -/
theorem exec_perform_of_bare (p : Performer) (request : Request) (w w' : World)
    (a : request.Answer) (bare : (request.received a).filter (·.object?.isSome) = [])
    (done : exec (answer p request) w = (.ok a, w')) :
    exec (perform p request) w = (.ok a, w') := by
  have held : exec (perform p request) w =
      (.ok a, w'.pinned ((request.received a).filter (·.object?.isSome))) := by
    simp only [perform, handing, hold, exec_bind, done, goOn_ok, exec_modify, World.pinned]
    rfl
  rw [held, bare]
  rfl

/-- A request whose answers bring nothing does what the action does. -/
theorem exec_perform_of_none (p : Performer) (request : Request) (w : World)
    (none : ∀ a, request.received a = []) :
    exec (perform p request) w = exec (answer p request) w := by
  rw [perform, handing, exec_bind]
  rcases exec (answer p request) w with ⟨halt | a, w'⟩
  · rfl
  · rw [goOn_ok, none a]
    rfl

/-- A call of an import brings a word only. -/
theorem exec_perform_invokeImport (p : Performer) (r : RealmId) (name : String) (args : List Wire)
    (w : World) :
    exec (perform p (.invokeImport r name args)) w = exec (invokeImport p r name args) w :=
  exec_perform_of_none p _ w fun _ => rfl

variable (R : World → World → Prop)

/-- An action that keeps to a relation between the world before it and the world after it. -/
def Keeps (act : Act α) : Prop :=
  ∀ (w w' : World) (a : α), exec act w = (.ok a, w') → R w w'

namespace Keeps

open World

variable {R}

theorem throw (halt : Halt) : Keeps R (throw halt : Act α) := by
  rintro w w' b done
  cases done

/-- What is done after a halt does not count, as the halt goes on. -/
theorem onHalt {act : Act α} {cleanup : Act Unit} (first : Keeps R act) :
    Keeps R (onHalt act cleanup) :=
  fun w w' a done => first w w' a (exec_onHalt_eq_ok act cleanup w w' a done)

section

variable [IsPreorder World R]

theorem pure (a : α) : Keeps R (pure a : Act α) := by
  rintro w w' b done
  cases done
  exact refl_of R w

theorem bind {act : Act α} {rest : α → Act β} (first : Keeps R act)
    (next : ∀ a, Keeps R (rest a)) : Keeps R (act >>= rest) := by
  intro w w'' b done
  obtain ⟨a, w', before, after⟩ := exec_bind_eq_ok act rest w w'' b done
  exact trans_of R (first w w' a before) (next a w' w'' b after)

theorem get : Keeps R (get : Act World) := by
  rintro w w' b done
  cases done
  exact refl_of R w

theorem fetch (find : World → Option α) : Keeps R (fetch find) := by
  intro w w' a done
  obtain ⟨_, rfl⟩ := exec_fetch_eq_ok find w w' a done
  exact refl_of R w'

theorem forM {ι : Type} (f : ι → Act Unit) (each : ∀ i, Keeps R (f i)) (items : List ι) :
    Keeps R (items.forM f) := by
  induction items with
  | nil => exact .pure ()
  | cons i rest ih => exact (each i).bind fun _ => ih

theorem mapM {ι : Type} (f : ι → Act α) (each : ∀ i, Keeps R (f i)) (items : List ι) :
    Keeps R (items.mapM f) := by
  induction items with
  | nil => exact .pure []
  | cons i rest ih =>
    rw [List.mapM_cons]
    exact (each i).bind fun a => ih.bind fun as => .pure (a :: as)

end

variable [Steady R]

theorem modify (f : World → World) (beside : ∀ w, Beside w (f w)) :
    Keeps R (modify f : Act Unit) := by
  rintro w w' b done
  cases done
  exact Steady.beside (beside w)

theorem modifyGet (f : World → α × World) (beside : ∀ w, Beside w (f w).2) :
    Keeps R (modifyGet f : Act α) := by
  rintro w w' b done
  cases done
  exact Steady.beside (beside w)

theorem pinning {act : Act α} (values : List Host.Value) (first : Keeps R act) :
    Keeps R (pinning values act) := by
  intro w w' a done
  obtain ⟨u, inside, rfl⟩ := exec_pinning_eq_ok act values w w' a done
  have started : R w (w.pinned values) := Steady.beside (.of_same rfl rfl rfl rfl rfl rfl rfl rfl)
  have ended : R u { u with pins := w.pins } := Steady.beside (.of_same rfl rfl rfl rfl rfl rfl rfl rfl)
  exact Steady.trans (Steady.trans started (first _ u a inside)) ended

theorem hold (values : List Host.Value) : Keeps R (hold values) :=
  .modify _ fun _ => .of_same rfl rfl rfl rfl rfl rfl rfl rfl

theorem handing {act : Act α} (values : α → List Host.Value) (first : Keeps R act) :
    Keeps R (handing values act) :=
  .bind first fun a => .bind (.hold (values a)) fun _ => .pure a

theorem onRealm (r : RealmId) (f : Realm → α × Realm) (moves : ∀ x : Realm, x.Moves (f x).2) :
    Keeps R (onRealm r f) := by
  intro w w' a done
  obtain ⟨x, present, _, rfl⟩ := exec_onRealm_eq_ok w r f w' a done
  exact Steady.move present (moves x)

theorem tryRealm (r : RealmId) (f : Realm → Except Fault Realm)
    (moves : ∀ x y : Realm, f x = .ok y → x.Moves y) : Keeps R (tryRealm r f) := by
  intro w w' a done
  obtain ⟨x, present, rest⟩ := exec_fetch_bind_eq_ok _ _ _ _ _ done
  cases changed : f x with
  | error e =>
    rw [changed] at rest
    cases rest
    exact Steady.refl _
  | ok y =>
    rw [changed] at rest
    cases rest
    exact Steady.move present (moves x y changed)

/-! Work on the heap and on loops -/

theorem log (line : String) : Keeps R (log line) :=
  .modify _ fun _ => .of_same rfl rfl rfl rfl rfl rfl rfl rfl

theorem onHeap (f : Host.Heap → α × Host.Heap) : Keeps R (onHeap f) :=
  .modifyGet _ fun _ => .of_same rfl rfl rfl rfl rfl rfl rfl rfl

theorem newObject (o : Host.Object) : Keeps R (newObject o) := .onHeap _

theorem typeName (v : Host.Value) : Keeps R (typeName v) := .bind .get fun _ => .pure _

theorem text (v : Host.Value) : Keeps R (text v) := .bind .get fun _ => .pure _

theorem throwTypeError (message : String) :
    Keeps R (throwTypeError message : Act (Except Host.Value α)) :=
  .bind (.onHeap _) fun _ => .pure _

theorem throwFault (e : Fault) : Keeps R (throwFault e : Act (Except Host.Value α)) :=
  .bind (.bind .get fun _ => .pure _) fun _ => .throwTypeError _

theorem realm (r : RealmId) : Keeps R (realm r) := .fetch _

theorem onQueue (l : LoopId) (f : EventLoop Job → EventLoop Job)
    (same : ∀ q, (f q).owner = q.owner ∧ (f q).timers = q.timers ∧
      (f q).microtasks = q.microtasks ∧ (f q).inbox = q.inbox) : Keeps R (onQueue l f) :=
  .modify _ fun w => .withQueue w l f same

theorem queueMicrotask (l : LoopId) (job : Job) (plain : job.isPlain)
    (awake : job.sleeper? = none) : Keeps R (queueMicrotask l job) := by
  intro w w' a done
  cases done
  exact Steady.beside (.post w l job plain awake)

theorem now (l : LoopId) : Keeps R (now l) := by
  refine .bind (.fetch _) fun c => ?_
  split
  · exact .bind .get fun _ => .pure _
  · exact .pure _

theorem setTimeout (l : LoopId) (delay : Number) (job : Job) (awake : job.sleeper? = none) :
    Keeps R (setTimeout l delay job) :=
  .bind (.now l) fun now => .modify _ fun w => .withTimeout w l now delay job awake

theorem property (o : ObjectId) (name : String) : Keeps R (property o name) :=
  .bind .get fun _ => .pure _

theorem setProperty (o : ObjectId) (name : String) (v : Host.Value) :
    Keeps R (setProperty o name v) :=
  .modify _ fun _ => .of_same rfl rfl rfl rfl rfl rfl rfl rfl

/-! Work on a realm -/

theorem assertOwner (r : RealmId) : Keeps R (assertOwner r) := by
  intro w w' a done
  obtain ⟨rfl, _⟩ := exec_assertOwner_eq_ok w r w' done
  exact Steady.refl w'

theorem retain (r : RealmId) (v : Host.Value) : Keeps R (retain r v) :=
  .bind (.assertOwner r) fun _ => .onRealm r _ fun x => .retain x v

theorem retainHandle (r : RealmId) (h : Handle) : Keeps R (retainHandle r h) := by
  exact .bind (.assertOwner r) fun _ => .tryRealm r _ fun x y done => .copy x y h done

theorem release (r : RealmId) (h : Handle) : Keeps R (release r h) := by
  refine .bind (.assertOwner r) fun _ => .tryRealm r _ fun x y done => ?_
  have quiet : x.releaseQuietly h = y := by rw [Realm.releaseQuietly, done]
  rw [← quiet]
  exact .release x h

theorem releaseQuietly (r : RealmId) (h : Handle) : Keeps R (releaseQuietly r h) :=
  .bind (.release r h) fun _ => .pure ()

theorem read (r : RealmId) (h : Handle) : Keeps R (read r h) :=
  .bind (.assertOwner r) fun _ => .bind (.realm r) fun _ => .pure _

theorem liveCount (r : RealmId) : Keeps R (liveCount r) :=
  .bind (.assertOwner r) fun _ => .bind (.realm r) fun _ => .pure _

theorem scheduleFinalizer (r : RealmId) (h : Handle) : Keeps R (scheduleFinalizer r h) := by
  refine .bind (.onRealm r _ fun x => .note x _) fun first => ?_
  split
  · exact .bind (.realm r) fun _ => .queueMicrotask _ _ rfl rfl
  · exact .pure ()

theorem hasException (r : RealmId) : Keeps R (hasException r) :=
  .bind (.realm r) fun _ => .pure _

theorem lowerString (r : RealmId) (text : String) : Keeps R (lowerString r text) :=
  .bind (.assertOwner r) fun _ => .onRealm r _ fun x => .lower x text

theorem loadString (r : RealmId) (h : Handle) : Keeps R (loadString r h) := by
  intro w w' a done
  obtain ⟨x, present, _, rfl⟩ := exec_loadString_eq_ok w r h w' a done
  exact Steady.move present (.read x h)

theorem lowerRaw (r : RealmId) (v : Host.Value) : Keeps R (lowerRaw r v) := by
  cases v with
  | undefined | null | bool | number => exact .pure _
  | string s => exact .bind (.retain r _) fun _ => .pure _
  | object id => exact .bind .get fun _ => .bind (.retain r _) fun _ => .pure _

theorem liftRaw (r : RealmId) (raw : Raw) : Keeps R (liftRaw r raw) := by
  unfold Act.liftRaw
  cases raw.kind with
  | undefined | null | boolean | number => exact .pure _
  | string | object | function => exact .read r _

theorem liftAll (r : RealmId) (raws : List Raw) : Keeps R (liftAll r raws) := by
  induction raws with
  | nil => exact .pure _
  | cons raw rest ih =>
    refine .bind (.liftRaw r raw) fun result => ?_
    cases result with
    | error e => exact .pure _
    | ok v => exact .bind ih fun _ => .pure _

theorem objectAt (r : RealmId) (h : Handle) : Keeps R (objectAt r h) := by
  refine .bind (.read r h) fun result => ?_
  split
  · exact .pure _
  · exact .pure _
  · exact .bind (.typeName _) fun _ => .pure _

theorem getRawProperty (r : RealmId) (h : Handle) (name : String) :
    Keeps R (getRawProperty r h name) := by
  refine .bind (.objectAt r h) fun result => ?_
  cases result with
  | error e => exact .pure _
  | ok o => exact .bind (.property o name) fun v => .bind (.lowerRaw r v) fun _ => .pure _

theorem setRawProperty (r : RealmId) (h : Handle) (name : String) (raw : Raw) :
    Keeps R (setRawProperty r h name raw) := by
  refine .bind (.objectAt r h) fun result => ?_
  cases result with
  | error e => exact .pure _
  | ok o =>
    refine .bind (.liftRaw r raw) fun lifted => ?_
    cases lifted with
    | error e => exact .pure _
    | ok v => exact .bind (.setProperty o name v) fun _ => .pure _

theorem sweep : Keeps R sweep := by
  rintro w w' a done
  cases done
  exact Steady.sweep w

theorem freeFunction (r : RealmId) (id : FunctionId) : Keeps R (freeFunction r id) :=
  .bind .sweep fun _ => .onRealm r _ fun x => .forget x id

/-! References and values of a guest -/

theorem copyRef (ref : Guest.Ref) : Keeps R (copyRef ref) :=
  .bind (.retainHandle ref.realm ref.handle) fun _ => .pure _

theorem functionOf (c : Guest.Closure) : Keeps R (functionOf c) :=
  .bind (.copyRef c.ref) fun _ => .pure _

theorem dropRef (ref : Guest.Ref) : Keeps R (dropRef ref) := by
  refine .bind (.realm ref.realm) fun x => ?_
  split
  · exact .scheduleFinalizer _ _
  · exact .pure ()

theorem dropGuest (v : Guest.Value) : Keeps R (dropGuest v) := by
  unfold Act.dropGuest
  split
  · exact .dropRef _
  · exact .pure ()

theorem releaseGuest (v : Guest.Value) : Keeps R (releaseGuest v) := by
  unfold Act.releaseGuest
  split
  · exact .release _ _
  · exact .pure _

theorem releaseGuestQuietly (v : Guest.Value) : Keeps R (releaseGuestQuietly v) :=
  .bind (.releaseGuest v) fun _ => .pure ()

theorem duplicate (v : Guest.Value) : Keeps R (duplicate v) := by
  cases v with
  | object ref => exact .bind (.copyRef ref) fun _ => .pure _
  | function ref => exact .bind (.copyRef ref) fun _ => .pure _
  | undefined | null | bool | number | string => exact .pure _

theorem liftGuest (r : RealmId) (raw : Raw) : Keeps R (liftGuest r raw) := by
  unfold Act.liftGuest
  cases raw.kind with
  | undefined | null | boolean | number | object | function => exact .pure _
  | string => exact .bind (.loadString r _) fun _ => .pure _

theorem adopt (r : RealmId) (v : Host.Value) : Keeps R (adopt r v) :=
  .bind (.lowerRaw r v) fun raw => .liftGuest r raw

theorem liftGuests (r : RealmId) (raws : List Raw) (lifted : List Guest.Value) :
    Keeps R (liftGuests r lifted raws) := by
  induction raws generalizing lifted with
  | nil => exact .pure _
  | cons raw rest ih =>
    refine .bind (.liftGuest r raw) fun result => ?_
    cases result with
    | ok v => exact ih _
    | error e => exact .bind (.forM _ Keeps.dropGuest lifted) fun _ => .pure _

theorem encodeResult (r : RealmId) (v : Guest.Value) : Keeps R (encodeResult r v) := by
  cases v with
  | undefined | null | bool | number | object | function => exact .pure _
  | string s => exact .bind (.retain r _) fun _ => .pure _

theorem encodeArg (r : RealmId) (v : Guest.Value) : Keeps R (encodeArg r v) := by
  cases v with
  | undefined | null | bool | number | object | function => exact .pure _
  | string s => exact .bind (.retain r _) fun _ => .pure _

theorem releaseAll (r : RealmId) (handles : List Handle) : Keeps R (releaseAll r handles) := by
  induction handles with
  | nil => exact .pure _
  | cons h rest ih =>
    refine .bind (.release r h) fun result => ?_
    cases result with
    | error e => exact .pure _
    | ok done => exact ih

theorem withEncoded (r : RealmId) (args : List Guest.Value)
    (act : List Raw → Act (Except Fault α)) (inside : ∀ raws, Keeps R (act raws)) :
    Keeps R (withEncoded r args act) := by
  refine .bind (.mapM _ (Keeps.encodeArg r) args) fun encoded => ?_
  refine .bind (inside _) fun result => .bind (.releaseAll r _) fun released => ?_
  cases released <;> exact .pure _

theorem getProperty (target : Guest.Value) (name : String) :
    Keeps R (getProperty target name) := by
  unfold Act.getProperty
  cases targetOf target with
  | error e => exact .pure _
  | ok ref =>
    refine .bind (.getRawProperty ref.realm ref.handle name) fun result => ?_
    cases result with
    | error e => exact .pure _
    | ok raw => exact .liftGuest ref.realm raw

theorem putProperty (target : Guest.Value) (name : String) (v : Guest.Value) :
    Keeps R (putProperty target name v) := by
  unfold Act.putProperty
  cases targetOf target with
  | error e => exact .pure _
  | ok ref =>
    refine .withEncoded ref.realm [v] _ fun raws => ?_
    cases raws with
    | nil => exact .pure _
    | cons raw rest => exact .setRawProperty ref.realm ref.handle name raw

/-! Words that are read as a type -/

theorem liftHandle (r : RealmId) (word : Wire) : Keeps R (liftHandle r word) := by
  unfold Act.liftHandle
  cases word.asHandle with
  | error e => exact .pure _
  | ok h =>
    refine .bind (.bind (.assertOwner r) fun _ => .bind (.realm r) fun _ => .pure _) fun live => ?_
    split <;> exact .pure _

theorem promiseOf (ref : Guest.Ref) : Keeps R (promiseOf ref) := by
  refine .bind (.read ref.realm ref.handle) fun result => ?_
  cases result with
  | error e => exact .pure _
  | ok v =>
    refine .bind .get fun w => ?_
    split
    · exact .pure _
    · exact .bind (.typeName v) fun _ => .pure _

theorem takePromise (ref : Guest.Ref) : Keeps R (takePromise ref) := by
  refine .bind (.onHalt (.promiseOf ref)) fun result => ?_
  cases result with
  | ok p => exact .pure _
  | error e => exact .bind (.dropRef ref) fun _ => .pure _

theorem asPromise (ref : Guest.Ref) : Keeps R (asPromise ref) :=
  .bind (.takePromise ref) fun _ => .pure _

theorem lift (r : RealmId) (type : Guest.ResultType) (word : Wire) : Keeps R (lift r type word) := by
  cases type with
  | unit | bool | i32 | u32 | f64 | f32 => exact .pure _
  | string =>
    cases word with
    | i32 n => exact .bind (.loadString r _) fun _ => .pure _
    | f64 | f32 | void => exact .pure _
  | handle => exact .bind (.liftHandle r word) fun _ => .pure _
  | ref => exact .bind (.liftHandle r word) fun _ => .pure _
  | promise =>
    refine .bind (.liftHandle r word) fun result => ?_
    cases result with
    | error e => exact .pure _
    | ok h => exact .bind (.asPromise ⟨r, h⟩) fun _ => .pure _

theorem answer (p : Performer) (request : Request) (quiet : request.isQuiet) :
    Keeps R (answer p request) := by
  cases request with
  | apply | construct | invokeImport | takeException | reflect | reflectGuest => cases quiet
  | newObject className => exact .newObject _
  | property o name => exact .property o name
  | setProperty o name v => exact .setProperty o name v
  | typeName v => exact .typeName v
  | text v => exact .text v
  | log line => exact .log line
  | currentRealm => exact .bind .get fun _ => .pure _
  | retain r v => exact .retain r v
  | release r h => exact .release r h
  | read r h => exact .read r h
  | loadString r h => exact .loadString r h
  | lowerString r s => exact .lowerString r s
  | hasException r => exact .hasException r
  | liveCount r => exact .liveCount r
  | newPromise r =>
    exact .bind (.realm r) fun _ => .modifyGet _ fun w => .newPromise w _
  | promiseObject id => exact .newObject _
  | settleLater r id delay outcome => exact .bind (.realm r) fun _ => .setTimeout _ _ _ rfl
  | adopt r v => exact .adopt r v
  | duplicate v => exact .duplicate v
  | getProperty target name => exact .getProperty target name
  | putProperty target name v => exact .putProperty target name v
  | giveBack v => exact .releaseGuest v
  | freeFunction r id => exact .freeFunction r id

end Keeps

end Act

end Membrane
