import Membrane.Proofs.Tasks.Frame
import Membrane.World.Job
/-!
The jobs of a loop. But for the polls of tasks, what a job does comes down to wakes, to promises that
are settled or get reactions, and to what leaves tasks and promises alone. So jobs keep to every
relation between worlds to which these keep.
-/

set_option autoImplicit false

namespace Membrane

/-- A relation between a world and later ones that jobs keep to. Realms do not count for it. -/
class World.Working (R : World → World → Prop) : Prop extends World.Steady R where
  realm (w : World) (r : RealmId) (x : Realm) : R w (w.withRealm r x)
  wake {w w' : World} {t : TaskId} (done : Act.exec (Act.wake t) w = (.ok (), w')) : R w w'
  settle {w w' : World} {p : PromiseId} {outcome : Outcome} {answer : Bool}
    (done : Act.exec (Act.settle p outcome) w = (.ok answer, w')) : R w w'
  /-- No task waits for what the reaction is to do. -/
  register {w w' : World} {p : PromiseId} {reaction : Reaction} (other : reaction.resumes = false)
    (done : Act.exec (Act.register p reaction) w = (.ok (), w')) : R w w'

namespace Act

/-- Waits for a promise: it gets a channel to answer on. -/
def beginAwait (t : TaskId) (p : PromiseId) (ref : Guest.Ref) : Act StepEnd := do
  let channel ← modifyGet fun w =>
    (w.awaits.size, { w with awaits := w.awaits.push .create })
  register p (.resume channel)
  beginWait t (.awaiting p channel ref)

theorem beginStep_await (t : TaskId) (ref : Guest.Ref) :
    beginStep t (.await ref) = (do
      match ← takePromise ref with
      | .error e =>
        logAwaited t (.error e)
        return .go
      | .ok p => beginAwait t p ref) := rfl

end Act

namespace Act.Keeps

open World

variable {α β : Type} {R : World → World → Prop} [Steady R]

theorem task (t : TaskId) : Keeps R (task t) := .fetch _

/-! Submitting jobs that neither poll a task nor answer one -/

theorem loopOf (e : ExecutorId) : Keeps R (loopOf e) := by
  refine .bind (.fetch _) fun x => ?_
  split
  · exact .pure _
  · exact .throw _

theorem clockTime (l : LoopId) : Keeps R (clockTime l) := by
  refine .bind (.fetch _) fun c => ?_
  split
  · exact .bind .get fun _ => .pure _
  · exact .pure _

section

variable (job : Job) (awake : job.sleeper? = none)

include awake

theorem enqueue (e : ExecutorId) (plain : job.isPlain) : Keeps R (enqueue e job) :=
  .bind (.loopOf e) fun l => .queueMicrotask l job plain awake

theorem enqueueAfter (e : ExecutorId) (delay : Time) : Keeps R (enqueueAfter e delay job) :=
  .bind (.loopOf e) fun l => .setTimeout l _ job awake

theorem enqueueAt (e : ExecutorId) (deadline : Time) : Keeps R (enqueueAt e deadline job) :=
  .bind (.loopOf e) fun l => .bind (.clockTime l) fun _ => .enqueueAfter job awake e _

theorem submit (target : Target) (moment : Moment) (plain : job.isPlain) :
    Keeps R (submit target moment job) := by
  cases target with
  | executor e =>
    cases moment with
    | soon => exact .enqueue job awake e plain
    | after delay => exact .enqueueAfter job awake e delay
    | deadline time => exact .enqueueAt job awake e time
    | timeout delay => exact .bind (.loopOf e) fun l => .setTimeout l delay job awake
  | loop l =>
    cases moment with
    | soon => exact .queueMicrotask l job plain awake
    | after delay => exact .setTimeout l _ job awake
    | deadline time => exact .bind (.clockTime l) fun _ => .setTimeout l _ job awake
    | timeout delay => exact .setTimeout l delay job awake

end

theorem pollSleeper (s : Nat) (waiter : TaskId) : Keeps R (pollSleeper s waiter) :=
  fun _ _ _ done => Steady.poll done

/-! Logging -/

theorem logOutcome (tag : String) (outcome : Outcome) : Keeps R (logOutcome tag outcome) := by
  cases outcome <;> exact .bind (.text _) fun _ => .log _

/-! Receiving -/

theorem pollReceive (id : ReceiveId) (waiter : Option TaskId) : Keeps R (pollReceive id waiter) := by
  refine .bind (.fetch _) fun x => ?_
  split
  · exact .throw _
  · exact .bind (.setReceive id _) fun _ => .pure _
  · refine .bind (.onReply _ _) fun receipt => ?_
    split <;> first | exact .pure _ | exact .throw _

theorem requestObject (t : TokenId) (c : Context) : Keeps R (requestObject t c) := by
  refine .bind (.fetch _) fun x => .bind .get fun w => ?_
  split
  · exact .newReceive _
  · refine .bind (.modifyGet _ fun _ => .of_same rfl rfl rfl rfl rfl rfl rfl rfl) fun reply =>
      .bind .get fun w => ?_
    split
    · exact .newReceive _
    · refine .bind (.modify _ fun _ => .of_same rfl rfl rfl rfl rfl rfl rfl rfl) fun _ => ?_
      exact .bind (.onQueue _ _ fun _ => ⟨rfl, rfl, rfl, rfl⟩) fun _ => .bind (.copyToken t) fun _ =>
        .bind (.queueMicrotask _ _ rfl rfl) fun _ => .newReceive _

theorem receive (t : TokenId) (c : Context) : Keeps R (receive t c) := by
  refine .bind (.fetch _) fun x => ?_
  split
  · exact .throw _
  · refine .bind (.setToken t _) fun _ => ?_
    split
    · exact .requestObject t c
    · exact .bind (.fulfil t) fun _ => .newReceive _

/-- Something is named, and what had the name before is let go. -/
theorem nameRef (name : String) (ref : Guest.Ref) : Keeps R (nameRef name ref) := by
  refine .bind (.bind .get fun _ => .pure _) fun _ =>
    .bind (.modify _ fun _ => .of_same rfl rfl rfl rfl rfl rfl rfl rfl) fun _ => ?_
  split
  · exact .dropRef _
  · exact .pure ()

/-! Steps of a task -/

theorem taskLog (t : TaskId) (line : String) : Keeps R (taskLog t line) :=
  .bind (.task t) fun _ => .log _

theorem logAwaited (t : TaskId) (result : Except Fault Guest.Value) :
    Keeps R (logAwaited t result) := by
  cases result with
  | ok v => exact .bind .get fun _ => .bind (.taskLog t _) fun _ => .releaseGuestQuietly v
  | error e => exact .bind (.bind .get fun _ => .pure _) fun _ => .taskLog t _

end Act.Keeps

namespace Act

open World

variable {R : World → World → Prop} [Working R]

theorem keeps_settle (p : PromiseId) (outcome : Outcome) : Keeps R (settle p outcome) :=
  fun _ _ _ done => Working.settle done

theorem keeps_register (p : PromiseId) (reaction : Reaction) (other : reaction.resumes = false) :
    Keeps R (register p reaction) :=
  fun _ _ _ done => Working.register other done

theorem keeps_wake (t : TaskId) : Keeps R (wake t) := fun _ _ _ done => Working.wake done

theorem keeps_wakeAny (waiter : Option TaskId) : Keeps R (wakeAny waiter) := by
  cases waiter with
  | none => exact .pure ()
  | some t => exact keeps_wake t

/-! Steps of a task that waits for no promise -/

section

variable {t : TaskId} [Pausing R t]

theorem keeps_resumeWait_of_free (wait : Wait) (free : wait.await? t = none) :
    Keeps R (resumeWait t wait) := by
  cases wait with
  | yielded => exact .bind (.setWait none rfl) fun _ => .pure _
  | sleeping s =>
    refine .bind (.pollSleeper s t) fun ready => ?_
    split
    · exact .bind (.setWait none rfl) fun _ => .pure _
    · exact .pure _
  | joining j =>
    refine .bind (.onResult j _) fun receipt => ?_
    split
    · exact .pure _
    · exact .bind (.setWait none rfl) fun _ => .bind (.taskLog t _) fun _ => .pure _
    · exact .bind (.setWait none rfl) fun _ => .bind (.task j) fun _ => .bind (.taskLog t _) fun _ =>
        .pure _
    · exact .throw _
  | awaiting => cases free
  | receiving token receive name =>
    refine .bind (.pollReceive receive (some t)) fun answer => ?_
    split
    · exact .pure _
    · next result =>
      refine .bind (.setWait none rfl) fun _ => .bind (.dropReceive receive) fun _ => ?_
      cases result with
      | ok ref =>
        exact .bind (.realm _) fun _ => .bind (.taskLog t _) fun _ => .bind (.nameRef name ref) fun _ =>
          .bind (.dropToken token) fun _ => .pure _
      | error e =>
        exact .bind (.bind .get fun _ => .pure _) fun _ => .bind (.taskLog t _) fun _ =>
          .bind (.dropToken token) fun _ => .pure _

theorem keeps_beginWait_of_free (wait : Wait) (free : wait.await? t = none) :
    Keeps R (beginWait t wait) :=
  .bind (.setWait (some wait) free) fun _ => keeps_resumeWait_of_free wait free

theorem keeps_beginStep_of_free (step : TaskStep) (free : ∀ ref, step ≠ .await ref) :
    Keeps R (beginStep t step) := by
  cases step with
  | log line => exact .bind (.taskLog t line) fun _ => .pure _
  | sleep delay =>
    exact .bind (.task t) fun _ =>
      .bind (.modifyGet _ fun w => .newSleeper w _) fun _ =>
        keeps_beginWait_of_free _ rfl
  | yield wakes =>
    exact .bind (.setWait _ rfl) fun _ => .bind (.forM _ (fun t => keeps_wake t) _) fun _ => .pure _
  | join j => exact keeps_beginWait_of_free _ rfl
  | pending | finish => exact .pure _
  | panic => exact .throw _
  | await ref => exact (free ref rfl).elim
  | receive token c name =>
    exact .bind (.onHalt (.receive token c)) fun _ => keeps_beginWait_of_free _ rfl

end

/-! Steps of a task, where it does not count what tasks wait for -/

section

variable [Heedless R]

theorem keeps_resumeWait (t : TaskId) (wait : Wait) : Keeps R (resumeWait t wait) := by
  cases wait with
  | awaiting p channel ref =>
    have after (result : Except Fault Guest.Value) : Keeps R (setWait t none >>= fun _ =>
        releaseRef ref >>= fun _ => logAwaited t result >>= fun _ => pure StepEnd.go) :=
      .bind (.setWait none rfl) fun _ => .bind (.release _ _) fun _ => .bind (.logAwaited t _) fun _ =>
        .pure _
    refine .bind (.onAwait channel _) fun receipt => ?_
    split
    · exact .pure _
    · next outcome =>
      cases outcome with
      | ok v => exact .bind (.adopt _ v) fun result => after result
      | error v => exact after _
    · exact .bind (.onHeap _) fun _ => after _
    · exact .throw _
  | sleeping | yielded | joining | receiving => exact keeps_resumeWait_of_free _ rfl

/-- To wait for a promise is to leave a channel with it. -/
theorem keeps_beginAwait (t : TaskId) (p : PromiseId) (ref : Guest.Ref) :
    Keeps R (beginAwait t p ref) := by
  have opened : Keeps R (modifyGet fun w =>
      (w.awaits.size, { w with awaits := w.awaits.push .create }) : Act Nat) := by
    rintro w w' a done
    cases done
    exact Heedless.awaits w _
  have marked (wait : Wait) : Keeps R (setWait t (some wait)) :=
    .changeTask t (fun k => { k with wait := some wait }) (Heedless.rewrite · rfl rfl)
      (fun _ => Pure.pure ()) fun _ => .pure ()
  exact .bind opened fun channel => .bind (.register p _) fun _ =>
    .bind (marked _) fun _ => keeps_resumeWait t _

theorem keeps_beginStep (t : TaskId) (step : TaskStep) : Keeps R (beginStep t step) := by
  cases step with
  | await ref =>
    rw [beginStep_await]
    refine .bind (.takePromise ref) fun result => ?_
    cases result with
    | error e => exact .bind (.logAwaited t _) fun _ => .pure _
    | ok p => exact keeps_beginAwait t p ref
  | log | sleep | yield | join | pending | panic | finish | receive =>
    exact keeps_beginStep_of_free _ (by simp)

theorem keeps_runSteps (t : TaskId) (steps : List TaskStep) : Keeps R (runSteps t steps) := by
  induction steps with
  | nil => exact .pure _
  | cons step rest ih =>
    refine .changeTask t (fun k => { k with steps := rest }) (Heedless.rewrite · rfl rfl) _ fun _ =>
      .bind (keeps_beginStep t step) fun r => ?_
    cases r with
    | go => exact ih
    | wait | finish => exact .pure _

theorem keeps_resumeTask (t : TaskId) : Keeps R (resumeTask t) := by
  refine .bind (.task t) fun k => ?_
  split
  · exact keeps_runSteps t _
  · refine .bind (keeps_resumeWait t _) fun r => ?_
    cases r with
    | go => exact .bind (.task t) fun _ => keeps_runSteps t _
    | wait | finish => exact .pure _

end

theorem keeps_react_of_other (reaction : Reaction) (other : reaction.resumes = false)
    (outcome : Outcome) : Keeps R (react reaction outcome) := by
  cases reaction with
  | line s => exact .log s
  | log p tag next =>
    refine .bind (.logOutcome tag outcome) fun _ => ?_
    split
    · exact keeps_register p _ rfl
    · exact .pure ()
  | resume channel => cases other

/-- A script may have a panic at its end. -/
theorem keeps_ending (panic : Option String) : Keeps R (match panic with
    | some message => throw (.panic message)
    | none => pure () : Act Unit) := by
  cases panic with
  | none => exact .pure ()
  | some message => exact .throw _

theorem keeps_runScript (target : Target) (s : Script) : Keeps R (runScript target s) := by
  obtain ⟨line, settled?, shutdown, jobs, panic⟩ := s
  have submitted : Keeps R (jobs.forM fun job => submit target job.1 (.script target job.2)) :=
    .forM _ (fun _ => .submit _ rfl target _ rfl) jobs
  have last := keeps_ending (R := R) panic
  have shut (l : LoopId) : Keeps R (onQueue l (·.shutdown)) := .onQueue l _ fun _ => ⟨rfl, rfl, rfl, rfl⟩
  refine .bind (.log line) fun _ => ?_
  cases settled? with
  | none =>
    cases shutdown with
    | none => exact .bind submitted fun _ => last
    | some l => exact .bind (shut l) fun _ => .bind submitted fun _ => last
  | some settled =>
    refine .bind (keeps_settle settled.1 settled.2) fun _ => .bind (.log _) fun _ => ?_
    cases shutdown with
    | none => exact .bind submitted fun _ => last
    | some l => exact .bind (shut l) fun _ => .bind submitted fun _ => last

theorem keeps_collectGarbage (r : RealmId) : Keeps R (collectGarbage r) := by
  intro w w' count done
  obtain ⟨x, present, _⟩ := exec_fetch_bind_eq_ok _ _ _ _ _ done
  obtain ⟨y, rfl, _⟩ := exec_collectGarbage_eq_ok _ r x present count w' done
  exact Working.realm _ r y

theorem keeps_serve (t : TokenId) : Keeps R (serve t) := by
  refine .bind (.fetch _) fun x => .bind .get fun w => ?_
  split
  · exact .dropToken t
  refine .bind .get fun w => ?_
  split
  · exact .bind (.dropToken t) fun _ => .throw _
  · next waiting runtime _ =>
    refine .bind (.modify _ fun _ => .of_same rfl rfl rfl rfl rfl rfl rfl rfl) fun _ =>
      .bind (.read _ _) fun value => ?_
    have sent : Keeps R (do
        let waiter ← onReply waiting.reply (·.closeSender)
        wakeAny waiter
        dropToken t) :=
      .bind (.onReply _ _) fun waiter => .bind (keeps_wakeAny waiter) fun _ => .dropToken t
    have passed (c : Attachment) (outcome : Except Fault Host.Value) : Keeps R (do
        copyToken t
        queueMicrotask c.loop (.deliver t c.realm waiting.reply outcome)
        dropToken t) :=
      .bind (.copyToken t) fun _ => .bind (.queueMicrotask _ _ rfl rfl) fun _ => .dropToken t
    cases value with
    | error e =>
      refine .bind (.pure _) fun outcome => .bind .get fun w => ?_
      cases w.runtime.attachment? waiting.destination with
      | none => exact sent
      | some destination => exact passed destination outcome
    | ok v =>
      refine .bind (.release _ _) fun _ => .bind (.pure _) fun outcome => .bind .get fun w => ?_
      cases w.runtime.attachment? waiting.destination with
      | none => exact sent
      | some destination => exact passed destination outcome

/-- What a delivery does with the result that it has for the waiting task. -/
theorem keeps_answered (t : TokenId) (r : RealmId) (reply : ReplyId)
    (result : Except Fault Handle) : Keeps R (do
      fulfil t
      let sent ← onReply reply fun ch => match ch.send? result with
        | some (waiter, ch) => (some waiter, ch)
        | none => (none, ch)
      match sent, result with
      | some waiter, _ => wakeAny waiter
      | none, .ok h => releaseQuietly r h
      | none, .error _ => pure ()
      dropToken t) := by
  refine .bind (.fulfil t) fun _ => .bind (.onReply _ _) fun sent => ?_
  cases sent with
  | some waiter => exact .bind (keeps_wakeAny waiter) fun _ => .dropToken t
  | none =>
    cases result with
    | ok h => exact .bind (.releaseQuietly r h) fun _ => .dropToken t
    | error e => exact .dropToken t

theorem keeps_deliver (t : TokenId) (r : RealmId) (reply : ReplyId)
    (outcome : Except Fault Host.Value) : Keeps R (deliver t r reply outcome) := by
  cases outcome with
  | error e => exact keeps_answered t r reply _
  | ok v => exact .bind (.retain r v) fun h => keeps_answered t r reply (.ok h)

theorem keeps_plain_of_awake (job : Job) (plain : job.isPlain) (awake : job.sleeper? = none) :
    Keeps R (performJob job) := by
  cases job with
  | poll t => cases plain
  | script target s => exact keeps_runScript target s
  | line s => exact .log s
  | fireSleeper s => cases awake
  | collect r =>
    refine .bind .get fun w => ?_
    split
    · exact .bind (keeps_collectGarbage r) fun _ => .pure ()
    · exact .pure ()
  | react reaction outcome =>
    cases reaction with
    | resume => cases plain
    | line s => exact keeps_react_of_other (.line s) rfl outcome
    | log p tag next => exact keeps_react_of_other (.log p tag next) rfl outcome
  | settle p outcome => exact .bind (keeps_settle p outcome) fun _ => .pure ()
  | serve t => exact keeps_serve t
  | deliver t r reply outcome => exact keeps_deliver t r reply outcome

/-- A sleeper is fired. It is written, and somebody may be woken. -/
theorem keeps_fireSleeper (s : Nat) (written : ∀ w x, R w (w.withSleeper s x)) :
    Keeps R (fireSleeper s) := by
  have marked (x : Sleeper) : Keeps R (modify (·.withSleeper s x) : Act Unit) := by
    rintro w w' a done
    cases done
    exact written w x
  exact .bind (.fetch _) fun x => .bind (marked _) fun _ => keeps_wakeAny _

theorem keeps_performJob_of_plain [Lasting R] (job : Job) (plain : job.isPlain) :
    Keeps R (performJob job) := by
  cases fires : job.sleeper? with
  | none => exact keeps_plain_of_awake job plain fires
  | some s =>
    obtain rfl := (job.sleeper?_eq_some_iff s).mp fires
    exact keeps_fireSleeper s fun _ _ => Lasting.aside (.of_same rfl rfl rfl rfl rfl rfl rfl)

theorem keeps_answer [Heedless R] (channel : Nat) (outcome : Outcome) :
    Keeps R (performJob (.react (.resume channel) outcome)) :=
  .bind (.onAwait channel _) fun waiter => keeps_wakeAny waiter

theorem keeps_performJob [Heedless R] [Lasting R] (job : Job) (other : ∀ t, job.polls t = false) :
    Keeps R (performJob job) := by
  rcases job.kinds with ⟨t, rfl⟩ | ⟨channel, outcome, rfl⟩ | plain
  · simp [Job.polls] at other
  · exact keeps_answer channel outcome
  · exact keeps_performJob_of_plain job plain

end Act

/-! Jobs, where tasks do not count -/

/-- A relation for which tasks do not count, and neither do the polls of them that are queued. -/
class World.Taskless (R : World → World → Prop) : Prop where
  task (w : World) (t : TaskId) (x : Task) : R w (w.withTask t x)
  post (w : World) (l : LoopId) (t : TaskId) : R w (w.post l (.poll t))

namespace Act

open World

variable {R : World → World → Prop} [Taskless R]

theorem keeps_setTask (t : TaskId) (x : Task) : Keeps R (setTask t x) := by
  rintro w w' a done
  cases done
  exact Taskless.task w t x

variable [Working R] [Heedless R]

theorem keeps_endPoll (t : TaskId) (r : StepEnd) : Keeps R (endPoll t r) := by
  cases r with
  | go => exact .pure none
  | finish result =>
    exact .bind (.sendResult result) fun _ => .bind (.task t) fun _ =>
      .bind (keeps_setTask t _) fun _ => .pure _
  | wait wakeable =>
    refine .bind (.task t) fun k => ?_
    obtain ⟨state, queue⟩ := k.state.suspend
    refine .bind (keeps_setTask t _) fun _ => ?_
    cases queue with
    | true =>
      refine .bind (fun w w' a done => ?_) fun _ => .pure none
      obtain ⟨l, _, rfl⟩ := exec_enqueue_eq_ok _ _ w w' done
      exact Taskless.post w l t
    | false =>
      cases wakeable with
      | true => exact .pure none
      | false => exact .abandonment t

theorem keeps_pollTask (t : TaskId) : Keeps R (pollTask t) := by
  rw [pollTask_eq]
  refine .bind (.task t) fun k => ?_
  cases k.state.start? with
  | none => exact .pure ()
  | some state =>
    exact .bind (keeps_setTask t _) fun _ => .bind (.onHalt (keeps_resumeTask t)) fun r =>
      .bind (keeps_endPoll t r) fun waiter => keeps_wakeAny waiter

/-- Whatever a job does but to fire a sleeper. -/
theorem keeps_performJob_of_awake (job : Job) (awake : job.sleeper? = none) :
    Keeps R (performJob job) := by
  rcases job.kinds with ⟨t, rfl⟩ | ⟨channel, outcome, rfl⟩ | plain
  · exact keeps_pollTask t
  · exact keeps_answer channel outcome
  · exact keeps_plain_of_awake job plain awake

end Act

/-! Loops -/

namespace Act

open World

variable {R : World → World → Prop} [Steady R]

theorem keeps_read (l : LoopId) : Keeps R (restless l).read :=
  .bind (.fetch _) fun c => .pure c.queue

/-- A loop runs. What it does comes down to microtasks, to timers that are due, and to what happens
while it waits. -/
theorem keeps_run (l : LoopId) (park : Option Time → Act Bool)
    (drain : ∀ fuel, Keeps R ((restless l).drain fuel)) (fireDue : Keeps R (restless l).fireDue)
    (parked : ∀ due, Keeps R (park due)) (untilShutdown : Bool) (jobs fuel : Nat) :
    Keeps R ((seat l park).run untilShutdown jobs fuel) := by
  induction fuel with
  | zero => exact .pure _
  | succ fuel ih =>
    rw [Seat.run, drain_seat]
    refine .bind (drain jobs) fun count => ?_
    cases count with
    | none => exact .pure _
    | some n =>
      refine .bind (keeps_read l) fun q => ?_
      split
      · exact .pure _
      refine .bind fireDue fun fired => ?_
      split
      · exact ih
      refine .bind (keeps_read l) fun guarded => .bind (keeps_read l) fun posted => ?_
      split
      · exact ih
      refine .bind (keeps_read l) fun last => ?_
      dsimp only
      split
      · exact .pure _
      refine .bind (parked _) fun woken => ?_
      split
      · exact ih
      · exact .pure _

end Act

end Membrane
