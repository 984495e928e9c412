import Membrane.Proofs.Tasks.Work
/-!
How a task waits for a promise: it leaves a channel with the promise, is sent the outcome there and
is woken, and takes the outcome out when it is polled.
-/

set_option autoImplicit false

namespace Membrane

namespace Act

/-- What a task is told that waits for a promise with this outcome. -/
def awaitResult (r : RealmId) : Outcome → Act (Except Fault Guest.Value)
  | .ok v => adopt r v
  | .error reason => return .error (.hostException reason)

/-- A task waits no longer and is done with what it was told. -/
def endAwait (t : TaskId) (ref : Guest.Ref) (result : Except Fault Guest.Value) : Act StepEnd := do
  setWait t none
  let _ ← releaseRef ref
  logAwaited t result
  return .go

/-- A task is told that its promise is gone. -/
def loseAwait (t : TaskId) (ref : Guest.Ref) : Act StepEnd := do
  let v ← newError "Error" lostPromise
  endAwait t ref (.error (.hostException v))

/-- Looks for the outcome of a promise. -/
def lookFor (t : TaskId) (channel : Nat) : Act (Receipt Outcome) :=
  onAwait channel (·.poll (some t))

theorem resumeWait_awaiting (t : TaskId) (p : PromiseId) (channel : Nat) (ref : Guest.Ref) :
    resumeWait t (.awaiting p channel ref) = (do
      match ← lookFor t channel with
      | .pending => return .wait true
      | .value outcome => endAwait t ref (← awaitResult ref.realm outcome)
      | .closed => loseAwait t ref
      | .exhausted => throw (.panic pollAfterReply)) := by
  rw [resumeWait, lookFor]
  congr
  funext receipt
  cases receipt with
  | value outcome => cases outcome <;> rfl
  | pending | closed | exhausted => rfl

end Act

namespace World

/-- Whether a task is to be polled, now or when the poll that is going on is over. -/
def IsDue (w : World) (t : TaskId) : Prop :=
  w.taskState? t = some .scheduled ∨ w.taskState? t = some .notified

/-- A task is not completed by what happens, and if it is to be polled, it still is. -/
structure Onward (t : TaskId) (w w' : World) : Prop where
  unfinished : w.taskState? t ≠ some .completed → w'.taskState? t ≠ some .completed
  due : w.IsDue t → w'.IsDue t

namespace Onward

variable {t : TaskId} {u v w : World}

theorem of_state (same : w.taskState? t = u.taskState? t) : Onward t u w where
  unfinished other := by rwa [same]
  due due := by rwa [IsDue, same]

theorem trans (first : Onward t u v) (rest : Onward t v w) : Onward t u w :=
  ⟨fun other => rest.unfinished (first.unfinished other), fun due => rest.due (first.due due)⟩

/-- A task comes to a state in which it is to be polled, or stays in one in which it is not. -/
theorem withTask {k : Task} (present : w.tasks[t]? = some k) (state : TaskState)
    (unfinished : state ≠ .completed)
    (due : k.state = .scheduled ∨ k.state = .notified → state = .scheduled ∨ state = .notified)
    (s : TaskId) : Onward s w (w.withTask t { k with state }) := by
  have after := taskState?_withTask w t k { k with state } present s
  by_cases here : s = t
  · subst here
    rw [if_pos rfl] at after
    have before : w.taskState? s = some k.state := by rw [taskState?, present, Option.map_some]
    constructor
    · simp [after, unfinished]
    · simpa [IsDue, after, before] using due
  · rw [if_neg here] at after
    exact .of_state after

end Onward

end World

namespace Act

open World

/-! Wakes, new tasks, and the end of a poll -/

theorem silent_state {w : World} {t : TaskId} {k : Task} (present : w.tasks[t]? = some k)
    (state : TaskState) : w.Silent (w.withTask t { k with state }) :=
  .withTask w t k _ present rfl

/-- A wake does nothing to promises and what waits for them. Whoever is woken is to be polled, if not
completed. -/
theorem exec_wake_onward (t : TaskId) (w w' : World) (done : exec (wake t) w = (.ok (), w')) :
    w.Silent w' ∧ (∀ s, w.Onward s w') ∧ (w.taskState? t ≠ some .completed → w'.IsDue t) := by
  obtain ⟨k, present, change⟩ := exec_wake_eq_ok t w w' done
  have state : w.taskState? t = some k.state := by rw [taskState?, present, Option.map_some]
  have marked (now : TaskState) : (w.withTask t { k with state := now }).taskState? t = some now := by
    rw [taskState?_withTask w t k _ present, if_pos rfl]
  rcases change with ⟨idle, l, _, rfl⟩ | ⟨running, rfl⟩ | ⟨notIdle, notRunning, rfl⟩
  · refine ⟨(silent_state present _).trans (.post _ l _ rfl), fun s => ?_, fun _ => .inl (marked _)⟩
    exact (Onward.withTask present .scheduled (by simp) (by simp) s).trans (.of_state rfl)
  · exact ⟨silent_state present _, Onward.withTask present .notified (by simp) (by simp),
      fun _ => .inr (marked _)⟩
  · refine ⟨.refl _, fun _ => .of_state rfl, fun unfinished => ?_⟩
    rw [state] at unfinished
    rw [IsDue, state]
    cases now : k.state <;> simp_all

theorem exec_wakeAny_onward (waiter : Option TaskId) (w w' : World)
    (done : exec (wakeAny waiter) w = (.ok (), w')) :
    w.Silent w' ∧ (∀ s, w.Onward s w') ∧
      ∀ t, waiter = some t → w.taskState? t ≠ some .completed → w'.IsDue t := by
  cases waiter with
  | none =>
    cases done
    exact ⟨.refl _, fun _ => .of_state rfl, nofun⟩
  | some t =>
    obtain ⟨silent, onward, due⟩ := exec_wake_onward t w w' done
    exact ⟨silent, onward, by rintro _ ⟨⟩; exact due⟩

/-- A new task waits for nothing. -/
theorem exec_spawn_onward (e : ExecutorId) (name : String) (steps : List TaskStep) (w w' : World)
    (t : TaskId) (done : exec (spawn e name steps) w = (.ok t, w')) :
    w.Silent w' ∧ ∀ s, w.Onward s w' := by
  obtain ⟨rfl, k, l, executors, state, free, _, _, _, _, rfl⟩ :=
    exec_spawn_eq_ok e name steps w w' t done
  refine ⟨(Silent.withNewTask w executors k free).trans (.post _ l _ rfl), fun s => ?_⟩
  have after : ((w.withNewTask executors k).post l (.poll w.tasks.size)).taskState? s =
      if s = w.tasks.size then some .scheduled else w.taskState? s := by
    rw [taskState?_post, taskState?_withNewTask, state]
  by_cases here : s = w.tasks.size
  · rw [if_pos here] at after
    exact ⟨by simp [after], fun _ => .inl after⟩
  · rw [if_neg here] at after
    exact .of_state after

/-- A task that waits for no promise is cleared, and nothing comes of what was in it. -/
theorem silent_cleared (t : TaskId) (rest : Task → Act (Option TaskId)) (w w' : World)
    (waiter : Option TaskId) (free : w.awaited? t = none)
    (still : ∀ k, w.tasks[t]? = some k → Keeps Still (rest k))
    (done : exec (do
      let k ← task t
      setTask t { k with wait := none, steps := [] }
      rest k) w = (.ok waiter, w')) :
    w.Silent w' := by
  obtain ⟨k, present, after⟩ := exec_task_bind_eq_ok _ _ _ _ _ done
  obtain ⟨_, v, written, after⟩ := exec_bind_eq_ok _ _ _ _ _ after
  cases written
  rw [awaited?_of_present _ t k present] at free
  have cleared : w.Silent (w.withTask t { k with wait := none, steps := [] }) :=
    .withTask w t k _ present free.symm
  exact cleared.trans (still k present _ w' waiter after).silent

/-- What a task waits with goes with what is left of it, as long as that is no promise. -/
theorem silent_abandonment (t : TaskId) (w w' : World) (waiter : Option TaskId)
    (free : w.awaited? t = none) (done : exec (abandonment t) w = (.ok waiter, w')) :
    w.Silent w' := by
  refine silent_cleared t _ w w' waiter free (fun k present => ?_) done
  rw [awaited?_of_present _ t k present] at free
  refine .letGo t k fun wait waiting => ?_
  rw [waiting] at free
  exact .dropWait_of_free t wait free

theorem silent_sendResult (t : TaskId) (result : String) (w w' : World) (waiter : Option TaskId)
    (free : w.awaited? t = none) (done : exec (sendResult t result) w = (.ok waiter, w')) :
    w.Silent w' := by
  refine silent_cleared t _ w w' waiter free (fun k _ => ?_) done
  exact .bind (.forM _ Keeps.dropStep _) fun _ => .onResult t _

/-- The end of a poll does nothing to promises and what waits for them, if its task waits on or waits
for none. -/
theorem silent_endPoll (t : TaskId) (r : StepEnd) (w w' : World) (waiter : Option TaskId)
    (waits : r = .wait true ∨ w.awaited? t = none)
    (done : exec (endPoll t r) w = (.ok waiter, w')) : w.Silent w' := by
  cases r with
  | go =>
    cases done
    exact .refl w
  | finish result =>
    have free : w.awaited? t = none := by simpa using waits
    obtain ⟨_, u, sent, marked⟩ := exec_bind_eq_ok _ _ _ _ _ done
    obtain ⟨k, present, written⟩ := exec_task_bind_eq_ok _ _ _ _ _ marked
    cases written
    exact (silent_sendResult t result w u _ free sent).trans (silent_state present _)
  | wait wakeable =>
    obtain ⟨k, present, rest⟩ := exec_task_bind_eq_ok _ _ _ _ _ done
    obtain ⟨_, v, written, rest⟩ := exec_bind_eq_ok _ _ _ _ _ rest
    cases written
    cases state : k.state with
    | running =>
      rw [state] at rest
      have marked := silent_state present .idle
      cases wakeable with
      | true =>
        cases rest
        exact marked
      | false =>
        have free : w.awaited? t = none := by simpa using waits
        exact marked.trans (silent_abandonment t _ w' waiter ((marked.awaited t).trans free) rest)
    | idle | scheduled | notified | completed =>
      rw [state] at rest
      obtain ⟨_, v, queued, rest⟩ := exec_bind_eq_ok _ _ _ _ _ rest
      cases rest
      obtain ⟨l, _, rfl⟩ := exec_enqueue_eq_ok _ _ _ _ queued
      exact (silent_state present .scheduled).trans (.post _ l _ rfl)

/-- A task that waits for a promise goes on when a poll ends. -/
theorem onward_endPoll (t : TaskId) (r : StepEnd) (answered : r ≠ .go) (w w' : World)
    (waiter : Option TaskId) (waits : r = .wait true ∨ w.awaited? t = none)
    (done : exec (endPoll t r) w = (.ok waiter, w')) (s : TaskId) (waiting : w.awaited? s ≠ none) :
    w.Onward s w' := by
  rcases exec_endPoll_eq_ok t r answered w w' waiter done with
    ⟨finish, u, k, calm, present, rfl⟩ | ⟨_, k, present, ⟨running, calm⟩ | ⟨_, l, _, rfl⟩⟩
  · have other : s ≠ t := by
      rintro rfl
      rcases waits with rfl | free
      · cases finish
      · exact waiting free
    refine Onward.trans (.of_state (calm.state s)) (.of_state ?_)
    rw [taskState?_withTask u t k _ present, if_neg other]
  · exact (Onward.withTask present .idle (by simp) (by simp [running]) s).trans
      (.of_state (calm.state s))
  · exact (Onward.withTask present .scheduled (by simp) (by simp) s).trans (.of_state rfl)

end Act

/-! Waiting for a promise -/

namespace World

/-- A task begins to wait for a promise, by a channel that is new. -/
structure Begins (a : Await) (w w' : World) : Prop where
  fresh : a.channel = w.awaits.size
  states : ∀ t, w'.taskState? t = w.taskState? t
  size : w'.awaits.size = w.awaits.size + 1
  awaits : ∀ n, w'.awaits[n]? =
    if n = a.channel then some ⟨.waiting, some a.task⟩ else w.awaits[n]?
  awaited : ∀ t, w'.awaited? t = if t = a.task then some a else w.awaited? t
  seat : ∀ q, w'.seat? q = w.seat? q
  outcomes : ∀ q, w'.outcome? q = w.outcome? q
  reactions : ∀ q, w'.reactions q =
    if q = a.promise ∧ w.outcome? a.promise = none then w.reactions q ++ [.resume a.channel]
    else w.reactions q
  answers : ∀ l y, y ∈ w'.answers l ↔
    y ∈ w.answers l ∨ w.seat? a.promise = some l ∧
      ∃ outcome, w.outcome? a.promise = some outcome ∧ (a.channel, outcome) = y

/-- A task is told the outcome of a promise and waits for it no longer. -/
structure Ends (a : Await) (w w' : World) : Prop where
  onward : ∀ t, t ≠ a.task → w.Onward t w'
  size : w'.awaits.size = w.awaits.size
  awaits : ∀ n, w'.awaits[n]? = if n = a.channel then some ⟨.taken, none⟩ else w.awaits[n]?
  awaited : ∀ t, w'.awaited? t = if t = a.task then none else w.awaited? t
  seat : ∀ q l, w.seat? q = some l → w'.seat? q = some l
  outcomes : ∀ q, w'.outcome? q = w.outcome? q
  reactions : ∀ q, w'.reactions q = w.reactions q
  answers : ∀ l, w'.answers l = w.answers l

/-- An answer that was queued is carried out: if the task waits for it, it is sent and the task is
woken. -/
structure Replies (channel : Nat) (outcome : Outcome) (w w' : World) : Prop where
  onward : ∀ t, w.Onward t w'
  size : w'.awaits.size = w.awaits.size
  awaits : ∀ n, n ≠ channel → w'.awaits[n]? = w.awaits[n]?
  sent : ∀ t, w.awaits[channel]? = some ⟨.waiting, some t⟩ → w.taskState? t ≠ some .completed →
    w'.awaits[channel]? = some ⟨.sent outcome, none⟩ ∧ w'.IsDue t
  once : ∀ former waiter, w.awaits[channel]? = some ⟨.sent former, waiter⟩ →
    w'.awaits[channel]? = some ⟨.sent former, waiter⟩
  awaited : ∀ t, w'.awaited? t = w.awaited? t
  seat : ∀ q l, w.seat? q = some l → w'.seat? q = some l
  outcomes : ∀ q, w'.outcome? q = w.outcome? q
  reactions : ∀ q, w'.reactions q = w.reactions q
  queued : ∃ l, (channel, outcome) ∈ w.answers l
  fewer : ∀ l y, y ∈ w'.answers l → y ∈ w.answers l
  others : ∀ l y, y.1 ≠ channel → y ∈ w.answers l → y ∈ w'.answers l

/-- What ends after something that does nothing to promises ends all the same. -/
theorem Ends.after {a : Await} {u v w : World} (silent : u.Silent v)
    (onward : ∀ t, t ≠ a.task → u.Onward t v) (ends : v.Ends a w) : u.Ends a w where
  onward t other := (onward t other).trans (ends.onward t other)
  size := by rw [ends.size, silent.awaits]
  awaits n := by rw [ends.awaits, silent.awaits]
  awaited t := by rw [ends.awaited, silent.awaited]
  seat q l seat := ends.seat q l (silent.seat seat)
  outcomes q := (ends.outcomes q).trans (silent.outcome q)
  reactions q := (ends.reactions q).trans (silent.reactions q)
  answers l := (ends.answers l).trans (silent.answers l)

end World

namespace Act

open World

theorem exec_onAwait_eq_ok {α : Type} (channel : Nat) (f : Channel Outcome → α × Channel Outcome)
    (w w' : World) (a : α) (done : exec (onAwait channel f) w = (.ok a, w')) :
    ∃ c, w.awaits[channel]? = some c ∧ a = (f c).1 ∧ w' = w.withAwait channel (f c).2 := by
  obtain ⟨c, present, rest⟩ := exec_fetch_bind_eq_ok _ _ _ _ _ done
  cases rest
  exact ⟨c, present, rfl, rfl⟩

theorem exec_setWait_eq_ok (t : TaskId) (wait : Option Wait) (w w' : World)
    (done : exec (setWait t wait) w = (.ok (), w')) :
    ∃ k, w.tasks[t]? = some k ∧ w' = w.withTask t { k with wait } := by
  obtain ⟨k, present, written⟩ := exec_task_bind_eq_ok _ _ _ _ _ done
  cases written
  exact ⟨k, present, rfl⟩

/-- A channel that is new is left with the promise, and the task waits there. -/
theorem begins_of_registers {t : TaskId} {p : PromiseId} {ref : Guest.Ref} {w u : World} {k : Task}
    (registers : w.withNewAwait.Registers p (.resume w.awaits.size) u)
    (present : u.tasks[t]? = some k) :
    w.Begins ⟨t, p, w.awaits.size, ref⟩
      ((u.withTask t { k with wait := some (.awaiting p w.awaits.size ref) }).withAwait w.awaits.size
        ⟨.waiting, some t⟩) := by
  have created : u.awaits[w.awaits.size]? = some .create := by
    rw [registers.awaits]
    exact Array.getElem?_push_size
  refine ⟨rfl, fun s => ?_, ?_, fun n => ?_, fun s => ?_, registers.seat, registers.outcomes,
    registers.reactions, fun l y => ?_⟩
  · refine Eq.trans ?_ (registers.calm.state s)
    refine (taskState?_withTask u t k _ present s).trans ?_
    split
    · next here => rw [here, taskState?, present, Option.map_some]
    · rfl
  · show (u.awaits.setIfInBounds _ _).size = _
    rw [Array.size_setIfInBounds, registers.awaits]
    exact Array.size_push _
  · refine (getElem?_written u.awaits _ _ _ created n).trans ?_
    split
    · rfl
    · next other =>
      rw [registers.awaits]
      exact (getElem?_pushed w.awaits .create n).trans (if_neg other)
  · refine (awaited?_withTask u t k _ present s).trans ?_
    split
    · rfl
    · exact registers.awaited s
  · refine (registers.answers l y).trans (or_congr Iff.rfl (and_congr Iff.rfl ?_))
    simp only [Job.answer?_react_resume, Option.some.injEq]
    rfl

/-- A task that begins to wait looks once for the outcome, which is not there. -/
theorem exec_beginAwait_eq_ok (t : TaskId) (p : PromiseId) (ref : Guest.Ref) (w w' : World)
    (r : StepEnd) (done : exec (beginAwait t p ref) w = (.ok r, w')) :
    r = .wait true ∧ w.Begins ⟨t, p, w.awaits.size, ref⟩ w' ∧ w'.realms = w.realms := by
  obtain ⟨channel, v, opened, rest⟩ := exec_bind_eq_ok _ _ _ _ _ done
  obtain ⟨rfl, rfl⟩ : channel = w.awaits.size ∧ v = w.withNewAwait := by
    cases opened
    exact ⟨rfl, rfl⟩
  obtain ⟨_, u, registered, rest⟩ := exec_bind_eq_ok _ _ _ _ _ rest
  obtain ⟨_, x, marked, looked⟩ := exec_bind_eq_ok _ _ _ _ _ rest
  have registers := exec_register_eq_ok p _ _ u registered
  have only := (reacts_register p _ _ u registered).only
  obtain ⟨k, present, rfl⟩ := exec_setWait_eq_ok t _ u x marked
  rw [resumeWait_awaiting] at looked
  obtain ⟨receipt, y, looked, rest⟩ := exec_bind_eq_ok _ _ _ _ _ looked
  obtain ⟨c, there, rfl, rfl⟩ := exec_onAwait_eq_ok _ _ _ _ _ looked
  have created : u.awaits[w.awaits.size]? = some .create := by
    rw [registers.awaits]
    exact Array.getElem?_push_size
  obtain rfl : c = .create := Option.some.inj (there.symm.trans created)
  cases rest
  refine ⟨rfl, begins_of_registers registers present, ?_⟩
  show u.realms = w.realms
  rw [only]
  rfl

/-- To look up the promise of a reference changes nothing. -/
theorem exec_promiseOf_eq_ok (ref : Guest.Ref) (w w' : World) (p : PromiseId)
    (done : exec (promiseOf ref) w = (.ok (.ok p), w')) : w' = w := by
  obtain ⟨value, u, looked, rest⟩ := exec_bind_eq_ok _ _ _ _ _ done
  obtain ⟨_, v, asserted, found⟩ := exec_bind_eq_ok _ _ _ _ _ looked
  obtain ⟨x, y, fetched, got⟩ := exec_bind_eq_ok _ _ _ _ _ found
  obtain ⟨rfl, _⟩ := exec_assertOwner_eq_ok _ _ _ asserted
  obtain ⟨_, rfl⟩ := exec_fetch_eq_ok _ _ _ _ fetched
  cases got
  cases value : x.table.get ref.handle with
  | error e =>
    rw [value] at rest
    cases rest
  | ok v =>
    simp only [value, exec_bind, exec_get, goOn_ok] at rest
    cases promise : u.heap.promise? v with
    | some q =>
      rw [promise] at rest
      cases rest
      rfl
    | none =>
      rw [promise] at rest
      obtain ⟨_, _, _, rest⟩ := exec_bind_eq_ok _ _ _ _ _ rest
      cases rest

theorem exec_takePromise_eq_ok (ref : Guest.Ref) (w w' : World) (p : PromiseId)
    (done : exec (takePromise ref) w = (.ok (.ok p), w')) :
    w' = w ∧ exec (promiseOf ref) w = (.ok (.ok p), w) := by
  obtain ⟨result, u, found, rest⟩ := exec_bind_eq_ok _ _ _ _ _ done
  have found := exec_onHalt_eq_ok _ _ _ _ _ found
  cases result with
  | error e =>
    obtain ⟨_, _, _, rest⟩ := exec_bind_eq_ok _ _ _ _ _ rest
    cases rest
  | ok q =>
    cases rest
    obtain rfl := exec_promiseOf_eq_ok ref w w' p found
    exact ⟨rfl, found⟩

/-- The task is done waiting: what it holds is given back, and what it was told is logged. -/
theorem exec_endAwait_eq_ok (t : TaskId) (ref : Guest.Ref) (result : Except Fault Guest.Value)
    (w w' : World) (r : StepEnd) (done : exec (endAwait t ref result) w = (.ok r, w')) :
    r = .go ∧ ∃ k, w.tasks[t]? = some k ∧ Still (w.withTask t { k with wait := none }) w' := by
  obtain ⟨_, u, marked, rest⟩ := exec_bind_eq_ok _ _ _ _ _ done
  obtain ⟨k, present, rfl⟩ := exec_setWait_eq_ok t none w u marked
  have last : Keeps Still (releaseRef ref >>= fun _ => logAwaited t result) :=
    .bind (.release _ _) fun _ => .logAwaited t result
  obtain ⟨_, v, released, rest⟩ := exec_bind_eq_ok _ _ _ _ _ rest
  obtain ⟨_, x, logged, rest⟩ := exec_bind_eq_ok _ _ _ _ _ rest
  cases rest
  refine ⟨rfl, k, present, last _ _ () ?_⟩
  rw [exec_bind, released, goOn_ok, logged]

theorem keeps_awaitResult {R : World → World → Prop} [Lasting R] (r : RealmId) (outcome : Outcome) :
    Keeps R (awaitResult r outcome) := by
  cases outcome with
  | ok v => exact .adopt r v
  | error reason => exact .pure _

/-- A task that finds its outcome waits no longer. -/
theorem ends_of_found (a : Await) (outcome : Outcome) (result : Except Fault Guest.Value)
    (w u v w' : World) (r : StepEnd)
    (looked : exec (lookFor a.task a.channel) w = (.ok (.value outcome), u))
    (told : exec (awaitResult a.ref.realm outcome) u = (.ok result, v))
    (ended : exec (endAwait a.task a.ref result) v = (.ok r, w')) :
    (∃ c, w.awaits[a.channel]? = some c ∧ c.state = .sent outcome) ∧ w.Ends a w' := by
  obtain ⟨c, present, found, rfl⟩ := exec_onAwait_eq_ok _ _ _ _ _ looked
  obtain ⟨_, k, there, rest⟩ := exec_endAwait_eq_ok _ _ _ _ _ _ ended
  have first : Still _ v := keeps_awaitResult _ _ _ v result told
  have sent : c.state = .sent outcome ∧ (c.poll (some a.task)).2 = ⟨.taken, none⟩ := by
    rw [Channel.poll] at found ⊢
    cases state : c.state <;> simp_all
  rw [sent.2] at first
  refine ⟨⟨c, present, sent.1⟩, fun s other => .of_state ?_, ?_, fun n => ?_, fun s => ?_,
    fun q l seat => ?_, fun q => ?_, fun q => ?_, fun l => ?_⟩
  · rw [rest.calm.state, taskState?_withTask v _ k _ there, if_neg other]
    exact first.calm.state s
  · rw [rest.silent.awaits]
    show v.awaits.size = _
    rw [first.silent.awaits]
    exact Array.size_setIfInBounds
  · rw [rest.silent.awaits]
    show v.awaits[n]? = _
    rw [first.silent.awaits]
    exact awaits_withAwait w _ c _ present n
  · rw [rest.silent.awaited, awaited?_withTask v _ k _ there]
    split
    · rfl
    · exact first.silent.awaited s
  · exact rest.silent.seat (first.silent.seat seat)
  · exact (rest.silent.outcome q).trans (first.silent.outcome q)
  · exact (rest.silent.reactions q).trans (first.silent.reactions q)
  · exact (rest.silent.answers l).trans (first.silent.answers l)

/-- Where the outcome is not there, the task leaves word that it waits, and nothing else changes. -/
theorem exec_lookFor_pending (t : TaskId) (channel : Nat) (w w' : World)
    (looked : exec (lookFor t channel) w = (.ok .pending, w')) :
    ∃ c, w.awaits[channel]? = some c ∧ c.state = .waiting ∧
      w' = w.withAwait channel ⟨.waiting, some t⟩ := by
  obtain ⟨c, present, found, rfl⟩ := exec_onAwait_eq_ok _ _ _ _ _ looked
  obtain ⟨state, waiter⟩ := c
  cases state with
  | waiting => exact ⟨_, present, rfl, rfl⟩
  | sent | closed | taken | abandoned => cases found

theorem exec_lookFor_closed (t : TaskId) (channel : Nat) (w w' : World)
    (looked : exec (lookFor t channel) w = (.ok .closed, w')) :
    ∃ c, w.awaits[channel]? = some c ∧ c.state = .closed := by
  obtain ⟨c, present, found, rfl⟩ := exec_onAwait_eq_ok _ _ _ _ _ looked
  obtain ⟨state, waiter⟩ := c
  cases state with
  | closed => exact ⟨_, present, rfl⟩
  | sent | waiting | taken | abandoned => cases found

/-- An answer is sent to a task that waits, which is woken. Where none waits, nothing happens. -/
theorem exec_react_resume_eq_ok (channel : Nat) (outcome : Outcome) (w w' : World)
    (done : exec (react (.resume channel) outcome) w = (.ok (), w')) :
    ∃ c, w.awaits[channel]? = some c ∧
      ((c.state = .waiting ∧
        exec (wakeAny c.waiter) (w.withAwait channel ⟨.sent outcome, none⟩) = (.ok (), w')) ∨
      (c.state ≠ .waiting ∧ w' = w)) := by
  obtain ⟨waiter, u, sent, woken⟩ := exec_bind_eq_ok _ _ _ _ _ done
  obtain ⟨c, present, rfl, rfl⟩ := exec_onAwait_eq_ok _ _ _ _ _ sent
  refine ⟨c, present, ?_⟩
  obtain ⟨state, waiter⟩ := c
  cases state with
  | waiting => exact .inl ⟨rfl, woken⟩
  | sent | closed | taken | abandoned =>
    cases woken
    exact .inr ⟨by simp, w.withAwait_self channel _ present⟩

/-- A loop runs a job that answers a task. -/
theorem replies_of_turn (l : LoopId) (channel : Nat) (outcome : Outcome) (w v w' : World)
    (next : w.next? l = some (.react (.resume channel) outcome, v))
    (ran : exec (react (.resume channel) outcome) v = (.ok (), w')) :
    w.Replies channel outcome w' := by
  have calm : w.Calm v := .next next fun _ => rfl
  have answers := w.answers_next l _ v next
  have listed : w.answers l = (channel, outcome) :: v.answers l := by
    rw [answers, if_pos rfl]
    rfl
  obtain ⟨q, rfl⟩ := w.next?_withQueue l _ v next
  obtain ⟨c, present, change⟩ := exec_react_resume_eq_ok channel outcome _ w' ran
  have unchanged (d : Channel Outcome) (t : TaskId) :
      w.Onward t ((w.withQueue l fun _ => q).withAwait channel d) := .of_state rfl
  -- The channel is written, as it was if nobody waits, and who waits is woken.
  obtain ⟨d, silent, onward, sent, once⟩ : ∃ d,
      ((w.withQueue l fun _ => q).withAwait channel d).Silent w' ∧ (∀ t, w.Onward t w') ∧
      (∀ t, c = ⟨.waiting, some t⟩ → w.taskState? t ≠ some .completed →
        d = ⟨.sent outcome, none⟩ ∧ w'.IsDue t) ∧
      (c.state ≠ .waiting → d = c) := by
    rcases change with ⟨waiting, woken⟩ | ⟨other, rfl⟩
    · obtain ⟨silent, onward, due⟩ := exec_wakeAny_onward c.waiter _ w' woken
      refine ⟨_, silent, fun s => (unchanged _ s).trans (onward s), ?_,
        fun other => (other waiting).elim⟩
      rintro t rfl unfinished
      exact ⟨rfl, due t rfl unfinished⟩
    · refine ⟨c, ?_, fun t => .of_state rfl, ?_, fun _ => rfl⟩
      · rw [withAwait_self _ channel c present]
        exact .refl _
      · rintro t rfl
        exact (other rfl).elim
  have written (n : Nat) : w'.awaits[n]? = if n = channel then some d else w.awaits[n]? := by
    rw [silent.awaits]
    exact awaits_withAwait _ channel c d present n
  have left (m : LoopId) : w'.answers m = (w.withQueue l fun _ => q).answers m := silent.answers m
  refine ⟨onward, ?_, fun n other => ?_, fun t waits unfinished => ?_, fun former waiter held => ?_,
    silent.awaited, fun p m seat => silent.seat ?_, silent.outcome, silent.reactions, ⟨l, ?_⟩,
    fun m y among => ?_, fun m y other among => ?_⟩
  · rw [silent.awaits]
    exact Array.size_setIfInBounds
  · rw [written, if_neg other]
  · obtain ⟨rfl, due⟩ := sent t (Option.some.inj (present.symm.trans waits)) unfinished
    exact ⟨by rw [written, if_pos rfl], due⟩
  · obtain rfl : c = ⟨.sent former, waiter⟩ := Option.some.inj (present.symm.trans held)
    rw [written, if_pos rfl, once (by simp)]
  · obtain ⟨x, there, loop, inside⟩ := w.seat?_eq_some_iff.mp seat
    exact (seat?_eq_some_iff _).mpr ⟨x, there, loop, by
      simpa only [withAwait, size_withQueue] using inside⟩
  · rw [listed]
    exact .head _
  · rw [left] at among
    rw [answers]
    exact List.mem_append_right _ among
  · rw [left]
    rw [answers] at among
    refine (List.mem_append.mp among).resolve_left fun first => other ?_
    split at first
    · cases first with
      | head => rfl
      | tail _ none => cases none
    · cases first

end Act

end Membrane
