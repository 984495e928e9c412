import Membrane.Proofs.Calls.Keeps
import Membrane.Proofs.Tasks.Course
/-!
What leaves tasks alone. Tokens, receives, replies and the channels of results change, and a task has
other steps before it, but no task is woken and no poll is queued.
-/

set_option autoImplicit false

namespace Membrane

/-- A relation for which it does not count what a task waits with, as long as it waits for no
promise. -/
class World.Pausing (R : World → World → Prop) (t : TaskId) : Prop where
  pause {w : World} {k x : Task} (present : w.tasks[t]? = some k) (state : x.state = k.state)
    (executor : x.executor = k.executor) (free : x.wait.bind (Wait.await? t) = none) :
    R w (w.withTask t x)

/-- A relation for which it does not count what tasks wait for. -/
class World.Heedless (R : World → World → Prop) : Prop extends World.Steady R where
  awaits (w : World) (awaits : Array (Channel Outcome)) : R w { w with awaits }
  rewrite {w : World} {t : TaskId} {k x : Task} (present : w.tasks[t]? = some k)
    (state : x.state = k.state) (executor : x.executor = k.executor) : R w (w.withTask t x)
  register {w w' : World} {p : PromiseId} {reaction : Reaction}
    (done : Act.exec (Act.register p reaction) w = (.ok (), w')) : R w w'

instance {R : World → World → Prop} [World.Heedless R] (t : TaskId) : World.Pausing R t where
  pause present state executor _ := World.Heedless.rewrite present state executor

instance : World.Lasting World.Calm where
  refl := .refl
  trans := .trans
  aside same := same.calm
  move _ _ := .of_same rfl rfl rfl
  sweep := .sweep

instance : World.Heedless World.Calm where
  awaits _ _ := .of_same rfl rfl rfl
  rewrite present state executor := .withTask _ _ _ _ present state executor
  register done := (Act.reacts_register _ _ _ _ done).calm

instance : World.Lasting World.Still where
  refl := .refl
  trans := .trans
  aside same := same.toStill
  move _ _ := .of_same rfl rfl rfl rfl rfl
  sweep := .sweep

namespace Act

open World

/-- A task that is looked up and written is there. -/
theorem exec_task_bind_eq_ok {β : Type} (t : TaskId) (rest : Task → Act β) (w w' : World) (b : β)
    (done : exec (task t >>= rest) w = (.ok b, w')) :
    ∃ k, w.tasks[t]? = some k ∧ exec (rest k) w = (.ok b, w') :=
  exec_fetch_bind_eq_ok _ rest w w' b done

namespace Keeps

variable {α β : Type} {R : World → World → Prop} [Steady R]

/-! Tokens, receives and replies -/

theorem setToken (t : TokenId) (x : Token) : Keeps R (setToken t x) :=
  .modify _ fun _ => .of_same rfl rfl rfl rfl rfl rfl rfl rfl

theorem copyToken (t : TokenId) : Keeps R (copyToken t) :=
  .bind (.fetch _) fun _ => .setToken t _

theorem dropToken (t : TokenId) : Keeps R (dropToken t) := by
  refine .bind (.fetch _) fun x => .bind (.setToken t _) fun _ => ?_
  split
  · exact .scheduleFinalizer _ _
  · exact .pure ()

theorem fulfil (t : TokenId) : Keeps R (fulfil t) := by
  refine .bind (.fetch _) fun x => ?_
  split
  · exact .setToken t _
  · exact .throw _

theorem setReceive (id : ReceiveId) (x : Option Receive) : Keeps R (setReceive id x) :=
  .modify _ fun _ => .of_same rfl rfl rfl rfl rfl rfl rfl rfl

theorem onReply (id : ReplyId)
    (f : Channel (Except Fault Handle) → α × Channel (Except Fault Handle)) :
    Keeps R (onReply id f) :=
  .bind (.fetch _) fun _ =>
    .bind (.modify _ fun _ => .of_same rfl rfl rfl rfl rfl rfl rfl rfl) fun _ => .pure _

theorem newReceive (x : Receive) : Keeps R (newReceive x) :=
  .modifyGet _ fun _ => .of_same rfl rfl rfl rfl rfl rfl rfl rfl

theorem dropReceive (id : ReceiveId) : Keeps R (dropReceive id) := by
  refine .bind (.fetch _) fun x => ?_
  split
  · exact .pure ()
  · refine .bind (.setReceive id none) fun _ => ?_
    split
    · exact .dropRef _
    · exact .pure ()
  · exact .bind (.setReceive id none) fun _ => .bind (.onReply _ _) fun _ =>
      .onQueue _ _ fun _ => ⟨rfl, rfl, rfl, rfl⟩

/-! Tasks, but for their states -/

/-- A task is written anew with the state and the executor that it had. -/
theorem changeTask (t : TaskId) (f : Task → Task)
    (kept : ∀ {w k}, w.tasks[t]? = some k → R w (w.withTask t (f k))) (rest : Task → Act α)
    (after : ∀ k, Keeps R (rest k)) :
    Keeps R (task t >>= fun k => setTask t (f k) >>= fun _ => rest k) := by
  intro w w' a done
  obtain ⟨k, present, written⟩ := exec_task_bind_eq_ok _ _ _ _ _ done
  obtain ⟨_, u, set, last⟩ := exec_bind_eq_ok _ _ _ _ _ written
  cases set
  exact Steady.trans (kept present) (after k _ w' a last)

theorem onResult (t : TaskId) (f : Channel String → α × Channel String) : Keeps R (onResult t f) :=
  .changeTask t (fun k => { k with result := (f k.result).2 })
    (fun present => Steady.beside (.withTask _ t _ _ present rfl rfl rfl))
    (fun k => Pure.pure (f k.result).1) fun _ => .pure _

theorem dropJoin (t : TaskId) : Keeps R (dropJoin t) := .onResult t _

theorem dropStep (step : TaskStep) : Keeps R (dropStep step) := by
  cases step with
  | join t => exact .dropJoin t
  | await ref => exact .dropRef ref
  | receive t => exact .dropToken t
  | log | sleep | yield | pending | panic | finish => exact .pure ()

/-- What a task waits with is let go, if that is no promise. -/
theorem dropWait_of_free (t : TaskId) (wait : Wait) (free : wait.await? t = none) :
    Keeps R (dropWait wait) := by
  cases wait with
  | sleeping | yielded => exact .pure ()
  | joining t => exact .dropJoin t
  | awaiting => cases free
  | receiving token receive name => exact .bind (.dropReceive receive) fun _ => .dropToken token

/-- What is left of a task is let go, whatever it waits with. -/
theorem letGo (t : TaskId) (k : Task)
    (dropped : ∀ wait, k.wait = some wait → Keeps R (dropWait wait)) :
    Keeps R (do
      match k.wait with
      | some wait => Act.dropWait wait
      | none => Pure.pure ()
      k.steps.forM Act.dropStep
      Act.onResult t (·.closeSender)) := by
  have rest : Keeps R (k.steps.forM Act.dropStep >>= fun _ => Act.onResult t (·.closeSender)) :=
    .bind (.forM _ Keeps.dropStep _) fun _ => .onResult t _
  split
  · next wait waiting => exact .bind (dropped wait waiting) fun _ => rest
  · exact rest

section

variable {t : TaskId} [Pausing R t]

theorem setWait (wait : Option Wait) (free : wait.bind (Wait.await? t) = none) :
    Keeps R (setWait t wait) :=
  .changeTask t (fun k => { k with wait }) (Pausing.pause · rfl rfl free)
    (fun _ => Pure.pure ()) fun _ => .pure ()

theorem sendResult (result : String) : Keeps R (sendResult t result) :=
  .changeTask t (fun k => { k with wait := none, steps := [] }) (Pausing.pause · rfl rfl rfl) _
    fun _ => .bind (.forM _ Keeps.dropStep _) fun _ => .onResult t _

end

end Keeps

/-! What tasks wait for changes -/

namespace Keeps

variable {α : Type} {R : World → World → Prop} [Heedless R]

theorem onAwait (id : Nat) (f : Channel Outcome → α × Channel Outcome) : Keeps R (onAwait id f) := by
  intro w w' a done
  obtain ⟨_, _, rest⟩ := exec_fetch_bind_eq_ok _ _ _ _ _ done
  cases rest
  exact Heedless.awaits w _

theorem register (p : PromiseId) (reaction : Reaction) : Keeps R (register p reaction) :=
  fun _ _ _ done => Heedless.register done

theorem dropWait (wait : Wait) : Keeps R (dropWait wait) := by
  cases wait with
  | awaiting p channel ref => exact .bind (.onAwait channel _) fun _ => .dropRef ref
  | sleeping | yielded | joining | receiving => exact .dropWait_of_free 0 _ rfl

theorem abandonment (t : TaskId) : Keeps R (abandonment t) :=
  .changeTask t (fun k => { k with wait := none, steps := [] }) (Heedless.rewrite · rfl rfl) _
    fun k => .letGo t k fun _ _ => .dropWait _

end Keeps

/-- A task that completes is marked so in the end, and nothing else happens to tasks. -/
theorem exec_completion_eq_ok (t : TaskId) (result : String) (w w' : World)
    (waiter : Option TaskId) (done : exec (completion t result) w = (.ok waiter, w')) :
    ∃ u k, Calm w u ∧ u.tasks[t]? = some k ∧ w' = u.withTask t { k with state := .completed } := by
  obtain ⟨_, u, sent, marked⟩ := exec_bind_eq_ok _ _ _ _ _ done
  obtain ⟨k, present, written⟩ := exec_task_bind_eq_ok _ _ _ _ _ marked
  cases written
  exact ⟨u, k, Keeps.sendResult result w u _ sent, present, rfl⟩

/-- An executor submits where it is installed. -/
theorem exec_enqueue_eq_ok (e : ExecutorId) (job : Job) (w w' : World)
    (done : exec (enqueue e job) w = (.ok (), w')) :
    ∃ l, w.executorLoop? e = some l ∧ w' = w.post l job := by
  obtain ⟨l, u, found, posted⟩ := exec_bind_eq_ok _ _ _ _ _ done
  obtain ⟨installed, rfl⟩ := exec_loopOf_eq_ok w e l u found
  cases posted
  exact ⟨l, installed, rfl⟩

section

variable (w : World)

theorem exec_enqueue (e : ExecutorId) (l : LoopId) (loop : w.executorLoop? e = some l) (job : Job) :
    exec (enqueue e job) w = (.ok (), w.post l job) := by
  simp only [enqueue, exec_bind, exec_loopOf w e l loop, goOn_ok, exec_queueMicrotask]

/-- An executor submits where it is installed, or refuses to. -/
theorem exec_enqueue_eq (e : ExecutorId) (job : Job) :
    exec (enqueue e job) w = match w.executors[e]? with
      | none => (.error .missing, w)
      | some x => match x.loop with
        | none => (.error (.misuse (.notInstalled x.name)), w)
        | some l => (.ok (), w.post l job) := by
  simp only [enqueue, loopOf, executor, fetch, bind_assoc, exec_bind, exec_get, goOn_ok]
  cases w.executors[e]? with
  | none => rfl
  | some x =>
    obtain ⟨name, loop, next⟩ := x
    cases loop <;> rfl

theorem exec_task (t : TaskId) (k : Task) (present : w.tasks[t]? = some k) :
    exec (task t) w = (.ok k, w) :=
  exec_fetch (fun w => w.tasks[t]?) w k present

/-- A wake matters to a task that is idle or runs. -/
theorem exec_wake_eq (t : TaskId) :
    exec (wake t) w = match w.tasks[t]? with
      | none => (.error .missing, w)
      | some k => match k.state with
        | .idle => exec (enqueue k.executor (.poll t)) (w.withTask t { k with state := .scheduled })
        | .running => (.ok (), w.withTask t { k with state := .notified })
        | .scheduled | .notified | .completed => (.ok (), w) := by
  cases present : w.tasks[t]? with
  | none =>
    simp only [wake, task, fetch, bind_assoc, exec_bind, exec_get, goOn_ok, present]
    rfl
  | some k =>
    have same : w.withTask t k = w := by rw [withTask, written_self w.tasks t k present]
    simp only [wake, exec_bind, exec_task w t k present, goOn_ok]
    obtain ⟨executor, number, name, state, wait, steps, result⟩ := k
    cases state with
    | idle | running => rfl
    | scheduled | notified | completed => exact congrArg (Except.ok (), ·) same

theorem exec_wake_of_idle (t : TaskId) (k : Task) (present : w.tasks[t]? = some k)
    (idle : k.state = .idle) (l : LoopId) (loop : w.executorLoop? k.executor = some l) :
    exec (wake t) w =
      (.ok (), (w.withTask t { k with state := .scheduled }).post l (.poll t)) := by
  rw [exec_wake_eq, present]
  simp only [idle]
  exact exec_enqueue (w.withTask t { k with state := .scheduled }) k.executor l loop _

/-- A task that is there can be woken if its executor has a loop. -/
theorem exec_wake_ok (t : TaskId) (k : Task) (present : w.tasks[t]? = some k) (l : LoopId)
    (loop : w.executorLoop? k.executor = some l) : ∃ v, exec (wake t) w = (.ok (), v) := by
  cases state : k.state with
  | idle => exact ⟨_, exec_wake_of_idle w t k present state l loop⟩
  | scheduled | running | notified | completed =>
    rw [exec_wake_eq, present]
    simp only [state]
    exact ⟨_, rfl⟩

end

/-- A wake queues a poll of an idle task, and is remembered by one that is running. -/
theorem exec_wake_eq_ok (t : TaskId) (w w' : World) (done : exec (wake t) w = (.ok (), w')) :
    ∃ k, w.tasks[t]? = some k ∧
      ((k.state = .idle ∧ ∃ l, w.executorLoop? k.executor = some l ∧
          w' = (w.withTask t { k with state := .scheduled }).post l (.poll t)) ∨
        (k.state = .running ∧ w' = w.withTask t { k with state := .notified }) ∨
        (k.state ≠ .idle ∧ k.state ≠ .running ∧ w' = w)) := by
  rw [exec_wake_eq] at done
  cases present : w.tasks[t]? with
  | none =>
    rw [present] at done
    cases done
  | some k =>
    rw [present] at done
    refine ⟨k, rfl, ?_⟩
    cases state : k.state with
    | idle =>
      simp only [state] at done
      obtain ⟨l, installed, posted⟩ := exec_enqueue_eq_ok _ _ _ _ done
      exact Or.inl ⟨rfl, l, installed, posted⟩
    | running =>
      simp only [state] at done
      cases done
      exact Or.inr (Or.inl ⟨rfl, rfl⟩)
    | scheduled | notified | completed =>
      simp only [state] at done
      cases done
      exact Or.inr (Or.inr ⟨by simp, by simp, rfl⟩)

/-- A new task is scheduled, and its first poll is queued. -/
theorem exec_spawn_eq_ok (e : ExecutorId) (name : String) (steps : List TaskStep) (w w' : World)
    (t : TaskId) (done : exec (spawn e name steps) w = (.ok t, w')) :
    t = w.tasks.size ∧ ∃ k l executors, k.state = .scheduled ∧ k.wait = none ∧
      k.result = .create ∧ k.executor = e ∧ w.executorLoop? e = some l ∧
      (∀ d, (executors[d]?).bind (·.loop) = w.executorLoop? d) ∧
      w' = (w.withNewTask executors k).post l (.poll t) := by
  obtain ⟨x, present, rest⟩ := exec_fetch_bind_eq_ok _ _ _ _ _ done
  obtain ⟨_, v, counted, rest⟩ := exec_bind_eq_ok _ _ _ _ _ rest
  cases counted
  obtain ⟨_, v, pushed, rest⟩ := exec_bind_eq_ok _ _ _ _ _ rest
  cases pushed
  obtain ⟨_, v, queued, rest⟩ := exec_bind_eq_ok _ _ _ _ _ rest
  cases rest
  have loops (d : ExecutorId) :
      ((w.executors.setIfInBounds e { x with nextTask := x.nextTask + 1 })[d]?).bind (·.loop) =
        w.executorLoop? d := by
    rw [getElem?_written w.executors e x _ present, executorLoop?]
    split
    · next here => rw [here, present]; rfl
    · rfl
  obtain ⟨l, installed, posted⟩ :=
    exec_enqueue_eq_ok _ _ _ _ (exec_onHalt_eq_ok _ _ _ _ _ queued)
  exact ⟨rfl, _, l, _, rfl, rfl, rfl, rfl, (loops e).symm.trans installed, loops, posted⟩

/-- A poll ends with its task completed, or idle, or scheduled again if it was woken meanwhile. -/
theorem exec_endPoll_eq_ok (t : TaskId) (r : StepEnd) (answered : r ≠ .go) (w w' : World)
    (waiter : Option TaskId) (done : exec (endPoll t r) w = (.ok waiter, w')) :
    (r.isFinish = true ∧ ∃ u k, Calm w u ∧ u.tasks[t]? = some k ∧
        w' = u.withTask t { k with state := .completed }) ∨
      r.isFinish = false ∧ ∃ k, w.tasks[t]? = some k ∧
        ((k.state = .running ∧ Calm (w.withTask t { k with state := .idle }) w') ∨
          (k.state ≠ .running ∧ ∃ l, w.executorLoop? k.executor = some l ∧
            w' = (w.withTask t { k with state := .scheduled }).post l (.poll t))) := by
  cases r with
  | go => exact (answered rfl).elim
  | finish result =>
    obtain ⟨u, k, calm, present, marked⟩ := exec_completion_eq_ok t result w w' waiter done
    exact Or.inl ⟨rfl, u, k, calm, present, marked⟩
  | wait wakeable =>
    obtain ⟨k, present, rest⟩ := exec_task_bind_eq_ok _ _ _ _ _ done
    refine Or.inr ⟨rfl, k, present, ?_⟩
    obtain ⟨_, v, written, rest⟩ := exec_bind_eq_ok _ _ _ _ _ rest
    cases written
    cases state : k.state with
    | running =>
      rw [state] at rest
      refine Or.inl ⟨rfl, ?_⟩
      cases wakeable with
      | true =>
        cases rest
        exact .refl _
      | false => exact Keeps.abandonment t _ w' waiter rest
    | idle | scheduled | notified | completed =>
      rw [state] at rest
      obtain ⟨_, v, queued, rest⟩ := exec_bind_eq_ok _ _ _ _ _ rest
      cases rest
      obtain ⟨l, installed, posted⟩ := exec_enqueue_eq_ok _ _ _ _ queued
      exact Or.inr ⟨by simp, l, installed, posted⟩

end Act

end Membrane
