import Membrane.Proofs.Tasks.Polls
import Membrane.Proofs.Tasks.Work
/-!
The jobs of a loop as courses of the tasks. Whatever a job does comes down to wakes and to what leaves
the tasks alone, so what holds of every course holds of every run of a loop.
-/

set_option autoImplicit false

namespace Membrane.TaskRun

open Act World

/-- One world follows another if there is a course from there. -/
def Follows (w w' : World) : Prop := ∃ events, Course w events w'

theorem Course.trans {u v w : World} {past later : List Event} (first : Course u past v)
    (rest : Course v later w) : Course u (past ++ later) w := by
  induction rest with
  | start => simpa using first
  | calm _ calm ih => exact .calm (ih first) calm
  | wake _ woken ih =>
    rw [← List.append_assoc]
    exact .wake (ih first) woken
  | spawn _ installed inside spawned ih =>
    rw [← List.append_assoc]
    exact .spawn (ih first) installed inside spawned
  | poll _ next present starts body answered ended ih =>
    have before := ih first
    have polled := Course.poll before next present starts body answered ended
    simpa only [List.append_assoc, List.cons_append] using polled
  | stale _ next present idle ih => exact .stale (ih first) next present idle

theorem Follows.of_calm {w w' : World} (calm : Calm w w') : Follows w w' :=
  ⟨[], .calm (.start w) calm⟩

instance : Lasting Follows where
  refl w := .of_calm (.refl w)
  trans first rest := by
    obtain ⟨past, before⟩ := first
    obtain ⟨later, after⟩ := rest
    exact ⟨past ++ later, before.trans after⟩
  aside same := .of_calm same.calm
  move _ _ := .of_calm (.of_same rfl rfl rfl)
  sweep w := .of_calm (.sweep w)

instance : Working Follows where
  realm _ _ _ := .of_calm (.of_same rfl rfl rfl)
  wake {w _ t} done := ⟨[.woken t], .wake (.start w) done⟩
  settle done := .of_calm (reacts_settle _ _ _ _ _ done).calm
  register _ done := .of_calm (reacts_register _ _ _ _ done).calm

instance : Heedless Follows where
  awaits _ _ := .of_calm (.of_same rfl rfl rfl)
  rewrite present state executor := .of_calm (.withTask _ _ _ _ present state executor)
  register done := .of_calm (reacts_register _ _ _ _ done).calm

/-- Steps are carried out until the task waits or is done. -/
theorem runSteps_ne_go (t : TaskId) (steps : List TaskStep) (w w' : World) (r : StepEnd)
    (done : exec (runSteps t steps) w = (.ok r, w')) : r ≠ .go := by
  induction steps generalizing w with
  | nil =>
    cases done
    simp
  | cons step rest ih =>
    obtain ⟨k, u, _, done⟩ := exec_bind_eq_ok _ _ _ _ _ done
    obtain ⟨_, u, _, done⟩ := exec_bind_eq_ok _ _ _ _ _ done
    obtain ⟨s, u, _, done⟩ := exec_bind_eq_ok _ _ _ _ _ done
    cases s with
    | go => exact ih u done
    | wait | finish =>
      cases done
      simp

theorem resumeTask_ne_go (t : TaskId) (w w' : World) (r : StepEnd)
    (done : exec (resumeTask t) w = (.ok r, w')) : r ≠ .go := by
  obtain ⟨k, u, _, done⟩ := exec_bind_eq_ok _ _ _ _ _ done
  split at done
  · exact runSteps_ne_go t _ u w' r done
  · obtain ⟨s, u, _, done⟩ := exec_bind_eq_ok _ _ _ _ _ done
    cases s with
    | go =>
      obtain ⟨_, u, _, done⟩ := exec_bind_eq_ok _ _ _ _ _ done
      exact runSteps_ne_go t _ u w' r done
    | wait | finish =>
      cases done
      simp

/-! Jobs -/

/-- What a poll is: either the task has nothing to go on with, or it goes on until it waits or is done,
and then a waker that is due is woken. -/
theorem pollTask_cases (t : TaskId) (w w' : World) (done : exec (pollTask t) w = (.ok (), w')) :
    ∃ k, w.tasks[t]? = some k ∧ ((k.state.start? = none ∧ w' = w) ∨
      ∃ state r x waiter y, k.state.start? = some state ∧
        exec (resumeTask t) (w.withTask t { k with state }) = (.ok r, x) ∧ r ≠ .go ∧
        exec (endPoll t r) x = (.ok waiter, y) ∧ exec (wakeAny waiter) y = (.ok (), w')) := by
  rw [pollTask_eq] at done
  obtain ⟨k, present, polled⟩ := exec_task_bind_eq_ok _ _ _ _ _ done
  refine ⟨k, present, ?_⟩
  cases starts : k.state.start? with
  | none =>
    rw [starts] at polled
    cases polled
    exact .inl ⟨rfl, rfl⟩
  | some state =>
    rw [starts] at polled
    obtain ⟨_, b, written, polled⟩ := exec_bind_eq_ok _ _ _ _ _ polled
    cases written
    obtain ⟨r, x, resumed, polled⟩ := exec_bind_eq_ok _ _ _ _ _ polled
    have resumed := exec_onHalt_eq_ok _ _ _ _ _ resumed
    obtain ⟨waiter, y, ended, woken⟩ := exec_bind_eq_ok _ _ _ _ _ polled
    exact .inr ⟨state, r, x, waiter, y, rfl, resumed, resumeTask_ne_go t _ x r resumed, ended, woken⟩

/-- A poll of a task, whose steps are a course of their own. -/
theorem follows_pollTask (l : LoopId) (t : TaskId) (w v w' : World)
    (next : w.next? l = some (.poll t, v)) (done : exec (pollTask t) v = (.ok (), w')) :
    Follows w w' := by
  obtain ⟨k, present, polled⟩ := pollTask_cases t v w' done
  obtain ⟨starts, rfl⟩ | ⟨state, r, x, waiter, y, starts, resumed, answered, ended, woken⟩ := polled
  · exact ⟨_, .stale (.start w) next present starts⟩
  · have inside : Follows _ x := keeps_resumeTask t _ x r resumed
    obtain ⟨inner, body⟩ := inside
    have whole : Follows w y := ⟨_, .poll (.start w) next present starts body answered ended⟩
    exact Lasting.trans whole (keeps_wakeAny waiter y w' () woken)

/-- A loop runs its next job. -/
theorem follows_turn (l : LoopId) (job : Job) (w v w' : World) (next : w.next? l = some (job, v))
    (done : exec (performJob job) v = (.ok (), w')) : Follows w w' := by
  by_cases poll : ∃ t, job = .poll t
  · obtain ⟨t, rfl⟩ := poll
    exact follows_pollTask l t w v w' next done
  · have other (t : TaskId) : job.polls t = false := by
      cases job <;> simp_all [Job.polls]
    exact Lasting.trans (.of_calm (.next next other)) (keeps_performJob job other v w' () done)

/-- A loop runs its microtasks. When it comes to the end of them, no poll is left. -/
theorem follows_drains (l : LoopId) (w w' : World) (jobs : List Job) (drains : Drains l w jobs w') :
    Follows w w' ∧ ∀ t, w'.queuedPolls l t = 0 := by
  induction drains with
  | @idle w c present none =>
    obtain ⟨noMicrotasks, noInbox⟩ := w.next?_eq_none l c present none
    refine ⟨Lasting.refl w, fun t => ?_⟩
    simp [queuedPolls, present, noMicrotasks, noInbox]
  | turn next ran _ ih =>
    exact ⟨Lasting.trans (follows_turn l _ _ _ _ next ran) ih.1, ih.2⟩

theorem start_sound (w : World) (noTasks : w.tasks = #[]) (noPolls : ∀ l t, w.queuedPolls l t = 0) :
    Sound [] w := by
  have unborn (t : TaskId) : w.taskState? t = none := by simp [taskState?, noTasks]
  exact
    { queued := by simp [unborn, noPolls]
      seated := by simp [unborn]
      agrees := fun t => by
        rw [unborn]
        rfl
      few := by simp [unborn, owed]
      free := by simp }

/-- The polls of tasks that are spawned, woken and run in whatever way. A poll of a task is queued
exactly while it is scheduled, and then one. A poll begins only when the former one has ended without
completing the task. A wake of a task that is not completed is followed by a poll, at the latest when
the microtasks of its loop are run, unless a poll that was going on completes it. There is at most one
poll more than there are wakes. -/
theorem polls_follow_wakes (w u : World) (events : List Event) (course : Course w events u)
    (noTasks : w.tasks = #[]) (noPolls : ∀ l t, w.queuedPolls l t = 0) :
    (∀ t x, u.tasks[t]? = some x → ∀ l, u.queuedPolls l t =
      if x.state = .scheduled ∧ u.executorLoop? x.executor = some l then 1 else 0) ∧
    (∀ past t later, events = past ++ .began t :: later → .ended t true ∉ past ∧
      ∀ former between, past = former ++ .began t :: between →
        ∃ completed, .ended t completed ∈ between) ∧
    (∀ past t later, events = past ++ .woken t :: later → .ended t true ∉ past →
      .began t ∈ later ∨ .ended t true ∈ later ∨
        ∃ l, u.taskLoop? t = some l ∧ u.queuedPolls l t = 1) ∧
    (∀ l n v, exec (checkpoint l) u = (.ok n, v) → ∃ more, Course w (events ++ more) v ∧
      ∀ past t later, events = past ++ .woken t :: later → .ended t true ∉ past →
        v.taskLoop? t = some l → .began t ∈ later ++ more ∨ .ended t true ∈ later ++ more) ∧
    ∀ t, events.count (.began t) ≤ 1 + events.count (.woken t) := by
  have first := start_sound w noTasks noPolls
  have idle (events : List Event) (u : World) (course : Course w events u) (t : TaskId) :
      (tally events t).polling = false := (course.sound [] first).2 t
  have sound := (course.sound [] first).1
  refine ⟨?_, ?_, ?_, ?_, ?_⟩
  · intro t x present l
    have loop : u.taskLoop? t = u.executorLoop? x.executor := by simp [taskLoop?, present]
    simp only [sound.queued, taskState?_of_present present, loop, Option.some.injEq]
  · rintro past t later rfl
    exact sound.began
  · rintro past t later rfl undone
    exact sound.woken (idle _ u course t) undone
  · intro l n v done
    obtain ⟨jobs, drains, _⟩ := drains_of_checkpoint u l n v done
    obtain ⟨⟨more, run⟩, empty⟩ := follows_drains l u v jobs drains
    have whole := course.trans run
    refine ⟨more, whole, ?_⟩
    rintro past t later rfl undone loop
    have after := (whole.sound [] first).1
    have still := idle _ v whole t
    simp only [List.nil_append, List.append_assoc, List.cons_append] at after still
    rcases after.woken still undone with begun | completed | ⟨m, seat, queued⟩
    · exact Or.inl begun
    · exact Or.inr completed
    · obtain rfl := Option.some.inj (loop.symm.trans seat)
      rw [empty] at queued
      cases queued
  · intro t
    have few := sound.few t
    simp only [List.nil_append] at few
    omega

/-- A task that wakes itself in the middle of its first poll is polled twice. -/
theorem polls_follow_wakes_of_itself :
    let w : World := { World.create .default with
      loops := #[⟨.empty 0, .manual 0, []⟩], executors := #[⟨"main", some 0, 0⟩] }
    let u := (exec (spawn 0 "task" [.yield 2]) w).2
    let v := (exec (wake 0) u).2
    (exec (checkpoint 0) v).1.toOption = some 2 ∧
      ∃ more x, Course w ([.spawned 0, .woken 0] ++ more) x ∧
        (.began 0 ∈ more ∨ .ended 0 true ∈ more) := by
  intro w u v
  have seat : (exec (checkpoint 0) v).2.taskLoop? 0 = some 0 := by decide +kernel +revert
  have two : (exec (checkpoint 0) v).1.toOption = some 2 := by
    clear seat
    decide +kernel +revert
  have made : exec (spawn 0 "task" [.yield 2]) w = (.ok 0, u) := rfl
  have installed : w.executorLoop? 0 = some 0 := rfl
  have spawned : Course w [.spawned 0] u := .spawn (.start w) installed (by decide) made
  have woken : exec (wake 0) u = (.ok (), v) := rfl
  have course : Course w [.spawned 0, .woken 0] v := .wake spawned woken
  have noPolls (l : LoopId) (t : TaskId) : w.queuedPolls l t = 0 := by
    cases l <;> rfl
  refine ⟨two, ?_⟩
  rcases ran : exec (checkpoint 0) v with ⟨halt | n, x⟩
  · simp [ran, Except.toOption] at two
  · rw [ran] at seat
    obtain ⟨more, whole, follows⟩ :=
      (polls_follow_wakes w v [.spawned 0, .woken 0] course rfl noPolls).2.2.2.1 0 n x ran
    exact ⟨more, x, whole, follows [.spawned 0] 0 [] rfl (by simp) seat⟩

end Membrane.TaskRun
