import Membrane.Proofs.Awaits.Course
/-!
The jobs of a loop as courses of the tasks that wait for promises. What a job does comes down to
wakes, to promises that are settled, and to what leaves tasks and promises alone; beside these a poll
looks for an outcome and may begin to wait for a promise.
-/

set_option autoImplicit false

namespace Membrane.AwaitRun

open Act World

/-- One world follows another if there is a course from there. -/
def Follows (w w' : World) : Prop := ∃ events, Course w events w'

namespace Follows

variable {u v w : World}

theorem refl (w : World) : Follows w w := ⟨[], .start w⟩

theorem trans (first : Follows u v) (rest : Follows v w) : Follows u w := by
  obtain ⟨past, before⟩ := first
  obtain ⟨later, after⟩ := rest
  exact ⟨past ++ later, before.trans after⟩

theorem of_still (still : Still v w) : Follows v w := ⟨[], .still (.start v) still⟩

end Follows

instance : Lasting Follows where
  refl := .refl
  trans := .trans
  aside same := .of_still same.toStill
  move _ _ := .of_still (.of_same rfl rfl rfl rfl rfl)
  sweep w := .of_still (.sweep w)

instance : Working Follows where
  realm _ _ _ := .of_still (.of_same rfl rfl rfl rfl rfl)
  wake {w _ _} done := ⟨[], .wake (.start w) done⟩
  settle {w w' p outcome answer} done := by
    rcases exec_settle_eq_ok p outcome w w' answer done with ⟨rfl, _⟩ | ⟨_, rfl⟩
    · exact ⟨_, .settle (.start w) done⟩
    · exact .refl w'
  register {w _ _ _} other done := ⟨[], .register (.start w) other done⟩

/-- A task that is polled and waits for no promise. -/
structure Active (t : TaskId) (w : World) : Prop where
  free : w.awaited? t = none
  polled : w.IsPolled t

/-- What a task does in a poll without waiting for a promise. -/
structure Acts (t : TaskId) (w w' : World) : Prop where
  follows : Active t w → Follows w w'
  active : Active t w → Active t w'

namespace Acts

variable {t : TaskId} {u v w : World}

theorem trans (first : Acts t u v) (rest : Acts t v w) : Acts t u w where
  follows active := (first.follows active).trans (rest.follows (first.active active))
  active active := rest.active (first.active active)

/-- A course that leaves the states of tasks and what they wait for. -/
theorem of_calm (follows : Follows v w) (calm : Calm v w)
    (awaited : ∀ t, w.awaited? t = v.awaited? t) : Acts t v w where
  follows _ := follows
  active active := ⟨(awaited t).trans active.free, by
    simpa only [IsPolled, calm.state] using active.polled⟩

theorem of_still (still : Still v w) : Acts t v w :=
  .of_calm (.of_still still) still.calm still.silent.awaited

/-- A task that is polled goes on being polled when it is woken. -/
theorem of_wake {s : TaskId} (done : exec (wake s) v = (.ok (), w)) : Acts t v w where
  follows _ := ⟨[], .wake (.start v) done⟩
  active active := by
    obtain ⟨silent, _, _⟩ := exec_wake_onward s v w done
    refine ⟨(silent.awaited t).trans active.free, ?_⟩
    have polled := active.polled
    obtain ⟨k, present, ⟨idle, l, _, rfl⟩ | ⟨_, rfl⟩ | ⟨_, _, rfl⟩⟩ := exec_wake_eq_ok s v w done
    · have after : ((v.withTask s { k with state := .scheduled }).post l (.poll s)).taskState? t =
          if t = s then some .scheduled else v.taskState? t :=
        taskState?_withTask v s k _ present t
      have other : t ≠ s := by
        rintro rfl
        simp [IsPolled, taskState?, present, idle] at polled
      rwa [IsPolled, after, if_neg other]
    · rw [IsPolled, taskState?_withTask v s k _ present]
      split
      · exact .inr rfl
      · exact polled
    · exact polled

end Acts

instance (t : TaskId) : Lasting (Acts t) where
  refl w := .of_still (.refl w)
  trans := .trans
  aside same := .of_still same.toStill
  move _ _ := .of_still (.of_same rfl rfl rfl rfl rfl)
  sweep w := .of_still (.sweep w)

instance (t : TaskId) : Working (Acts t) where
  realm _ _ _ := .of_still (.of_same rfl rfl rfl rfl rfl)
  wake := .of_wake
  settle {w w' p outcome answer} done := by
    have follows : Follows w w' := Working.settle done
    rcases exec_settle_eq_ok p outcome w w' answer done with ⟨_, settles⟩ | ⟨_, rfl⟩
    · exact .of_calm follows settles.calm settles.awaited
    · exact .of_still (.refl w')
  register other done := by
    have registers := exec_register_eq_ok _ _ _ _ done
    exact .of_calm (Working.register other done) registers.calm registers.awaited

instance (t : TaskId) : Pausing (Acts t) t where
  pause {w k x} present state executor free := by
    refine ⟨fun active => ?_, fun active => ?_⟩
    all_goals
      have still : Still w (w.withTask t x) := by
        refine .withTask w t k x present state executor ?_
        rw [free, ← awaited?_of_present w t k present, active.free]
    · exact .of_still still
    · exact (Acts.of_still still).active active

/-! Polls -/

/-- A task carries out steps until it waits or is done. In the end it is to be woken, or waits for no
promise. -/
theorem follows_runSteps (t : TaskId) (steps : List TaskStep) (w w' : World) (r : StepEnd)
    (active : Active t w) (done : exec (runSteps t steps) w = (.ok r, w')) :
    Follows w w' ∧ (r = .wait true ∨ w'.awaited? t = none) := by
  induction steps generalizing w with
  | nil =>
    cases done
    exact ⟨.refl _, .inr active.free⟩
  | cons step rest ih =>
    obtain ⟨k, present, marked⟩ := exec_task_bind_eq_ok _ _ _ _ _ done
    obtain ⟨_, v, written, carried⟩ := exec_bind_eq_ok _ _ _ _ _ marked
    cases written
    have noted : Acts t w (w.withTask t { k with steps := rest }) :=
      .of_still (.withTask w t k _ present rfl rfl rfl)
    obtain ⟨s, x, carried, last⟩ := exec_bind_eq_ok _ _ _ _ _ carried
    -- What follows a step after which the task is active.
    have onwards (acts : Acts t (w.withTask t { k with steps := rest }) x) :
        Follows w w' ∧ (r = .wait true ∨ w'.awaited? t = none) := by
      have before := noted.trans acts
      cases s with
      | go =>
        obtain ⟨after, waits⟩ := ih x (before.active active) last
        exact ⟨(before.follows active).trans after, waits⟩
      | wait | finish =>
        cases last
        exact ⟨before.follows active, .inr (before.active active).free⟩
    by_cases awaits : ∃ ref, step = .await ref
    · obtain ⟨ref, rfl⟩ := awaits
      rw [beginStep_await] at carried
      obtain ⟨result, y, taken, begun⟩ := exec_bind_eq_ok _ _ _ _ _ carried
      have took : Acts t _ y := Keeps.takePromise ref _ y result taken
      cases result with
      | error e =>
        have told : Keeps (Acts t) (logAwaited t (.error e) >>= fun _ => pure StepEnd.go) :=
          .bind (.logAwaited t _) fun _ => .pure _
        exact onwards (took.trans (told y x s begun))
      | ok p =>
        obtain ⟨rfl, found⟩ := exec_takePromise_eq_ok ref _ y p taken
        have before := noted.active active
        obtain ⟨rfl, _, _⟩ := exec_beginAwait_eq_ok t p ref _ x s begun
        cases last
        refine ⟨?_, .inl rfl⟩
        exact (noted.follows active).trans
          ⟨_, .await (.start _) before.polled before.free found begun⟩
    · exact onwards (keeps_beginStep_of_free step (fun ref same => awaits ⟨ref, same⟩) _ x s carried)

/-- A task that has been told an outcome goes on with its poll. -/
theorem active_of_endAwait (t : TaskId) (ref : Guest.Ref) (result : Except Fault Guest.Value)
    (w w' : World) (r : StepEnd) (polled : w.IsPolled t)
    (done : exec (endAwait t ref result) w = (.ok r, w')) : r = .go ∧ Active t w' := by
  obtain ⟨rfl, k, present, still⟩ := exec_endAwait_eq_ok t ref result w w' r done
  refine ⟨rfl, ?_, ?_⟩
  · rw [still.silent.awaited, awaited?_withTask w t k _ present, if_pos rfl]
    rfl
  · rw [IsPolled, TaskRun.taskState?_of_present present] at polled
    rw [IsPolled, still.calm.state, taskState?_withTask w t k _ present, if_pos rfl]
    exact polled

/-- A poll looks for what its task waits for, and either it is not there, or the task goes on. -/
theorem looks_of_resumeWait (t : TaskId) (p : PromiseId) (channel : Nat) (ref : Guest.Ref)
    (w w' : World) (r : StepEnd) (polled : w.IsPolled t)
    (waits : w.awaited? t = some ⟨t, p, channel, ref⟩)
    (done : exec (resumeWait t (.awaiting p channel ref)) w = (.ok r, w')) :
    ∃ seen, Looks t w seen w' ∧ (r = .wait true ∨ r = .go ∧ Active t w') := by
  rw [resumeWait_awaiting] at done
  obtain ⟨receipt, u, looked, rest⟩ := exec_bind_eq_ok _ _ _ _ _ done
  have during : u.IsPolled t := by
    obtain ⟨c, _, _, rfl⟩ := exec_onAwait_eq_ok _ _ _ _ _ looked
    exact polled
  cases receipt with
  | pending =>
    cases rest
    exact ⟨_, .pending waits looked, .inl rfl⟩
  | value outcome =>
    obtain ⟨result, v, told, ended⟩ := exec_bind_eq_ok _ _ _ _ _ rest
    have same : Still u v := keeps_awaitResult _ outcome u v result told
    have goes := active_of_endAwait t ref result v w' r
      (by simpa only [IsPolled, same.calm.state] using during) ended
    exact ⟨_, .found waits looked told ended, .inr goes⟩
  | closed =>
    obtain ⟨e, v, made, ended⟩ := exec_bind_eq_ok _ _ _ _ _ rest
    have same : Still u v := Keeps.onHeap _ u v e made
    have goes := active_of_endAwait t ref _ v w' r
      (by simpa only [IsPolled, same.calm.state] using during) ended
    exact ⟨_, .lost waits looked rest, .inr goes⟩
  | exhausted => cases rest

/-- A poll goes on where its task was left. -/
theorem course_of_resumeTask (t : TaskId) (w w' : World) (r : StepEnd) (polled : w.IsPolled t)
    (done : exec (resumeTask t) w = (.ok r, w')) :
    ∃ seen x, Looks t w seen x ∧ Follows x w' ∧ (r = .wait true ∨ w'.awaited? t = none) := by
  obtain ⟨k, present, resumed⟩ := exec_task_bind_eq_ok _ _ _ _ _ done
  have waiting := w.awaited?_of_present t k present
  cases held : k.wait with
  | none =>
    rw [held] at resumed waiting
    exact ⟨[], w, .free waiting, follows_runSteps t k.steps w w' r ⟨waiting, polled⟩ resumed⟩
  | some wait =>
    rw [held] at resumed waiting
    obtain ⟨s, x, waited, rest⟩ := exec_bind_eq_ok _ _ _ _ _ resumed
    -- What comes after the task waits no longer.
    have onwards (active : Active t x) (go : s = .go) :
        Follows x w' ∧ (r = .wait true ∨ w'.awaited? t = none) := by
      subst go
      obtain ⟨k', _, carried⟩ := exec_task_bind_eq_ok _ _ _ _ _ rest
      exact follows_runSteps t k'.steps x w' r active carried
    cases free : wait.await? t with
    | none =>
      have active : Active t w := ⟨waiting.trans free, polled⟩
      have acts : Acts t w x := keeps_resumeWait_of_free wait free w x s waited
      refine ⟨[], w, .free active.free, ?_⟩
      cases s with
      | go =>
        obtain ⟨follows, waits⟩ := onwards (acts.active active) rfl
        exact ⟨(acts.follows active).trans follows, waits⟩
      | wait | finish =>
        cases rest
        exact ⟨acts.follows active, .inr (acts.active active).free⟩
    | some a =>
      cases wait with
      | awaiting p channel ref =>
        obtain ⟨seen, looks, rfl | ⟨go, active⟩⟩ :=
          looks_of_resumeWait t p channel ref w x s polled waiting waited
        · cases rest
          exact ⟨seen, _, looks, .refl _, .inl rfl⟩
        · exact ⟨seen, x, looks, onwards active go⟩
      | sleeping | yielded | joining | receiving => cases free

/-! Jobs -/

/-- A poll of a task, whose steps are a course of their own. -/
theorem follows_pollTask (l : LoopId) (t : TaskId) (w v w' : World)
    (next : w.next? l = some (.poll t, v)) (done : exec (pollTask t) v = (.ok (), w')) :
    Follows w w' := by
  obtain ⟨k, present, polled⟩ := TaskRun.pollTask_cases t v w' done
  obtain ⟨starts, rfl⟩ | ⟨state, r, y, waiter, z, starts, resumed, answered, ended, woken⟩ := polled
  · exact ⟨_, .stale (.start w) next present starts⟩
  · have during : (v.withTask t { k with state }).IsPolled t := by
      rw [IsPolled, taskState?_withTask v t k _ present, if_pos rfl]
      cases state' : k.state <;> simp_all [TaskState.start?]
    obtain ⟨seen, x, looks, ⟨inner, body⟩, waits⟩ := course_of_resumeTask t _ y r during resumed
    have whole : Follows w z :=
      ⟨_, .poll (.start w) next present starts looks body answered waits ended⟩
    exact whole.trans (keeps_wakeAny waiter z w' () woken)

/-- A loop runs its next job. -/
theorem follows_turn (l : LoopId) (job : Job) (w v w' : World) (next : w.next? l = some (job, v))
    (done : exec (performJob job) v = (.ok (), w')) : Follows w w' := by
  rcases job.kinds with ⟨t, rfl⟩ | ⟨channel, outcome, rfl⟩ | plain
  · exact follows_pollTask l t w v w' next done
  · exact ⟨_, .answer (.start w) next done⟩
  · exact (Follows.of_still (.next next plain)).trans
      (keeps_performJob_of_plain job plain v w' () done)

/-- A loop runs its microtasks. When it comes to the end of them, no answer is left. -/
theorem follows_drains (l : LoopId) (w w' : World) (jobs : List Job) (drains : Drains l w jobs w') :
    Follows w w' ∧ w'.answers l = [] := by
  induction drains with
  | @idle w c present none =>
    obtain ⟨noMicrotasks, noInbox⟩ := w.next?_eq_none l c present none
    exact ⟨.refl w, by simp [answers, present, noMicrotasks, noInbox]⟩
  | turn next ran _ ih => exact ⟨(follows_turn l _ _ _ _ next ran).trans ih.1, ih.2⟩

/-- When a loop has run its microtasks, it has neither answers nor polls left. -/
theorem follows_checkpoint (l : LoopId) (n : Nat) (w w' : World)
    (done : exec (checkpoint l) w = (.ok n, w')) :
    Follows w w' ∧ w'.answers l = [] ∧ ∀ t, w'.queuedPolls l t = 0 := by
  obtain ⟨jobs, drains, _⟩ := drains_of_checkpoint w l n w' done
  obtain ⟨follows, noAnswer⟩ := follows_drains l w w' jobs drains
  exact ⟨follows, noAnswer, (TaskRun.follows_drains l w w' jobs drains).2⟩

end Membrane.AwaitRun
