import Membrane.Proofs.Tasks.Scenes
/-!
What the handle of a task tells, and when a task is let go. A task is kept by the polls of it that are
queued or going on and by its wakers, and by nothing else. Its handle tells what became of it, and so
wakes who waits for it.
-/

set_option autoImplicit false

namespace Membrane.JoinRun

open Act World

theorem Run.trans {σ τ υ : Scene} {past later : List Event} (first : Run σ past τ)
    (rest : Run τ later υ) : Run σ (past ++ later) υ := by
  induction rest with
  | start => simpa using first
  | step _ step ih =>
    rw [← List.append_assoc]
    exact .step ih step

/-- A poll that a loop runs is a beginning, what the task does, and an end, if the task tells rightly
whether anything is left that can wake it. -/
theorem Run.of_pollTask {first σ τ : Scene} {past inner : List Event} {l : LoopId} {v w' : World}
    {a : Waker} {k : Task} {state : TaskState} {r : StepEnd} (run : Run first past σ)
    (next : σ.world.next? l = some (.poll a.task, v)) (present : v.tasks[a.task]? = some k)
    (starts : k.state.start? = some state) (fresh : a ∉ σ.clones)
    (body : Run ((σ.goTo (v.withTask a.task { k with state })).enter a) inner τ)
    (resumed : exec (resumeTask a.task) (v.withTask a.task { k with state }) = (.ok r, τ.world))
    (top : τ.polls = a :: σ.polls)
    (honest : ∀ wakeable, r = .wait wakeable →
      wakeable = decide (0 < (τ.leave a σ.polls).holds a.task))
    (done : exec (pollTask a.task) v = (.ok (), w')) :
    ∃ new υ, Run first (past ++ .began a.task :: inner ++ new) υ ∧ υ.world = w' := by
  have middle : Run first (past ++ [.began a.task] ++ inner) τ :=
    (run.step (.begin next present starts fresh)).trans body
  have order (new : List Event) : past ++ .began a.task :: inner ++ new =
      past ++ [.began a.task] ++ inner ++ new := by simp
  obtain ⟨k', there, polled⟩ := TaskRun.pollTask_cases a.task v w' done
  obtain rfl := Option.some.inj (present.symm.trans there)
  obtain ⟨idle, -⟩ | ⟨state', r', x, waiter, y, starts', went, answered, ended, woken⟩ := polled
  · rw [starts] at idle
    cases idle
  obtain rfl := Option.some.inj (starts.symm.trans starts')
  obtain ⟨same, rfl⟩ := Prod.mk.inj (resumed.symm.trans went)
  obtain rfl := Except.ok.inj same
  cases r with
  | go => exact absurd rfl answered
  | finish result =>
    have run := middle.step (.finish top ended woken)
    rw [← order] at run
    exact ⟨_, _, run, rfl⟩
  | wait wakeable =>
    rw [honest wakeable rfl] at ended
    have run := middle.step (.suspend top ended woken)
    rw [← order] at run
    exact ⟨_, _, run, rfl⟩

section

variable {past events : List Event} {σ : Scene}

/-- A task that waits is woken as soon as the other task is settled. -/
theorem Told.woken {w : World} {before after : List Event} {e : Event} {j b : TaskId}
    (told : Told (past ++ .asked j (some b) .pending :: before ++ e :: after) w)
    (consistent : Consistent (past ++ .asked j (some b) .pending :: before ++ e :: after))
    (once : Once (past ++ .asked j (some b) .pending :: before ++ e :: after))
    (alone : ∀ c r, .asked j (some c) r ∉ before) (settles : e.settles j = true)
    (kept : w.result? j ≠ some abandoned) : after.head? = some (.woken b) := by
  have unsettled : ¬Settled (past ++ .asked j (some b) .pending :: before) j :=
    once _ e after j rfl settles
  have none (f : Event) (there : f ∈ before) : f.settles j = false := by
    rw [Bool.eq_false_iff]
    exact fun now => unsettled ⟨f, by simp [there], now⟩
  have waits := channel_since consistent.former none alone
  exact (told _ e after j b rfl settles (by rw [waits]; rfl)).resolve_right kept

/-- A task is let go when no poll of it is queued or going on and nobody has a waker of it. -/
theorem Sound.dropped_iff (sound : Sound events σ) (t : TaskId) (spawned : .spawned t ∈ events) :
    .dropped t ∈ events ↔ (∀ result, .ended t (some result) ∉ events) ∧
      (∀ l, σ.world.queuedPolls l t = 0) ∧ (∀ a ∈ σ.polls, a.task ≠ t) ∧
        ∀ e ∈ σ.wakers, e.1.task ≠ t := by
  have present := (sound.polled.spawned t).mp spawned
  obtain ⟨l, loop, -⟩ := sound.polled.sound.seated t present
  have queued : (∀ l, σ.world.queuedPolls l t = 0) ↔ pollsDue σ.world t = 0 := by
    simp only [sound.polled.sound.queued, pollsDue]
    by_cases scheduled : σ.world.taskState? t = some .scheduled
    · refine iff_of_false (fun none => ?_) (by simp [scheduled])
      simpa [scheduled, loop] using none l
    · simp [scheduled]
  have clones : (∀ a ∈ σ.clones, a.task ≠ t) ↔
      (∀ a ∈ σ.polls, a.task ≠ t) ∧ ∀ e ∈ σ.wakers, e.1.task ≠ t := by
    simp [Scene.clones, or_imp, forall_and]
  have polls : (∀ a ∈ σ.polls, a.task ≠ t) ↔ σ.polls.countP (·.task = t) = 0 := by
    simp [List.countP_eq_zero]
  rw [sound.held.gone, queued, ← not_exists, ← sound.polled.completed_iff, Scene.IsLost,
    sound.held.right, Scene.due]
  have families := families_eq_zero_iff σ.clones t
  constructor
  · rintro ⟨-, none, undone⟩
    exact ⟨undone, by omega, clones.mp (families.mp (by omega))⟩
  · rintro ⟨undone, unqueued, free⟩
    have first := polls.mp free.1
    have last := families.mpr (clones.mpr free)
    exact ⟨present, by omega, undone⟩

/-- A task that is there can be woken. -/
theorem Sound.wake_ok (sound : Sound events σ) (t : TaskId) (spawned : .spawned t ∈ events) :
    ∃ v, exec (Act.wake t) σ.world = (.ok (), v) := by
  have present := (sound.polled.spawned t).mp spawned
  obtain ⟨l, loop, -⟩ := sound.polled.sound.seated t present
  obtain ⟨k, there, installed⟩ := Option.bind_eq_some_iff.mp loop
  exact exec_wake_ok σ.world t k there l installed

end

/-- What the handle of a task tells. The first answer that it gives is the result if a poll of the
task ended with it, and that there is none if the task was let go; before that it gives no answer.

A task is let go at once when no poll of it is queued or going on and no waker of it is left, unless
it is done. A task that waits for another one is woken as soon as that one is done or let go, if the
handle is kept and no other task asked by it in the meantime. -/
theorem handle_tells (w : World) (σ : Scene) (events : List Event) (run : Run (.start w) events σ)
    (noTasks : w.tasks = #[]) (noPolls : ∀ l t, w.queuedPolls l t = 0) :
    (∀ past later j asker r, events = past ++ .asked j asker r :: later →
      ((∀ result, .ended j (some result) ∉ past) → .dropped j ∉ past → r = .pending) ∧
      ((∀ other s, .asked j other s ∈ past → s = .pending) →
        (∀ result, r = .value result ↔ .ended j (some result) ∈ past) ∧
          (r = .closed ↔ .dropped j ∈ past) ∧ r ≠ .exhausted)) ∧
    (∀ t, .spawned t ∈ events →
      (.dropped t ∈ events ↔ (∀ result, .ended t (some result) ∉ events) ∧
        (∀ l, σ.world.queuedPolls l t = 0) ∧ (∀ a ∈ σ.polls, a.task ≠ t) ∧
          ∀ e ∈ σ.wakers, e.1.task ≠ t)) ∧
    (∀ past before after j b e,
      events = past ++ .asked j (some b) .pending :: before ++ e :: after →
        (∃ result, e = .ended j (some result)) ∨ e = .dropped j →
          (∀ c r, .asked j (some c) r ∉ before) → σ.world.result? j ≠ some abandoned →
            after.head? = some (.woken b)) ∧
    ∀ t, .spawned t ∈ events → ∃ v, exec (wake t) σ.world = (.ok (), v) := by
  obtain ⟨sound, told⟩ := run.keeps noTasks noPolls
  have consistent := sound.answered.consistent
  refine ⟨?_, sound.dropped_iff, ?_, sound.wake_ok⟩
  · rintro past later j asker r rfl
    have answer := first_answer consistent sound.answered.once
    refine ⟨fun unended undropped => answer.1 fun settled => ?_, answer.2⟩
    rcases (settled_iff past j).mp settled with ⟨result, ended⟩ | dropped
    · exact unended result ended
    · exact undropped dropped
  · rintro past before after j b e rfl settles alone kept
    refine told.woken consistent sound.answered.once alone ?_ kept
    obtain ⟨result, rfl⟩ | rfl := settles <;> simp [Event.settles]

/-- A loop with its queue, and the tasks that are polled on it. -/
def desk (jobs : List Job) (tasks : List Task) : World :=
  { World.create .default with
    loops := #[⟨{ EventLoop.empty 0 with microtasks := jobs }, .manual 0, []⟩]
    executors := #[⟨"main", some 0, tasks.length⟩]
    tasks := tasks.toArray }

def waitingTask (state : TaskState) : Task := ⟨0, 0, "waits", state, none, [], .create⟩

def otherTask (state : TaskState) (result : Channel String) : Task :=
  ⟨0, 1, "other", state, none, [], result⟩

/-- The channel of a task for which the first task waits. -/
def awaited : Channel String := ⟨.waiting, some 0⟩

/-- A task waits for another one, which is let go after its first poll as nobody keeps a waker. -/
theorem handle_tells_of_lost :
    let later : List Event := [.dropped 1, .woken 0, .asked 1 none .closed]
    ∃ σ, Run (.start (desk [] []))
        ([.spawned 0, .spawned 1, .began 0] ++
          .asked 1 (some 0) .pending :: [.ended 0 none, .began 1, .ended 1 none] ++ later) σ ∧
      (∀ l, σ.world.queuedPolls l 1 = 0) ∧ later.tail.head? = some (.woken 0) := by
  intro later
  have ends (b : Bool) (held : b = true) :
      exec (endPoll 0 (.wait b))
          (desk [.poll 1] [waitingTask .running, otherTask .scheduled awaited]) =
        (.ok none, desk [.poll 1] [waitingTask .idle, otherTask .scheduled awaited]) := by
    subst held
    rfl
  have goes (b : Bool) (unheld : b = false) :
      exec (endPoll 1 (.wait b)) (desk [] [waitingTask .idle, otherTask .running awaited]) =
        (.ok (some 0), desk [] [waitingTask .idle, otherTask .idle ⟨.closed, none⟩]) := by
    subst unheld
    rfl
  have one := Run.step (.start (.start (desk [] []))) <|
    .spawn (e := 0) (l := 0) (v := desk [.poll 0] [waitingTask .scheduled]) rfl (by decide)
      (show exec (spawn 0 "waits" []) (desk [] []) = _ from rfl)
  have two := one.step <|
    .spawn (e := 0) (l := 0)
      (v := desk [.poll 0, .poll 1] [waitingTask .scheduled, otherTask .scheduled .create]) rfl
      (by decide)
      (show exec (spawn 0 "other" []) (desk [.poll 0] [waitingTask .scheduled]) = _ from rfl)
  have three := two.step <| .begin (a := ⟨0, 0⟩) (k := waitingTask .scheduled) (l := 0)
    (v := desk [.poll 1] [waitingTask .scheduled, otherTask .scheduled .create]) rfl rfl rfl
    (by decide)
  have four := three.step <| .await (a := ⟨0, 0⟩) (j := 1)
    (v := desk [.poll 1] [waitingTask .running, otherTask .scheduled awaited]) (by decide)
    (by decide) rfl
  rw [if_pos rfl] at four
  have five := four.step <| .suspend (a := ⟨0, 0⟩)
    (x := desk [.poll 1] [waitingTask .idle, otherTask .scheduled awaited]) rfl
    (ends _ (by decide +kernel)) rfl
  have six := five.step <| .begin (a := ⟨1, 0⟩) (k := otherTask .scheduled awaited) (l := 0)
    (v := desk [] [waitingTask .idle, otherTask .scheduled awaited]) rfl rfl rfl (by decide)
  have seven := six.step <| .suspend (a := ⟨1, 0⟩)
    (x := desk [.poll 0] [waitingTask .scheduled, otherTask .idle ⟨.closed, none⟩]) rfl
    (goes _ (by decide +kernel)) rfl
  have eight := seven.step <| .ask (j := 1)
    (v := desk [.poll 0] [waitingTask .scheduled, otherTask .idle ⟨.taken, none⟩]) (by decide) rfl
  obtain ⟨events, same, run⟩ : ∃ events,
      events = [.spawned 0, .spawned 1, .began 0] ++
        .asked 1 (some 0) .pending :: [.ended 0 none, .began 1, .ended 1 none] ++ later ∧
          Run (.start (desk [] [])) events _ := ⟨_, by decide +kernel, eight⟩
  subst same
  have noPolls (l : LoopId) (t : TaskId) : (desk [] []).queuedPolls l t = 0 := by cases l <;> rfl
  obtain ⟨-, gone, woken, -⟩ := handle_tells _ _ _ run rfl noPolls
  refine ⟨_, run, ((gone 1 (by decide)).mp (by decide)).2.1,
    woken [.spawned 0, .spawned 1, .began 0] [.ended 0 none, .began 1, .ended 1 none] _ 1 0
      (.dropped 1) rfl (.inr rfl) (by simp) ?_⟩
  decide +kernel

end Membrane.JoinRun
