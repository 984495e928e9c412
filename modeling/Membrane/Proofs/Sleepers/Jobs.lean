import Membrane.Proofs.Sleepers.Course
import Membrane.Proofs.Tasks.Work
/-!
What a loop runs as a course of each sleeper. A task may poll the sleeper and set its timer, or wait
with others; nobody but the loop that takes out the timer fires it.
-/

set_option autoImplicit false

namespace Membrane.SleepRun

open Act World

variable {s : Nat}

/-- A sound world is followed by another one if there is a course from there. -/
def Follows (s : Nat) (w w' : World) : Prop := Sound s w → ∃ events, Course s w events w'

namespace Follows

variable {u v w : World}

theorem of_apart (apart : w.Apart s v) : Follows s w v := fun _ => ⟨[], .apart apart (.start v)⟩

theorem trans (first : Follows s u v) (rest : Follows s v w) : Follows s u w := by
  intro sound
  obtain ⟨past, before⟩ := first sound
  obtain ⟨later, after⟩ := rest (before.sound sound)
  exact ⟨past ++ later, before.trans after⟩

/-- A poll of another sleeper sets no timer of this one. -/
theorem of_poll {n : Nat} {t : TaskId} {ready : Bool}
    (polled : exec (pollSleeper n t) w = (.ok ready, v)) : Follows s w v := by
  obtain rfl | other := eq_or_ne n s
  · exact fun _ => ⟨_, .poll polled (.start v)⟩
  obtain ⟨x, _, ⟨_, _, l, now, _, _, rfl⟩ | ⟨_, _, _, rfl⟩ | ⟨_, _, rfl⟩⟩ :=
    exec_pollSleeper_eq_ok w n t ready v polled
  · have set := Apart.withTimeout w l now (milliseconds x.delay) (.fireSleeper n) (s := s)
      (by simpa using other)
    exact of_apart (set.trans (.withSleeper _ n _ other))
  · exact of_apart (.withSleeper w n _ other)
  · exact of_apart (.refl _)

end Follows

instance : Steady (Follows s) where
  refl w := .of_apart (.refl w)
  trans := .trans
  beside same := .of_apart (same.apart s)
  move _ _ := .of_apart (.of_same rfl rfl)
  sweep w := .of_apart (.sweep w)
  poll := .of_poll

instance : Working (Follows s) where
  realm _ _ _ := .of_apart (.of_same rfl rfl)
  wake {w w' t} done := by
    have apart := Apart.of_wake s w t
    rw [done] at apart
    exact .of_apart apart
  settle done := .of_apart (.of_reacts (reacts_settle _ _ _ _ _ done))
  register _ done := .of_apart (.of_reacts (reacts_register _ _ _ _ done))

instance : Heedless (Follows s) where
  awaits _ _ := .of_apart (.of_same rfl rfl)
  rewrite _ _ _ := .of_apart (.of_same rfl rfl)
  register done := .of_apart (.of_reacts (reacts_register _ _ _ _ done))

instance : Taskless (Follows s) where
  task _ _ _ := .of_apart (.of_same rfl rfl)
  post w l t := .of_apart (.post w l (.poll t) nofun)

theorem follows_performJob (job : Job) (other : job ≠ .fireSleeper s) :
    Keeps (Follows s) (performJob job) := by
  cases fires : job.sleeper? with
  | none => exact keeps_performJob_of_awake job fires
  | some n =>
    obtain rfl := (job.sleeper?_eq_some_iff n).mp fires
    have apart : n ≠ s := by simpa using other
    exact keeps_fireSleeper n fun w x => .of_apart (.withSleeper w n x apart)

/-! Loops -/

/-- A loop runs its next job. -/
theorem follows_turn (l : LoopId) (job : Job) (w v w' : World) (next : w.next? l = some (job, v))
    (done : exec (performJob job) v = (.ok (), w')) : Follows s w w' := by
  intro sound
  have inside := follows_performJob job (sound.unqueued.next next) v w' () done
  exact (Follows.of_apart (.next next)).trans inside sound

/-- A loop runs microtasks, and it may be cut off. -/
theorem follows_drain (l : LoopId) (fuel : Nat) : Keeps (Follows s) ((restless l).drain fuel) := by
  induction fuel with
  | zero => exact .pure none
  | succ fuel ih =>
    intro w w' count done
    obtain ⟨c, _, ⟨_, _, rfl⟩ | ⟨job, v, u, others, next, ran, drained, _⟩⟩ :=
      exec_drain_eq_ok w l fuel count w' done
    · exact Steady.refl _
    · exact (follows_turn l job w v u next ran).trans (ih u w' others drained)

/-- A loop takes out its first timer if it is due, and runs the job of it. -/
theorem follows_fireDue (l : LoopId) : Keeps (Follows s) (restless l).fireDue := by
  refine .bind (.now l) fun now w w' fired done => ?_
  obtain ⟨q, u, looked, rest⟩ := exec_bind_eq_ok _ _ _ _ _ done
  obtain ⟨c, present, last⟩ := exec_fetch_bind_eq_ok _ _ _ _ _ looked
  cases last
  cases due : c.queue.due? now with
  | none =>
    rw [due] at rest
    cases rest
    exact Steady.refl _
  | some taken =>
    obtain ⟨timer, rest'⟩ := taken
    rw [due] at rest
    obtain ⟨_, x, written, rest⟩ := exec_bind_eq_ok _ _ _ _ _ rest
    cases written
    obtain ⟨_, y, ran, last⟩ := exec_bind_eq_ok _ _ _ _ _ rest
    cases last
    have takes := takes_of_due _ l c present now timer rest' due
    by_cases own : timer.job = .fireSleeper s
    · rw [own] at ran
      exact fun _ => ⟨_, .fire takes own ran (.start _)⟩
    · exact (Follows.of_apart (.takes takes own)).trans (follows_performJob _ own _ _ _ ran)

/-- A sleeper is polled by whoever likes to, and its timer fires in whatever moment. The first poll
sets a timer with the delay of the sleeper, on the loop of its executor, and nothing else sets one for
it. A poll is answered that the sleeper is ready if the timer has fired, and that it is not if it has
not. The timer fires at most once. Its job does nothing but to wake who polled last, which leaves that
task due for a poll unless it is completed. Whatever a loop runs is such a course. -/
theorem last_poller_is_woken (s : Nat) (x : Sleeper) (w u : World) (events : List Event)
    (course : Course s w events u) (sound : Sound s w) (present : w.sleepers[s]? = some x)
    (new : x.state = .fresh) :
    (events = [] → ∀ m, u.sleepTimers s m = []) ∧
    (∀ e later, events = e :: later → ∃ t v l now c timer,
      e = .polled t false v ((v.withTimeout l now (milliseconds x.delay) (.fireSleeper s)).withSleeper
        s { x with state := .waiting t }) ∧
      v.executorLoop? x.executor = some l ∧ v.now? l = some now ∧ v.loops[l]? = some c ∧
      timer = ⟨now + EventLoop.delayTime (milliseconds x.delay), c.queue.submitted,
        .fireSleeper s⟩ ∧
      (∀ m, u.sleepTimers s m = if m = l ∧ hasFired later = false then [timer] else []) ∧
      ∀ m taken v' answer v'', .fired m taken v' answer v'' ∈ later → m = l ∧ taken = timer) ∧
    (∀ past t ready v v' later, events = past ++ .polled t ready v v' :: later →
      ready = hasFired past ∧ (pollers past ≠ [] → v'.loops = v.loops)) ∧
    (∀ past l timer v answer v' later, events = past ++ .fired l timer v answer v' :: later →
      hasFired past = false ∧ hasFired later = false ∧ ∃ t, (pollers past).getLast? = some t ∧
        exec (wake t) (v.withSleeper s { x with state := .fired }) = (answer, v') ∧
        ((v.taskLoop? t).isSome → answer = .ok ()) ∧
        (answer = .ok () → v.taskState? t ≠ some .completed → v'.IsDue t)) ∧
    (∀ t, (pollers events = [] →
        ∃ l, u.executorLoop? x.executor = some l ∧ l < u.loops.size) →
      ∃ v, exec (pollSleeper s t) u = (.ok (hasFired events), v)) ∧
    (pollers events = [] → ∀ k, u.executors[x.executor]? = some k → k.loop = none → ∀ t,
      exec (pollSleeper s t) u = (.error (.misuse (.notInstalled k.name)), u)) ∧
    ∀ l park, (∀ due, Keeps (Follows s) (park due)) → ∀ untilShutdown jobs fuel ended v,
      exec ((seat l park).run untilShutdown jobs fuel) u = (.ok ended, v) →
        ∃ more, Course s w (events ++ more) v := by
  have start : Phase.fresh.Holds s x w := by
    refine ⟨?_, sound.unset fun y there => ?_⟩
    · rw [present, Phase.state, ← new]
    · obtain rfl := Option.some.inj (present.symm.trans there)
      exact new
  obtain ⟨q, path, holds⟩ := course.path start
  refine ⟨?_, ?_, ?_, ?_, fun t => Phase.answers_of_path path holds t,
    fun begins k there idle t => Phase.refuses_of_path path holds t begins k there idle, ?_⟩
  · rintro rfl
    obtain rfl := path
    exact holds.timers
  · rintro e later rfl
    exact Phase.first_of_path path holds
  · rintro past t ready v v' later rfl
    obtain ⟨p, before, r, goes, _⟩ := Phase.path_append.mp path
    exact Phase.polled_of_path before goes
  · rintro past l timer v answer v' later rfl
    obtain ⟨p, before, r, goes, after⟩ := Phase.path_append.mp path
    obtain ⟨unfired, once, t, last, woken⟩ := Phase.fired_of_path before goes after
    refine ⟨unfired, once, t, last, woken, fun seated => ?_, ?_⟩
    · obtain ⟨m, seat⟩ := Option.isSome_iff_exists.mp seated
      obtain ⟨k, there, loop⟩ := Option.bind_eq_some_iff.mp seat
      obtain ⟨u, did⟩ := exec_wake_ok (v.withSleeper s { x with state := .fired }) t k there m loop
      exact congrArg (·.1) (woken.symm.trans did)
    · rintro rfl
      exact (exec_wake_onward t _ v' woken).2.2
  · intro l park parked untilShutdown jobs fuel ended v ran
    have runs := keeps_run l park (follows_drain l) (follows_fireDue l) parked untilShutdown jobs fuel
      u v ended ran
    obtain ⟨more, rest⟩ := runs (course.sound sound)
    exact ⟨more, course.trans rest⟩

/-- A new sleeper is polled by one task and then by another one. -/
theorem last_poller_is_woken_of_two :
    let idle : Task := ⟨0, 0, "task", .idle, none, [], .create⟩
    let start : World := { World.create .default with
      loops := #[⟨.empty 0, .manual 0, []⟩], executors := #[⟨"main", some 0, 2⟩],
      tasks := #[idle, idle] }
    let w : World := { start with sleepers := start.sleepers.push (.create 0 1500000) }
    ∃ u₁ u₂ timer v u, exec (pollSleeper 0 0) w = (.ok false, u₁) ∧
      exec (pollSleeper 0 1) u₁ = (.ok false, u₂) ∧ u₂.Takes 0 timer v ∧ timer.due = 1000000 ∧
      exec (fireSleeper 0) v = (.ok (), u) ∧ u.IsDue 1 ∧
      ∃ x, exec (pollSleeper 0 1) u = (.ok true, x) := by
  intro idle start w
  have quiet (l : LoopId) (c : LoopCell) (there : start.loops[l]? = some c) : c.queue.jobs = [] := by
    cases l <;> cases there
    rfl
  have sound : Sound 0 w := (Sound.of_quiet quiet).of_apart (.newSleeper start _)
  let timer : Timer Job := ⟨0 + EventLoop.delayTime (milliseconds 1500000), 0, .fireSleeper 0⟩
  let u₁ := (w.withTimeout 0 0 (milliseconds 1500000) (.fireSleeper 0)).withSleeper 0
    ⟨0, 1500000, .waiting 0⟩
  let u₂ := u₁.withSleeper 0 ⟨0, 1500000, .waiting 1⟩
  let v := u₂.withQueue 0 fun q => { q with timers := [] }
  have first : exec (pollSleeper 0 0) w = (.ok false, u₁) :=
    exec_pollSleeper_of_fresh w 0 (.create 0 1500000) rfl rfl 0 rfl 0 rfl 0
  have second : exec (pollSleeper 0 1) u₁ = (.ok false, u₂) :=
    exec_pollSleeper u₁ 0 ⟨0, 1500000, .waiting 0⟩ rfl 1
  have takes : u₂.Takes 0 timer v := ⟨_, [], [], rfl, rfl, rfl⟩
  have due : timer.due = 1000000 := by decide +kernel
  rcases ran : exec (fireSleeper 0) v with ⟨answer, u⟩
  have course : Course 0 w
      [.polled 0 false w u₁, .polled 1 false u₁ u₂, .fired 0 timer v answer u] u :=
    .poll first (.poll second (.fire takes rfl ran (.start u)))
  obtain ⟨_, _, _, fires, answers, _⟩ := last_poller_is_woken 0 _ w u _ course sound rfl rfl
  obtain ⟨_, _, t, last, _, done, woken⟩ :=
    fires [.polled 0 false w u₁, .polled 1 false u₁ u₂] 0 timer v answer u [] rfl
  obtain rfl : 1 = t := Option.some.inj last
  obtain rfl := done rfl
  exact ⟨u₁, u₂, timer, v, u, first, second, takes, due, ran, woken rfl nofun, answers 1 nofun⟩

end Membrane.SleepRun
