import Membrane.Proofs.Awaits.Actions
/-!
Courses of a sleeper. It is polled by whoever likes to, a loop takes out its timer and runs the job of
it, and in between anything happens that leaves the sleeper and its timers alone. A sleeper goes
through three phases: it is fresh, then one timer is set for it, then it has fired.
-/

set_option autoImplicit false

namespace Membrane

namespace World.Apart

variable (s : Nat) (w : World)

theorem of_enqueue (e : ExecutorId) (job : Job) (other : job ≠ .fireSleeper s) :
    Apart s w (Act.exec (Act.enqueue e job) w).2 := by
  rw [Act.exec_enqueue_eq]
  cases w.executors[e]? with
  | none => exact .refl w
  | some x =>
    cases installed : x.loop with
    | none =>
      simp only [installed]
      exact .refl w
    | some l =>
      simp only [installed]
      exact .post w l job other

/-- A wake leaves sleepers and their timers alone, also one that is refused. -/
theorem of_wake (t : TaskId) : Apart s w (Act.exec (Act.wake t) w).2 := by
  rw [Act.exec_wake_eq]
  cases w.tasks[t]? with
  | none => exact .refl w
  | some k =>
    have marked (x : Task) : Apart s w (w.withTask t x) := .of_same rfl rfl
    cases state : k.state with
    | idle =>
      simp only [state]
      exact (marked _).trans (of_enqueue s _ _ _ (by simp))
    | running =>
      simp only [state]
      exact marked _
    | scheduled | notified | completed =>
      simp only [state]
      exact .refl w

theorem of_wakeAny (waiter : Option TaskId) :
    Apart s w (Act.exec (Act.wakeAny waiter) w).2 := by
  cases waiter with
  | none => exact .refl w
  | some t => exact of_wake s w t

end World.Apart

namespace SleepRun

open Act World

/-- What happens to a sleeper, with the worlds before it and after it. -/
inductive Event where
  | polled (waiter : TaskId) (ready : Bool) (before after : World)
  /-- A loop has taken out a timer and runs the job of it. -/
  | fired (l : LoopId) (timer : Timer Job) (before : World) (answer : Except Halt Unit)
      (after : World)

def Event.poller? : Event → Option TaskId
  | .polled waiter .. => some waiter
  | .fired .. => none

def Event.isFiring : Event → Bool
  | .polled .. => false
  | .fired .. => true

/-- Who polled, one after the other. -/
def pollers (events : List Event) : List TaskId := events.filterMap Event.poller?

def hasFired (events : List Event) : Bool := events.any Event.isFiring

section

variable (t : TaskId) (ready : Bool) (l : LoopId) (timer : Timer Job) (answer : Except Halt Unit)
  (v v' : World) (events : List Event)

@[simp] theorem pollers_polled :
    pollers (.polled t ready v v' :: events) = t :: pollers events := rfl

@[simp] theorem pollers_fired : pollers (.fired l timer v answer v' :: events) = pollers events := rfl

@[simp] theorem hasFired_polled :
    hasFired (.polled t ready v v' :: events) = hasFired events := rfl

@[simp] theorem hasFired_fired : hasFired (.fired l timer v answer v' :: events) = true := rfl

end

/-- A sleeper is polled and its timer fires, in whatever order, and in between anything happens that
leaves it alone. -/
inductive Course (s : Nat) : World → List Event → World → Prop
  | start (w : World) : Course s w [] w
  | apart {w v u : World} {events : List Event} (apart : w.Apart s v)
      (rest : Course s v events u) : Course s w events u
  | poll {w v u : World} {events : List Event} {t : TaskId} {ready : Bool}
      (polled : exec (pollSleeper s t) w = (.ok ready, v)) (rest : Course s v events u) :
      Course s w (.polled t ready w v :: events) u
  | fire {w v v' u : World} {events : List Event} {l : LoopId} {timer : Timer Job}
      {answer : Except Halt Unit} (takes : w.Takes l timer v) (job : timer.job = .fireSleeper s)
      (ran : exec (fireSleeper s) v = (answer, v')) (rest : Course s v' events u) :
      Course s w (.fired l timer v answer v' :: events) u

theorem Course.trans {s : Nat} {u v w : World} {past later : List Event} (first : Course s u past v)
    (rest : Course s v later w) : Course s u (past ++ later) w := by
  induction first with
  | start => exact rest
  | apart apart _ ih => exact .apart apart (ih rest)
  | poll polled _ ih => exact .poll polled (ih rest)
  | fire takes job ran _ ih => exact .fire takes job ran (ih rest)

/-- A sleeper that was never polled has no timer, and none is fired but by its timer. -/
structure Sound (s : Nat) (w : World) : Prop where
  unset : (∀ x, w.sleepers[s]? = some x → x.state = .fresh) → ∀ l, w.sleepTimers s l = []
  unqueued : w.Unqueued s

namespace Sound

variable {s : Nat} {w v : World}

/-- Nothing waits on any loop. -/
theorem of_quiet (quiet : ∀ (l : LoopId) (c : LoopCell), w.loops[l]? = some c → c.queue.jobs = []) :
    Sound s w where
  unset _ l := by
    rw [sleepTimers]
    cases present : w.loops[l]? with
    | none => rfl
    | some c =>
      have none := quiet l c present
      simp only [EventLoop.jobs, List.append_eq_nil_iff, List.map_eq_nil_iff] at none
      simp [none]
  unqueued l c present := by
    have none := quiet l c present
    simp only [EventLoop.jobs, List.append_eq_nil_iff] at none
    simp [none]

theorem of_apart (sound : Sound s w) (apart : w.Apart s v) : Sound s v where
  unset new l := by
    rw [apart.timers, sound.unset fun x present => new x (apart.sleeper x present)]
  unqueued := apart.queued sound.unqueued

/-- A sleeper that was polled may have a timer. -/
theorem of_begun {x : Sleeper} (present : v.sleepers[s]? = some x) (begun : x.state ≠ .fresh)
    (unqueued : v.Unqueued s) : Sound s v where
  unset new := (begun (new x present)).elim
  unqueued := unqueued

theorem of_poll {t : TaskId} {ready : Bool} (sound : Sound s w)
    (polled : exec (pollSleeper s t) w = (.ok ready, v)) : Sound s v := by
  obtain ⟨x, present, ⟨_, _, l, now, _, _, rfl⟩ | ⟨_, _, _, rfl⟩ | ⟨fired, _, rfl⟩⟩ :=
    exec_pollSleeper_eq_ok w s t ready v polled
  · have set : (w.withTimeout l now (milliseconds x.delay) (.fireSleeper s)).Unqueued s :=
      .modifyLoop (fun _ _ fires => fires) sound.unqueued
    exact of_begun (sleeper_withSleeper _ s x _ present) nofun set
  · exact of_begun (w.sleeper_withSleeper s x _ present) nofun sound.unqueued
  · exact sound

theorem of_fire {u : World} {l : LoopId} {timer : Timer Job} {answer : Except Halt Unit}
    (sound : Sound s w) (takes : w.Takes l timer v) (job : timer.job = .fireSleeper s)
    (ran : exec (fireSleeper s) v = (answer, u)) : Sound s u := by
  obtain ⟨⟨_, _, before, _⟩, _⟩ :=
    w.sleepTimers_takes s l timer v takes ((Job.sleeper?_eq_some_iff s _).mpr job)
  cases present : w.sleepers[s]? with
  | none =>
    rw [sound.unset (fun x there => by rw [present] at there; cases there) l] at before
    simp at before
  | some x =>
    have there : v.sleepers[s]? = some x := by rw [takes.sleepers, present]
    have marked : x.fire.2.state = .fired := by
      unfold Sleeper.fire
      cases x.state <;> rfl
    rw [exec_fireSleeper v s x there] at ran
    have woken := Apart.of_wakeAny s (v.withSleeper s x.fire.2) x.fire.1
    rw [ran] at woken
    have written := v.sleeper_withSleeper s x x.fire.2 there
    exact (of_begun written (by simp [marked]) (takes.unqueued sound.unqueued)).of_apart woken

end Sound

theorem Course.sound {s : Nat} {w u : World} {events : List Event} (course : Course s w events u)
    (sound : Sound s w) : Sound s u := by
  induction course with
  | start => exact sound
  | apart apart _ ih => exact ih (sound.of_apart apart)
  | poll polled _ ih => exact ih (sound.of_poll polled)
  | fire takes job ran _ ih => exact ih (sound.of_fire takes job ran)

/-- What a sleeper goes through. -/
inductive Phase where
  | fresh
  /-- A timer is set on a loop, and somebody polled last. -/
  | waiting (l : LoopId) (timer : Timer Job) (waiter : TaskId)
  | fired

namespace Phase

def state : Phase → SleepState
  | fresh => .fresh
  | waiting _ _ waiter => .waiting waiter
  | fired => .fired

/-- The timers that are set on each loop. -/
def timers : Phase → LoopId → List (Timer Job)
  | waiting l timer _, m => if m = l then [timer] else []
  | fresh, _ | fired, _ => []

variable (s : Nat) (x : Sleeper)

/-- A sleeper is in a phase. -/
structure Holds (p : Phase) (w : World) : Prop where
  sleeper : w.sleepers[s]? = some { x with state := p.state }
  timers : ∀ l, w.sleepTimers s l = p.timers l

/-- What an event is to a sleeper in a phase, and the phase after it. -/
inductive Goes : Phase → Event → Phase → Prop
  | first {v : World} {l : LoopId} {now : Time} {c : LoopCell} {t : TaskId}
      (loop : v.executorLoop? x.executor = some l) (clock : v.now? l = some now)
      (present : v.loops[l]? = some c) :
      Goes fresh
        (.polled t false v ((v.withTimeout l now (milliseconds x.delay) (.fireSleeper s)).withSleeper
          s { x with state := .waiting t }))
        (waiting l ⟨now + EventLoop.delayTime (milliseconds x.delay), c.queue.submitted,
          .fireSleeper s⟩ t)
  | again {v : World} {l : LoopId} {timer : Timer Job} {former t : TaskId} :
      Goes (waiting l timer former)
        (.polled t false v (v.withSleeper s { x with state := .waiting t })) (waiting l timer t)
  | fire {v u : World} {l : LoopId} {timer : Timer Job} {t : TaskId} {answer : Except Halt Unit}
      (woken : exec (wake t) (v.withSleeper s { x with state := .fired }) = (answer, u)) :
      Goes (waiting l timer t) (.fired l timer v answer u) fired
  | ready {v : World} {t : TaskId} : Goes fired (.polled t true v v) fired

/-- What events are to a sleeper one after the other. -/
def Path : Phase → List Event → Phase → Prop
  | p, [], q => q = p
  | p, e :: events, q => ∃ m, Goes s x p e m ∧ Path m events q

variable {s : Nat} {x : Sleeper}

theorem path_append {p q : Phase} {past later : List Event} :
    Path s x p (past ++ later) q ↔ ∃ m, Path s x p past m ∧ Path s x m later q := by
  induction past generalizing p with
  | nil => simp [Path]
  | cons e past ih =>
    simp only [List.cons_append, Path, ih]
    grind

namespace Holds

variable {p : Phase} {w v : World}

theorem of_apart (holds : p.Holds s x w) (apart : w.Apart s v) : p.Holds s x v where
  sleeper := apart.sleeper _ holds.sleeper
  timers l := (apart.timers l).trans (holds.timers l)

/-- A poll leaves its poller behind, or finds that the timer has fired. -/
theorem of_poll {t : TaskId} {ready : Bool} (holds : p.Holds s x w)
    (polled : exec (pollSleeper s t) w = (.ok ready, v)) :
    ∃ q, Goes s x p (.polled t ready w v) q ∧ q.Holds s x v := by
  have written (u : World) (same : u.sleepers = w.sleepers) (y : Sleeper) :
      (u.withSleeper s y).sleepers[s]? = some y :=
    u.sleeper_withSleeper s _ y (by rw [same, holds.sleeper])
  obtain ⟨y, present, became⟩ := exec_pollSleeper_eq_ok w s t ready v polled
  obtain rfl := Option.some.inj (holds.sleeper.symm.trans present)
  rcases became with ⟨state, rfl, l, now, loop, clock, rfl⟩ | ⟨former, state, rfl, rfl⟩ |
    ⟨state, rfl, rfl⟩
  · cases p with
    | fresh =>
      obtain ⟨c, there, _⟩ := Option.map_eq_some_iff.mp clock
      refine ⟨_, .first loop clock there, written _ rfl _, fun m => ?_⟩
      exact w.sleepTimers_withTimeout s l c there now _ holds.timers m
    | waiting | fired => cases state
  · cases p with
    | waiting l timer => exact ⟨_, .again, written _ rfl _, holds.timers⟩
    | fresh | fired => cases state
  · cases p with
    | fired => exact ⟨_, .ready, holds⟩
    | fresh | waiting => cases state

/-- The timer of a sleeper that is taken out is the one that is set. Its job wakes who polled last. -/
theorem of_fire {u : World} {l : LoopId} {timer : Timer Job} {answer : Except Halt Unit}
    (holds : p.Holds s x w) (takes : w.Takes l timer v) (job : timer.job = .fireSleeper s)
    (ran : exec (fireSleeper s) v = (answer, u)) :
    ∃ q, Goes s x p (.fired l timer v answer u) q ∧ q.Holds s x u := by
  obtain ⟨⟨front, back, before, after⟩, others⟩ :=
    w.sleepTimers_takes s l timer v takes ((Job.sleeper?_eq_some_iff s _).mpr job)
  rw [holds.timers] at before
  cases p with
  | fresh | fired => simp [Phase.timers] at before
  | waiting m set t =>
    -- The timer that is set is the only one, so it is the one that is taken out.
    obtain ⟨rfl, rfl, rfl, rfl⟩ : l = m ∧ front = [] ∧ timer = set ∧ back = [] := by
      by_cases here : l = m
      · rw [Phase.timers, if_pos here] at before
        cases front <;> simp_all
      · simp [Phase.timers, here] at before
    have sleeper : v.sleepers[s]? = some { x with state := .waiting t } := by
      rw [takes.sleepers, holds.sleeper]
      rfl
    rw [exec_fireSleeper_of_waiting v s _ sleeper t rfl] at ran
    refine ⟨_, .fire ran, of_apart (w := v.withSleeper s { x with state := .fired }) ⟨?_, ?_⟩ ?_⟩
    · exact v.sleeper_withSleeper s _ _ sleeper
    · intro m
      rw [sleepTimers_withSleeper]
      by_cases here : m = l
      · rw [here, after]
        rfl
      · rw [others m here, holds.timers, Phase.timers, if_neg here]
        rfl
    · have apart := Apart.of_wake s (v.withSleeper s { x with state := .fired }) t
      rwa [ran] at apart

end Holds

end Phase

/-- A course of a sleeper takes it through its phases. -/
theorem Course.path {s : Nat} {x : Sleeper} {w u : World} {events : List Event} {p : Phase}
    (course : Course s w events u) (holds : p.Holds s x w) :
    ∃ q, Phase.Path s x p events q ∧ q.Holds s x u := by
  induction course generalizing p with
  | start => exact ⟨p, rfl, holds⟩
  | apart apart _ ih => exact ih (holds.of_apart apart)
  | poll polled _ ih =>
    obtain ⟨m, goes, next⟩ := holds.of_poll polled
    obtain ⟨q, path, last⟩ := ih next
    exact ⟨q, ⟨m, goes, path⟩, last⟩
  | fire takes job ran _ ih =>
    obtain ⟨m, goes, next⟩ := holds.of_fire takes job ran
    obtain ⟨q, path, last⟩ := ih next
    exact ⟨q, ⟨m, goes, path⟩, last⟩

namespace Phase

variable {s : Nat} {x : Sleeper} {q : Phase} {events : List Event}

/-- Once the timer has fired it does not fire again. -/
theorem path_of_fired (path : Path s x fired events q) : q = fired ∧ hasFired events = false := by
  induction events with
  | nil => exact ⟨path, rfl⟩
  | cons e events ih =>
    obtain ⟨m, goes, rest⟩ := path
    cases goes
    exact ih rest

/-- The timer that is set stays until it fires, and who polls takes the place of the former one. -/
theorem path_of_waiting {l : LoopId} {timer : Timer Job} {t : TaskId}
    (path : Path s x (waiting l timer t) events q) :
    q = if hasFired events then fired else waiting l timer ((pollers events).getLast?.getD t) := by
  induction events generalizing t with
  | nil => exact path
  | cons e events ih =>
    obtain ⟨m, goes, rest⟩ := path
    cases goes with
    | again =>
      rw [ih rest, hasFired_polled, pollers_polled, List.getLast?_cons, Option.getD_some]
    | fire woken => rw [(path_of_fired rest).1, hasFired_fired, if_pos rfl]

/-- The phases of a sleeper tell who polled last and whether the timer has fired. -/
theorem path_of_fresh (path : Path s x fresh events q) :
    (q = fresh ∧ events = []) ∨
      (∃ l timer t, q = waiting l timer t ∧ hasFired events = false ∧
        (pollers events).getLast? = some t) ∨
      (q = fired ∧ hasFired events = true ∧ pollers events ≠ []) := by
  cases events with
  | nil => exact .inl ⟨path, rfl⟩
  | cons e later =>
    obtain ⟨m, goes, rest⟩ := path
    cases goes
    have last := path_of_waiting rest
    rw [hasFired_polled, pollers_polled, List.getLast?_cons]
    cases has : hasFired later with
    | false =>
      rw [has] at last
      exact .inr (.inl ⟨_, _, _, last, rfl, rfl⟩)
    | true =>
      rw [has] at last
      exact .inr (.inr ⟨last, rfl, List.cons_ne_nil _ _⟩)

/-- A timer that fires is the one that was set. -/
theorem fired_of_waiting {l m : LoopId} {timer taken : Timer Job} {t : TaskId} {q : Phase}
    {events : List Event} {v v' : World} {answer : Except Halt Unit}
    (path : Path s x (waiting l timer t) events q)
    (among : .fired m taken v answer v' ∈ events) : m = l ∧ taken = timer := by
  obtain ⟨past, later, rfl⟩ := List.append_of_mem among
  obtain ⟨p, before, r, goes, _⟩ := path_append.mp path
  have waits := path_of_waiting before
  cases goes with
  | fire =>
    split at waits
    · cases waits
    · cases waits
      exact ⟨rfl, rfl⟩

/-- A poll is answered by whether the timer has fired, and only the first one sets a timer. -/
theorem polled_of_path {p q : Phase} {past : List Event} {t : TaskId} {ready : Bool} {v v' : World}
    (path : Path s x fresh past p) (goes : Goes s x p (.polled t ready v v') q) :
    ready = hasFired past ∧ (pollers past ≠ [] → v'.loops = v.loops) := by
  cases goes with
  | first =>
    obtain ⟨_, rfl⟩ | ⟨_, _, _, ⟨⟩, _⟩ | ⟨⟨⟩, _⟩ := path_of_fresh path
    exact ⟨rfl, fun some => (some rfl).elim⟩
  | again =>
    obtain ⟨⟨⟩, _⟩ | ⟨_, _, _, _, unfired, _⟩ | ⟨⟨⟩, _⟩ := path_of_fresh path
    exact ⟨unfired.symm, fun _ => rfl⟩
  | ready =>
    obtain ⟨⟨⟩, _⟩ | ⟨_, _, _, ⟨⟩, _⟩ | ⟨_, fired, _⟩ := path_of_fresh path
    exact ⟨fired.symm, fun _ => rfl⟩

/-- The timer fires once, and what its job does is to wake who polled last. -/
theorem fired_of_path {p q r : Phase} {past later : List Event} {l : LoopId} {timer : Timer Job}
    {v v' : World} {answer : Except Halt Unit} (path : Path s x fresh past p)
    (goes : Goes s x p (.fired l timer v answer v') q) (rest : Path s x q later r) :
    hasFired past = false ∧ hasFired later = false ∧ ∃ t, (pollers past).getLast? = some t ∧
      exec (wake t) (v.withSleeper s { x with state := .fired }) = (answer, v') := by
  cases goes with
  | fire woken =>
    obtain ⟨⟨⟩, _⟩ | ⟨_, _, _, same, unfired, last⟩ | ⟨⟨⟩, _⟩ := path_of_fresh path
    cases same
    exact ⟨unfired, (path_of_fired rest).2, _, last, woken⟩

/-- The first event is a poll that sets the timer. It is set until it has fired. -/
theorem first_of_path {q : Phase} {e : Event} {later : List Event} {u : World}
    (path : Path s x fresh (e :: later) q) (holds : q.Holds s x u) :
    ∃ t v l now c timer,
      e = .polled t false v ((v.withTimeout l now (milliseconds x.delay) (.fireSleeper s)).withSleeper
        s { x with state := .waiting t }) ∧
      v.executorLoop? x.executor = some l ∧ v.now? l = some now ∧ v.loops[l]? = some c ∧
      timer = ⟨now + EventLoop.delayTime (milliseconds x.delay), c.queue.submitted,
        .fireSleeper s⟩ ∧
      (∀ m, u.sleepTimers s m = if m = l ∧ hasFired later = false then [timer] else []) ∧
      ∀ m taken v' answer v'', .fired m taken v' answer v'' ∈ later → m = l ∧ taken = timer := by
  obtain ⟨m, goes, rest⟩ := path
  cases goes with
  | @first v l now c t loop clock present =>
    refine ⟨t, v, l, now, c, _, rfl, loop, clock, present, rfl, fun m => ?_,
      fun _ _ _ _ _ among => fired_of_waiting rest among⟩
    rw [holds.timers, path_of_waiting rest]
    cases has : hasFired later <;> simp [Phase.timers]

/-- A sleeper that was polled answers every poll, and so does one whose executor has a loop. -/
theorem answers_of_path {q : Phase} {events : List Event} {u : World}
    (path : Path s x fresh events q) (holds : q.Holds s x u) (t : TaskId)
    (begins : pollers events = [] →
      ∃ l, u.executorLoop? x.executor = some l ∧ l < u.loops.size) :
    ∃ v, exec (pollSleeper s t) u = (.ok (hasFired events), v) := by
  obtain ⟨rfl, rfl⟩ | ⟨l, timer, t', rfl, unfired, _⟩ | ⟨rfl, fired, _⟩ := path_of_fresh path
  · obtain ⟨l, loop, inside⟩ := begins rfl
    obtain ⟨now, clock⟩ : ∃ now, u.now? l = some now :=
      ⟨_, by rw [now?, Array.getElem?_eq_getElem inside, Option.map_some]⟩
    exact ⟨_, exec_pollSleeper_of_fresh u s _ holds.sleeper rfl l loop now clock t⟩
  · rw [exec_pollSleeper u s _ holds.sleeper, unfired]
    exact ⟨_, rfl⟩
  · rw [exec_pollSleeper u s _ holds.sleeper, fired]
    exact ⟨_, rfl⟩

/-- Where the executor has no loop, the first poll is refused and changes nothing. -/
theorem refuses_of_path {q : Phase} {events : List Event} {u : World}
    (path : Path s x fresh events q) (holds : q.Holds s x u) (t : TaskId)
    (begins : pollers events = []) (k : Executor) (there : u.executors[x.executor]? = some k)
    (idle : k.loop = none) :
    exec (pollSleeper s t) u = (.error (.misuse (.notInstalled k.name)), u) := by
  obtain ⟨rfl, rfl⟩ | ⟨_, _, _, _, _, last⟩ | ⟨_, _, some⟩ := path_of_fresh path
  · exact exec_pollSleeper_of_idle u s _ holds.sleeper rfl k there idle t
  · simp [begins] at last
  · exact (some begins).elim

end Phase

end SleepRun

end Membrane
