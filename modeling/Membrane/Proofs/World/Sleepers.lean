import Membrane.Proofs.World.Loop
import Membrane.Proofs.World.Promises
import Membrane.World.Job
/-!
Sleepers in a world, and the timers that are set for them. A poll sets the timer, or leaves behind who
polled last, or finds that the timer has fired; the timer wakes who polled last. Most of what happens
in a world leaves a sleeper and its timers alone.
-/

set_option autoImplicit false

namespace Membrane

/-- The sleeper that a job fires. -/
def Job.sleeper? : Job → Option Nat
  | .fireSleeper s => some s
  | _ => none

theorem Job.sleeper?_eq_some_iff (s : Nat) (job : Job) :
    job.sleeper? = some s ↔ job = .fireSleeper s := by
  cases job <;> simp [sleeper?]

theorem Job.ne_fireSleeper (job : Job) (awake : job.sleeper? = none) {s : Nat} :
    job ≠ .fireSleeper s := by
  rintro rfl
  cases awake

namespace EventLoop

/-- A timer that is not picked out does not count among those that are. -/
theorem filter_insertTimer_of_other {α : Type} (pick : Timer α → Bool) (t : Timer α)
    (other : pick t = false) (timers : List (Timer α)) :
    (insertTimer t timers).filter pick = timers.filter pick := by
  induction timers with
  | nil => simp [insertTimer, other]
  | cons u rest ih =>
    rw [insertTimer]
    split
    · exact List.filter_cons_of_neg (by simp [other])
    · rw [List.filter_cons, List.filter_cons, ih]

/-- The first timer that is picked out is the only one. -/
theorem filter_insertTimer_of_first {α : Type} (pick : Timer α → Bool) (t : Timer α)
    (picked : pick t = true) (timers : List (Timer α)) (none : timers.filter pick = []) :
    (insertTimer t timers).filter pick = [t] := by
  induction timers with
  | nil => simp [insertTimer, picked]
  | cons u rest ih =>
    have other : ¬pick u = true := (List.filter_eq_nil_iff.mp none) u List.mem_cons_self
    rw [List.filter_cons_of_neg other] at none
    rw [insertTimer]
    split
    · rw [List.filter_cons_of_pos picked, List.filter_cons_of_neg other, none]
    · rw [List.filter_cons_of_neg other, ih none]

end EventLoop

namespace World

def withSleeper (w : World) (s : Nat) (x : Sleeper) : World :=
  { w with sleepers := w.sleepers.setIfInBounds s x }

/-- A loop is asked at some time for a timer, after a delay in milliseconds. -/
def withTimeout (w : World) (l : LoopId) (now : Time) (delay : Number) (job : Job) : World :=
  { w with loops := w.loops.modify l fun c =>
    { c with queue := c.queue.setTimeout now delay job, asked := c.asked ++ [delay] } }

/-- The time by which the timers of a loop are due. -/
def now? (w : World) (l : LoopId) : Option Time :=
  (w.loops[l]?).map fun c => match c.clock with
    | .machine _ => w.time
    | .manual t => t

/-- The timers that are set for a sleeper on a loop. -/
def sleepTimers (w : World) (s : Nat) (l : LoopId) : List (Timer Job) :=
  ((w.loops[l]?).map fun c => c.queue.timers.filter (·.job.sleeper? == some s)).getD []

/-- A loop takes out one of its timers, whichever it likes. -/
def Takes (w : World) (l : LoopId) (t : Timer Job) (w' : World) : Prop :=
  ∃ c front back, w.loops[l]? = some c ∧ c.queue.timers = front ++ t :: back ∧
    w' = w.withQueue l fun q => { q with timers := front ++ back }

variable (w : World)

/-- A sleeper that is there is written. -/
theorem sleeper_withSleeper (s : Nat) (x y : Sleeper) (present : w.sleepers[s]? = some x) :
    (w.withSleeper s y).sleepers[s]? = some y := by
  rw [withSleeper, getElem?_written w.sleepers s x y present, if_pos rfl]

theorem withSleeper_self (s : Nat) (x : Sleeper) (present : w.sleepers[s]? = some x) :
    w.withSleeper s x = w := by
  rw [withSleeper, written_self w.sleepers s x present]

@[simp] theorem sleepTimers_withSleeper (s : Nat) (x : Sleeper) (n : Nat) (l : LoopId) :
    (w.withSleeper s x).sleepTimers n l = w.sleepTimers n l := rfl

/-- The first timer of a sleeper is its only one. -/
theorem sleepTimers_withTimeout (s : Nat) (l : LoopId) (c : LoopCell)
    (present : w.loops[l]? = some c) (now : Time) (delay : Number)
    (none : ∀ m, w.sleepTimers s m = []) (m : LoopId) :
    (w.withTimeout l now delay (.fireSleeper s)).sleepTimers s m =
      if m = l then [⟨now + EventLoop.delayTime delay, c.queue.submitted, .fireSleeper s⟩]
      else [] := by
  have before := none m
  simp only [sleepTimers, withTimeout, Array.getElem?_modify] at before ⊢
  by_cases here : l = m
  · subst here
    rw [present, Option.map_some, Option.getD_some] at before
    rw [if_pos rfl, if_pos rfl, present, Option.map_some, Option.map_some, Option.getD_some]
    exact EventLoop.filter_insertTimer_of_first _ _ (by simp [Job.sleeper?]) _ before
  · rw [if_neg here, if_neg (Ne.symm here), before]

/-- A timer that is taken out was there, and the others stay. -/
theorem sleepTimers_takes (s : Nat) (l : LoopId) (t : Timer Job) (w' : World)
    (takes : w.Takes l t w') (own : t.job.sleeper? = some s) :
    (∃ front back, w.sleepTimers s l = front ++ t :: back ∧ w'.sleepTimers s l = front ++ back) ∧
      ∀ m, m ≠ l → w'.sleepTimers s m = w.sleepTimers s m := by
  obtain ⟨c, front, back, present, timers, rfl⟩ := takes
  refine ⟨⟨front.filter (·.job.sleeper? == some s), back.filter (·.job.sleeper? == some s), ?_, ?_⟩,
    fun m other => ?_⟩
  · simp only [sleepTimers, present, Option.map_some, Option.getD_some, timers, List.filter_append,
      List.filter_cons, own, beq_self_eq_true, ↓reduceIte]
  · simp only [sleepTimers, loops_withQueue, ↓reduceIte, present, Option.map_some, Option.getD_some,
      List.filter_append]
  · simp only [sleepTimers, loops_withQueue, if_neg (Ne.symm other)]

theorem Takes.sleepers {w w' : World} {l : LoopId} {t : Timer Job} (takes : w.Takes l t w') :
    w'.sleepers = w.sleepers := by
  obtain ⟨c, front, back, _, _, rfl⟩ := takes
  rfl

/-- The first timer of a loop is taken out when it is due. -/
theorem takes_of_due (l : LoopId) (c : LoopCell) (present : w.loops[l]? = some c) (now : Time)
    (t : Timer Job) (q : EventLoop Job) (due : c.queue.due? now = some (t, q)) :
    w.Takes l t (w.withQueue l fun _ => q) := by
  rw [EventLoop.due?] at due
  cases timers : c.queue.timers with
  | nil => simp [timers] at due
  | cons first rest =>
    rw [timers] at due
    dsimp only at due
    split at due
    · cases due
      refine ⟨c, [], rest, present, timers, ?_⟩
      simp only [withQueue, modify_eq_written w.loops l c present, List.nil_append]
    · cases due

/-- No loop is to fire a sleeper without delay. -/
def Unqueued (w : World) (s : Nat) : Prop :=
  ∀ (l : LoopId) (c : LoopCell), w.loops[l]? = some c → Job.fireSleeper s ∉ c.queue.microtasks ++ c.queue.inbox

theorem Unqueued.modifyLoop {w : World} {s : Nat} {l : LoopId} {f : LoopCell → LoopCell}
    (jobs : ∀ c, w.loops[l]? = some c →
      Job.fireSleeper s ∈ (f c).queue.microtasks ++ (f c).queue.inbox →
        Job.fireSleeper s ∈ c.queue.microtasks ++ c.queue.inbox)
    (none : w.Unqueued s) : Unqueued { w with loops := w.loops.modify l f } s := by
  intro m d there fires
  simp only [Array.getElem?_modify] at there
  by_cases here : l = m
  · subst here
    rw [if_pos rfl] at there
    obtain ⟨c, present, rfl⟩ := Option.map_eq_some_iff.mp there
    exact none l c present (jobs c present fires)
  · rw [if_neg here] at there
    exact none m d there fires

theorem Unqueued.next {w v : World} {s : Nat} {l : LoopId} {job : Job} (none : w.Unqueued s)
    (next : w.next? l = some (job, v)) : job ≠ .fireSleeper s := by
  obtain ⟨c, rest, present, jobs, _⟩ := w.next?_eq_some l job v next
  rintro rfl
  exact none l c present (by rw [jobs]; exact List.mem_cons_self)

theorem Takes.unqueued {w v : World} {l : LoopId} {timer : Timer Job} (takes : w.Takes l timer v)
    {s : Nat} (none : w.Unqueued s) : v.Unqueued s := by
  obtain ⟨c, front, back, _, _, rfl⟩ := takes
  exact .modifyLoop (fun _ _ fires => fires) none

/-- What may happen without anything happening to a sleeper and to the timers that are set for it. -/
structure Apart (s : Nat) (w w' : World) : Prop where
  sleeper : ∀ x, w.sleepers[s]? = some x → w'.sleepers[s]? = some x
  timers : ∀ l, w'.sleepTimers s l = w.sleepTimers s l
  queued : w.Unqueued s → w'.Unqueued s

namespace Apart

variable {s : Nat}

theorem of_same {w w' : World} (sleepers : w'.sleepers = w.sleepers) (loops : w'.loops = w.loops) :
    Apart s w w' where
  sleeper x present := by rwa [sleepers]
  timers l := by rw [sleepTimers, loops, sleepTimers]
  queued none := by rwa [Unqueued, loops]

theorem refl (w : World) : Apart s w w := .of_same rfl rfl

theorem trans {u v w : World} (first : Apart s u v) (rest : Apart s v w) : Apart s u w where
  sleeper x present := rest.sleeper x (first.sleeper x present)
  timers l := (rest.timers l).trans (first.timers l)
  queued none := rest.queued (first.queued none)

/-- A loop changes. Its timers for the sleeper stay, and what it is to run without delay is new only
if it does not fire the sleeper. -/
theorem modifyLoop (w : World) (l : LoopId) (f : LoopCell → LoopCell)
    (timers : ∀ c, w.loops[l]? = some c →
      (f c).queue.timers.filter (·.job.sleeper? == some s) =
        c.queue.timers.filter (·.job.sleeper? == some s))
    (jobs : ∀ c, w.loops[l]? = some c →
      Job.fireSleeper s ∈ (f c).queue.microtasks ++ (f c).queue.inbox →
        Job.fireSleeper s ∈ c.queue.microtasks ++ c.queue.inbox) :
    Apart s w { w with loops := w.loops.modify l f } where
  sleeper _ present := present
  timers m := by
    simp only [sleepTimers, Array.getElem?_modify]
    by_cases here : l = m
    · subst here
      cases present : w.loops[l]? with
      | none => simp
      | some c => simpa using timers c present
    · rw [if_neg here]
  queued := .modifyLoop jobs

/-- The queue of a loop changes, but not the timers in it and the jobs that are to be run without
delay. -/
theorem withQueue_of_kept (w : World) (l : LoopId) (f : EventLoop Job → EventLoop Job)
    (same : ∀ q, (f q).timers = q.timers ∧ (f q).microtasks = q.microtasks ∧ (f q).inbox = q.inbox) :
    Apart s w (w.withQueue l f) :=
  modifyLoop w l _ (fun c _ => by rw [(same c.queue).1])
    fun c _ fires => by rwa [(same c.queue).2.1, (same c.queue).2.2] at fires

theorem post (w : World) (l : LoopId) (job : Job) (other : job ≠ .fireSleeper s) :
    Apart s w (w.post l job) := by
  refine modifyLoop w l _ (fun c _ => ?_) fun c _ fires => ?_
  · by_cases own : w.here = c.queue.owner <;> simp only [EventLoop.queueMicrotask, own, ↓reduceIte]
  · by_cases own : w.here = c.queue.owner <;>
      simpa [EventLoop.queueMicrotask, own, other.symm] using fires

theorem posts (w : World) (l : LoopId) (jobs : List Job)
    (other : ∀ job ∈ jobs, job ≠ .fireSleeper s) : Apart s w (w.posts l jobs) := by
  induction jobs generalizing w with
  | nil => exact .refl w
  | cons job jobs ih =>
    obtain ⟨first, rest⟩ := List.forall_mem_cons.mp other
    exact (post w l job first).trans (ih _ rest)

/-- A job is taken that is to be run without delay. -/
theorem next {w v : World} {l : LoopId} {job : Job} (next : w.next? l = some (job, v)) :
    Apart s w v := by
  obtain ⟨c, rest, present, jobs, rfl⟩ := w.next?_eq_some l job v next
  refine modifyLoop w l _ (fun d there => ?_) fun d there fires => ?_
  all_goals obtain rfl := Option.some.inj (present.symm.trans there)
  · rfl
  · rw [jobs]
    exact List.mem_cons_of_mem _ (by simpa using fires)

/-- A timer is set that is not for the sleeper. -/
theorem withTimeout (w : World) (l : LoopId) (now : Time) (delay : Number) (job : Job)
    (other : job ≠ .fireSleeper s) : Apart s w (w.withTimeout l now delay job) :=
  modifyLoop w l _
    (fun c _ => EventLoop.filter_insertTimer_of_other _ _
      (by simpa [Job.sleeper?_eq_some_iff] using other) c.queue.timers)
    fun _ _ fires => fires

/-- A timer is taken out that is not for the sleeper. -/
theorem takes {w v : World} {l : LoopId} {timer : Timer Job} (takes : w.Takes l timer v)
    (other : timer.job ≠ .fireSleeper s) : Apart s w v := by
  obtain ⟨c, front, back, present, timers, rfl⟩ := takes
  refine modifyLoop w l _ (fun d there => ?_) fun d there fires => fires
  obtain rfl := Option.some.inj (present.symm.trans there)
  have out : (timer.job.sleeper? == some s) = false := by
    simpa [← Job.sleeper?_eq_some_iff] using other
  simp only [timers, List.filter_append, List.filter_cons, out, Bool.false_eq_true, ↓reduceIte]

/-- Another sleeper is written anew. -/
theorem withSleeper (w : World) (n : Nat) (x : Sleeper) (other : n ≠ s) :
    Apart s w (w.withSleeper n x) where
  sleeper y present := by
    rwa [World.withSleeper, Array.getElem?_setIfInBounds, if_neg other]
  timers _ := rfl
  queued none := none

theorem newSleeper (w : World) (x : Sleeper) :
    Apart s w { w with sleepers := w.sleepers.push x } where
  sleeper y present := by
    have inside : s < w.sleepers.size := (Array.getElem?_eq_some_iff.mp present).1
    rw [getElem?_pushed, if_neg (Nat.ne_of_lt inside), present]
  timers _ := rfl
  queued none := none

theorem sweep (w : World) : Apart s w w.sweep := by
  unfold World.sweep
  split
  · exact .refl w
  · exact .of_same rfl rfl

theorem of_reacts {w w' : World} {p : PromiseId} (reacts : w.Reacts p w') : Apart s w w' := by
  obtain ⟨x, y, jobs, _, reactions, rfl⟩ := reacts
  have written : Apart s w (w.withPromise p y) := .of_same rfl rfl
  refine written.trans (posts _ x.loop jobs fun job among => ?_)
  obtain ⟨reaction, outcome, rfl⟩ := reactions job among
  simp

end Apart

end World

namespace Act

open World

variable (w : World)

/-! Setting timers -/

theorem exec_setTimeout (l : LoopId) (now : Time) (clock : w.now? l = some now) (delay : Number)
    (job : Job) : exec (setTimeout l delay job) w = (.ok (), w.withTimeout l now delay job) := by
  obtain ⟨c, present, same⟩ := Option.map_eq_some_iff.mp clock
  simp only [setTimeout, Act.now, exec_bind, exec_loop w l c present, goOn_ok]
  cases kind : c.clock <;>
  · rw [kind] at same
    subst same
    rfl

theorem exec_enqueueAfter (e : ExecutorId) (l : LoopId) (loop : w.executorLoop? e = some l)
    (now : Time) (clock : w.now? l = some now) (delay : Time) (job : Job) :
    exec (enqueueAfter e delay job) w =
      (.ok (), w.withTimeout l now (milliseconds delay) job) := by
  simp only [enqueueAfter, exec_bind, exec_loopOf w e l loop, goOn_ok, exec_setTimeout w l now clock]

theorem exec_enqueueAfter_eq_ok (e : ExecutorId) (delay : Time) (job : Job) (w' : World)
    (done : exec (enqueueAfter e delay job) w = (.ok (), w')) :
    ∃ l now, w.executorLoop? e = some l ∧ w.now? l = some now ∧
      w' = w.withTimeout l now (milliseconds delay) job := by
  obtain ⟨l, u, found, set⟩ := exec_bind_eq_ok _ _ _ _ _ done
  obtain ⟨loop, rfl⟩ := exec_loopOf_eq_ok w e l u found
  obtain ⟨_, _, read, _⟩ := exec_bind_eq_ok _ _ _ _ _ set
  obtain ⟨c, _, looked, _⟩ := exec_bind_eq_ok _ _ _ _ _ read
  have cell : u.loops[l]? = some c := (exec_fetch_eq_ok _ _ _ _ looked).1
  have clock : u.now? l = some (match c.clock with
      | .machine _ => u.time
      | .manual t => t) := by
    rw [now?, cell, Option.map_some]
  refine ⟨l, _, loop, clock, ?_⟩
  rw [exec_setTimeout u l _ clock] at set
  cases set
  rfl

/-! Polls -/

theorem exec_pollSleeper (s : Nat) (x : Sleeper) (present : w.sleepers[s]? = some x)
    (waiter : TaskId) :
    exec (pollSleeper s waiter) w = match x.state with
      | .fresh => goOn (exec (enqueueAfter x.executor x.delay (.fireSleeper s)) w) fun _ => do
          modify (·.withSleeper s { x with state := .waiting waiter })
          return false
      | .waiting _ => (.ok false, w.withSleeper s { x with state := .waiting waiter })
      | .fired => (.ok true, w) := by
  rw [pollSleeper, exec_bind, exec_fetch (fun w => w.sleepers[s]?) w x present, goOn_ok]
  obtain ⟨executor, delay, state⟩ := x
  cases state with
  | fresh => exact exec_bind _ _ w
  | waiting former => rfl
  | fired => exact congrArg (Except.ok true, ·) (w.withSleeper_self s _ present)

/-- The first poll sets the timer. -/
theorem exec_pollSleeper_of_fresh (s : Nat) (x : Sleeper) (present : w.sleepers[s]? = some x)
    (new : x.state = .fresh) (l : LoopId) (loop : w.executorLoop? x.executor = some l) (now : Time)
    (clock : w.now? l = some now) (waiter : TaskId) :
    exec (pollSleeper s waiter) w =
      (.ok false, (w.withTimeout l now (milliseconds x.delay) (.fireSleeper s)).withSleeper s
        { x with state := .waiting waiter }) := by
  rw [exec_pollSleeper w s x present, new]
  dsimp only
  rw [exec_enqueueAfter w x.executor l loop now clock, goOn_ok]
  rfl

/-- On an executor without a loop the first poll is refused and leaves everything as it was. -/
theorem exec_pollSleeper_of_idle (s : Nat) (x : Sleeper) (present : w.sleepers[s]? = some x)
    (new : x.state = .fresh) (k : Executor) (there : w.executors[x.executor]? = some k)
    (idle : k.loop = none) (waiter : TaskId) :
    exec (pollSleeper s waiter) w = (.error (.misuse (.notInstalled k.name)), w) := by
  rw [exec_pollSleeper w s x present, new]
  simp only [enqueueAfter, loopOf, executor, exec_bind,
    exec_fetch (fun w => w.executors[x.executor]?) w k there, goOn_ok, idle, exec_misuse, goOn_error]

/-- What a poll comes to that is answered. -/
theorem exec_pollSleeper_eq_ok (s : Nat) (waiter : TaskId) (ready : Bool) (w' : World)
    (done : exec (pollSleeper s waiter) w = (.ok ready, w')) :
    ∃ x, w.sleepers[s]? = some x ∧
      ((x.state = .fresh ∧ ready = false ∧ ∃ l now, w.executorLoop? x.executor = some l ∧
          w.now? l = some now ∧
          w' = (w.withTimeout l now (milliseconds x.delay) (.fireSleeper s)).withSleeper s
            { x with state := .waiting waiter }) ∨
        (∃ former, x.state = .waiting former ∧ ready = false ∧
          w' = w.withSleeper s { x with state := .waiting waiter }) ∨
        (x.state = .fired ∧ ready = true ∧ w' = w)) := by
  obtain ⟨x, present, _⟩ := exec_fetch_bind_eq_ok _ _ _ _ _ done
  refine ⟨x, present, ?_⟩
  rw [exec_pollSleeper _ s x present] at done
  cases state : x.state with
  | fresh =>
    rw [state] at done
    rcases set : exec (enqueueAfter x.executor x.delay (.fireSleeper s)) w with ⟨halt | _, u⟩
    · simp [set] at done
    · rw [set] at done
      cases done
      obtain ⟨l, now, loop, clock, rfl⟩ := exec_enqueueAfter_eq_ok w _ _ _ u set
      exact .inl ⟨rfl, rfl, l, now, loop, clock, rfl⟩
  | waiting former =>
    rw [state] at done
    cases done
    exact .inr (.inl ⟨former, rfl, rfl, rfl⟩)
  | fired =>
    rw [state] at done
    cases done
    exact .inr (.inr ⟨rfl, rfl, rfl⟩)

/-! The timer -/

/-- The timer marks its sleeper and wakes who polled last, if anybody did. -/
theorem exec_fireSleeper (s : Nat) (x : Sleeper) (present : w.sleepers[s]? = some x) :
    exec (fireSleeper s) w = exec (wakeAny x.fire.1) (w.withSleeper s x.fire.2) := by
  simp only [fireSleeper, exec_bind, exec_fetch (fun w => w.sleepers[s]?) w x present, goOn_ok]
  rfl

theorem exec_fireSleeper_of_waiting (s : Nat) (x : Sleeper) (present : w.sleepers[s]? = some x)
    (waiter : TaskId) (waits : x.state = .waiting waiter) :
    exec (fireSleeper s) w = exec (wake waiter) (w.withSleeper s { x with state := .fired }) := by
  rw [exec_fireSleeper w s x present, Sleeper.fire, waits]
  rfl

end Act

end Membrane
