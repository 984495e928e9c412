import Membrane.Proofs.Loop.Machine
/-!
A loop that waits for other threads. Each of them holds a guard, posts jobs and lets go of its guard.
When the loop comes back idle, all threads have let go and every job that was ever submitted has
been run once.
-/

set_option autoImplicit false

namespace Membrane

open scoped List

variable {α : Type}

namespace EventLoop

/-- A job that is submitted waits. -/
theorem jobs_queueMicrotask (l : EventLoop α) (caller : ThreadId) (job : α) :
    (l.queueMicrotask caller job).jobs ~ job :: l.jobs := by
  by_cases own : caller = l.owner
  · simp [queueMicrotask, own, jobs]
  · simp only [queueMicrotask, own, ↓reduceIte, jobs, List.append_assoc, List.singleton_append]
    rw [← List.append_assoc, ← List.append_assoc]
    exact List.perm_middle

theorem jobs_setTimeout (l : EventLoop α) (now : Time) (delay : Number) (job : α) :
    (l.setTimeout now delay job).jobs ~ job :: l.jobs := by
  have timers := (insertTimer_perm ⟨now + delayTime delay, l.submitted, job⟩ l.timers).map (·.job)
  apply (timers.append_left (l.microtasks ++ l.inbox)).trans
  exact List.perm_middle

@[simp] theorem jobs_drainInbox (l : EventLoop α) : l.drainInbox.jobs = l.jobs := by
  simp [drainInbox, jobs]

theorem jobs_next (l l' : EventLoop α) (job : α) (next : l.next? = some (job, l')) :
    l.jobs = job :: l'.jobs := by
  obtain ⟨rest, microtasks, rfl⟩ := (next?_eq_some_iff job l').mp next
  simp [jobs, microtasks]

theorem jobs_due (l l' : EventLoop α) (now : Time) (t : Timer α)
    (due : l.due? now = some (t, l')) : l.jobs ~ t.job :: l'.jobs := by
  obtain ⟨_, rest, timers, rfl⟩ := (due?_eq_some_iff now t l').mp due
  simp only [jobs, timers, List.map_cons]
  exact List.perm_middle

end EventLoop

namespace LoopRun

open Machine

namespace Event

/-- The job that is submitted. -/
def submitted? : Event α → Option (Item α)
  | queued n job => some (.microtask n job)
  | set _ _ t => some t.job
  | _ => none

def begun? : Event α → Option (Item α)
  | began item _ => some item
  | _ => none

def ended? : Event α → Option (Item α)
  | ended item => some item
  | _ => none

end Event

/-- All jobs that were ever submitted. -/
def submittedItems (start : EventLoop α) (past : List (Event α)) : List (Item α) :=
  (numbered start).jobs ++ past.filterMap Event.submitted?

def begunItems (past : List (Event α)) : List (Item α) := past.filterMap Event.begun?

def endedItems (past : List (Event α)) : List (Item α) := past.filterMap Event.ended?

section

variable (start : EventLoop α) (past : List (Event α)) (e : Event α)

@[simp] theorem submittedItems_concat :
    submittedItems start (past ++ [e]) = submittedItems start past ++ e.submitted?.toList := by
  cases taken : e.submitted? <;> simp [submittedItems, taken]

@[simp] theorem begunItems_concat :
    begunItems (past ++ [e]) = begunItems past ++ e.begun?.toList := by
  cases taken : e.begun? <;> simp [begunItems, taken]

@[simp] theorem endedItems_concat :
    endedItems (past ++ [e]) = endedItems past ++ e.ended?.toList := by
  cases taken : e.ended? <;> simp [endedItems, taken]

end

/-- The number of a job was given out. -/
def Item.GivenOut (queued timers : Nat) : Item α → Prop
  | microtask n _ => n < queued
  | timer n _ => n < timers

theorem Item.GivenOut.mono {item : Item α} {queued timers queued' timers' : Nat}
    (given : item.GivenOut queued timers) (more : queued ≤ queued') (later : timers ≤ timers') :
    item.GivenOut queued' timers' := by
  cases item <;> simp only [Item.GivenOut] at given ⊢ <;> omega

/-- What is so of a machine at any time of a run. -/
structure Conserved (start : EventLoop α) (running : List (Item α)) (m : Machine α) : Prop where
  /-- Every job that was submitted has been run, is running or waits. -/
  jobs : (endedItems m.events ++ (running ++ m.loop.jobs)).Perm (submittedItems start m.events)
  begun : begunItems m.events = endedItems m.events ++ running
  distinct : (submittedItems start m.events).Nodup
  given : ∀ item ∈ submittedItems start m.events, item.GivenOut m.queued m.loop.submitted
  /-- There is a guard for every thread that has not let go. -/
  held : m.others.countP Option.isSome ≤ m.loop.guards

variable {start : EventLoop α} {p : Programme α} {m : Machine α} {running : List (Item α)}

theorem map_number_mapIdx (jobs : List α) :
    (jobs.mapIdx Item.microtask).map Item.number = List.range jobs.length := by
  apply List.ext_getElem <;> simp [Item.number]

theorem numbered_jobs (start : EventLoop α) :
    (numbered start).jobs = (start.microtasks ++ start.inbox).mapIdx .microtask ++
      start.timers.map fun t => .timer t.seq t.job := by
  simp [numbered, EventLoop.jobs, List.mapIdx_append, Function.comp_def]

theorem numbered_distinct (ordered : start.Ordered) : (numbered start).jobs.Nodup := by
  rw [numbered_jobs]
  apply List.Nodup.append
  · apply List.Nodup.of_map Item.number
    rw [map_number_mapIdx]
    exact List.nodup_range
  · apply List.Nodup.of_map Item.number
    rw [List.map_map]
    exact ordered.distinct
  · intro item micro timer
    obtain ⟨i, bound, rfl⟩ := List.mem_mapIdx.mp micro
    simp at timer

theorem numbered_given (ordered : start.Ordered) (item : Item α)
    (member : item ∈ (numbered start).jobs) :
    item.GivenOut (start.microtasks.length + start.inbox.length) start.submitted := by
  rw [numbered_jobs, List.mem_append, List.mem_mapIdx, List.mem_map] at member
  rcases member with ⟨i, bound, rfl⟩ | ⟨t, set, rfl⟩
  · simpa [Item.GivenOut] using bound
  · exact ordered.numbered t set

theorem start_conserved (ordered : start.Ordered) (others : List (List (Order α)))
    (guards : others.length ≤ start.guards) : Conserved start [] (.start start others) where
  jobs := by simp [Machine.start, endedItems, submittedItems]
  begun := by simp [Machine.start, begunItems, endedItems]
  distinct := by simpa [Machine.start, submittedItems] using numbered_distinct ordered
  given := by simpa [Machine.start, submittedItems, numbered] using numbered_given ordered
  held := by simpa [Machine.start, numbered, List.countP_map, Function.comp_def] using guards

/-- A job is submitted. -/
theorem Conserved.submitted (conserved : Conserved start running m) (e : Event α) (item : Item α)
    (l : EventLoop (Item α)) (queued : Nat) (submits : e.submitted? = some item)
    (still : e.begun? = none ∧ e.ended? = none) (waits : l.jobs.Perm (item :: m.loop.jobs))
    (fresh : ¬item.GivenOut m.queued m.loop.submitted) (given : item.GivenOut queued l.submitted)
    (more : m.queued ≤ queued ∧ m.loop.submitted ≤ l.submitted)
    (guards : l.guards = m.loop.guards) :
    Conserved start running { m with loop := l, queued, events := m.events ++ [e] } := by
  have all : submittedItems start (m.events ++ [e]) = submittedItems start m.events ++ [item] := by
    simp [submits]
  have ended : endedItems (m.events ++ [e]) = endedItems m.events := by
    simp [still.2]
  refine
    { jobs := ?_
      begun := ?_
      distinct := ?_
      given := ?_
      held := ?_ }
  · rw [all, ended]
    calc endedItems m.events ++ (running ++ l.jobs)
      _ ~ endedItems m.events ++ (running ++ (item :: m.loop.jobs)) :=
          (waits.append_left running).append_left _
      _ ~ item :: (endedItems m.events ++ (running ++ m.loop.jobs)) := by
          rw [← List.append_assoc, ← List.append_assoc]
          exact List.perm_middle
      _ ~ item :: submittedItems start m.events := conserved.jobs.cons item
      _ ~ submittedItems start m.events ++ [item] := List.perm_append_singleton _ _ |>.symm
  · rw [ended, ← conserved.begun]
    simp [still.1]
  · rw [all]
    apply conserved.distinct.append (List.nodup_singleton item)
    intro other member same
    rw [List.mem_singleton.mp same] at member
    exact fresh (conserved.given item member)
  · rw [all]
    intro other member
    rcases List.mem_append.mp member with old | new
    · exact (conserved.given other old).mono more.1 more.2
    · rw [List.mem_singleton.mp new]
      exact given
  · rw [guards]
    exact conserved.held

theorem Conserved.queueMicrotask (conserved : Conserved start running m) (caller : ThreadId)
    (job : α) : Conserved start running (m.queueMicrotask caller job) := by
  apply conserved.submitted (.queued m.queued job) (.microtask m.queued job)
  · rfl
  · exact ⟨rfl, rfl⟩
  · exact EventLoop.jobs_queueMicrotask _ _ _
  · simp [Item.GivenOut]
  · simp [Item.GivenOut]
  · simp only [withLoop, EventLoop.queueMicrotask]
    split <;> simp
  · simp only [withLoop, EventLoop.queueMicrotask]
    split <;> rfl

theorem Conserved.setTimeout (conserved : Conserved start running m) (delay : Number) (job : α) :
    Conserved start running (m.setTimeout delay job) := by
  apply conserved.submitted (.set m.time delay ⟨_, m.loop.submitted, _⟩)
    (.timer m.loop.submitted job) (m.loop.setTimeout m.time delay (.timer m.loop.submitted job))
    m.queued
  · rfl
  · exact ⟨rfl, rfl⟩
  · exact EventLoop.jobs_setTimeout _ _ _ _
  · simp [Item.GivenOut]
  · simp [Item.GivenOut, EventLoop.setTimeout]
  · simp [EventLoop.setTimeout]
  · rfl

theorem Conserved.submit (conserved : Conserved start running m) (caller : ThreadId) (o : Order α) :
    Conserved start running (m.submit p caller o) := by
  cases o with
  | microtask job => exact conserved.queueMicrotask caller job
  | timeout delay job =>
    have read : Conserved start running (m.tick p) := { conserved with }
    exact read.setTimeout delay job
  | shutdown => exact { conserved with }

theorem countP_isSome_set {β : Type} (others : List (Option β)) (i : Nat) (former : β)
    (present : others[i]? = some (some former)) (state : Option β) :
    (others.set i state).countP Option.isSome + 1 =
      others.countP Option.isSome + state.isSome.toNat := by
  induction others generalizing i with
  | nil => simp at present
  | cons first others ih =>
    cases i with
    | zero =>
      simp only [List.getElem?_cons_zero, Option.some.injEq] at present
      cases state <;> simp [present]
    | succ i =>
      simp only [List.getElem?_cons_succ] at present
      have := ih i present
      simp only [List.set_cons_succ, List.countP_cons]
      omega

/-- One of the other threads takes a step. A guard is let go of together with its thread. -/
theorem Conserved.otherStep (conserved : Conserved start running m) (i : Nat) :
    Conserved start running (m.otherStep p i) := by
  rw [Machine.otherStep]
  split
  · next o rest present =>
    have posted := conserved.submit (p := p) (m.other i) o
    have count := countP_isSome_set m.others i _ present (some rest)
    have others : (m.submit p (m.other i) o).others = m.others := by cases o <;> rfl
    have held := posted.held
    refine { posted with held := ?_ }
    rw [others] at held
    simp only [Option.isSome_some, Bool.toNat_true] at count ⊢
    omega
  · next present =>
    have count := countP_isSome_set m.others i _ present none
    refine { conserved with held := ?_ }
    have held := conserved.held
    simp only [withLoop, EventLoop.letGo, Option.isSome_none, Bool.toNat_false] at count ⊢
    omega
  · exact conserved

theorem Conserved.meanwhile (conserved : Conserved start running m) :
    Conserved start running (m.meanwhile p) :=
  meanwhile_of (fun _ _ before => { before with }) (fun _ i before => before.otherStep i) conserved

theorem Conserved.obey (conserved : Conserved start running m) (o : Order α) :
    Conserved start running (m.obey p o) :=
  conserved.meanwhile.submit _ o

/-- A job that waits is begun. -/
theorem Conserved.begin (conserved : Conserved start [] m) (item : Item α) (l : EventLoop (Item α))
    (taken : m.loop.jobs ~ item :: l.jobs) (submitted : l.submitted = m.loop.submitted)
    (guards : l.guards = m.loop.guards) :
    Conserved start [item] ((m.withLoop l).begin item) := by
  refine { jobs := ?_, begun := ?_, distinct := ?_, given := ?_, held := ?_ }
  all_goals simp only [Machine.begin, record, withLoop, submittedItems_concat, begunItems_concat,
    endedItems_concat, Event.submitted?, Event.begun?, Event.ended?, Option.toList, List.append_nil,
    submitted, guards]
  · exact (taken.symm.append_left _).trans conserved.jobs
  · rw [conserved.begun, List.append_nil]
  · exact conserved.distinct
  · exact conserved.given
  · exact conserved.held

theorem Conserved.ended {item : Item α} (conserved : Conserved start [item] m) :
    Conserved start [] (m.record (.ended item)) := by
  refine { conserved with jobs := ?_, begun := ?_, distinct := ?_, given := ?_ }
  all_goals simp only [record, submittedItems_concat, begunItems_concat, endedItems_concat,
    Event.submitted?, Event.begun?, Event.ended?, Option.toList, List.append_nil]
  · simpa using conserved.jobs
  · exact conserved.begun
  · exact conserved.distinct
  · exact conserved.given

/-- A job that waits is run. -/
theorem Conserved.perform (conserved : Conserved start [] m) (item : Item α) (l : EventLoop (Item α))
    (taken : m.loop.jobs ~ item :: l.jobs) (submitted : l.submitted = m.loop.submitted)
    (guards : l.guards = m.loop.guards) : Conserved start [] ((m.withLoop l).perform p item) :=
  perform_of item (conserved.begin item l taken submitted guards) (fun _ o _ busy => busy.obey o)
    fun _ busy => busy.ended

/-- Every step of a run keeps account of all jobs, whatever the other threads do meanwhile. -/
theorem conserved_kept (start : EventLoop α) (p : Programme α) :
    Kept p (Conserved start []) (Conserved start []) where
  between _ conserved := conserved
  gather m conserved := by
    have before := conserved.meanwhile (p := p)
    apply Conserved.meanwhile
    exact { before with jobs := by simpa [withLoop] using before.jobs }
  microtask m item l conserved next := by
    have taken := EventLoop.jobs_next _ l item next
    obtain ⟨rest, _, rfl⟩ := (EventLoop.next?_eq_some_iff item l).mp next
    exact conserved.perform item _ (taken ▸ List.Perm.refl _) rfl rfl
  meanwhile _ conserved := conserved.meanwhile
  tick _ conserved := { conserved with }
  timer m t l conserved _ _ due := by
    have read : Conserved start [] (m.readClock p) := { conserved.meanwhile.meanwhile with }
    have taken := EventLoop.jobs_due _ l _ t due
    obtain ⟨_, rest, _, rfl⟩ := (EventLoop.due?_eq_some_iff _ t l).mp due
    exact read.meanwhile.perform t.job _ taken rfl rfl

/-- When all threads have let go of their guards, nothing happens meanwhile. -/
theorem meanwhile_gone (p : Programme α) (gone : ∀ state ∈ m.others, state = none) :
    m.meanwhile p = { m with steps := m.steps + 1 } := by
  have still (i : Nat) : otherStep p { m with steps := m.steps + 1 } i =
      { m with steps := m.steps + 1 } := by
    cases state : m.others[i]? with
    | none => simp [otherStep, state]
    | some thread => simp [otherStep, state, gone thread (List.mem_of_getElem? state)]
  rw [Machine.meanwhile]
  induction p.turns m.steps with
  | nil => rfl
  | cons i turns ih => rw [List.foldl_cons, still, ih]

/-- Nothing is left to be run, and nobody is left to submit anything. -/
structure Settled (start : EventLoop α) (m : Machine α) : Prop extends Conserved start [] m where
  gone : ∀ state ∈ m.others, state = none
  nothingLeft : m.loop.jobs = []

/-- The loop finds no guard, and then no microtask in its inbox and no timer. As all threads have
let go by then, nothing was submitted in between. -/
theorem Conserved.settled (conserved : Conserved start [] (m.readGuards p))
    (noneHeld : (m.readGuards p).loop.guards = 0)
    (microtasks : (m.readGuards p).loop.microtasks = [])
    (nonePosted : (m.readInbox p).loop.inbox = [])
    (nonePending : (m.readTimers p).loop.timers = []) : Settled start (m.readTimers p) := by
  have gone : ∀ state ∈ (m.readGuards p).others, state = none := by
    have held := conserved.held
    rw [noneHeld, Nat.le_zero, List.countP_eq_zero] at held
    simpa using held
  have inbox := meanwhile_gone p gone
  have timers : m.readTimers p = { m.readGuards p with steps := (m.readGuards p).steps + 2 } := by
    rw [readTimers, readInbox, inbox]
    exact meanwhile_gone p gone
  rw [readInbox, inbox] at nonePosted
  rw [timers] at nonePending ⊢
  refine ⟨{ conserved with }, gone, ?_⟩
  simp only at nonePosted nonePending
  simp [EventLoop.jobs, microtasks, nonePosted, nonePending]

/-- A run that ends idle has come to the end of all jobs. -/
theorem Conserved.run (conserved : Conserved start [] m) (untilShutdown : Bool) (jobs fuel : Nat)
    (idle : (run p untilShutdown jobs fuel m).1 = .idle) :
    Settled start (run p untilShutdown jobs fuel m).2 := by
  have kept := conserved_kept start p
  induction fuel generalizing m with
  | zero => cases idle
  | succ fuel ih =>
    obtain ⟨ended, u, turn, -, same⟩ := run_succ p untilShutdown jobs m
    rw [same] at idle ⊢
    cases turn with
    | endless drained => cases idle
    | @rest _ v _ _ drained rest =>
      have rested := kept.drained jobs _ conserved drained
      cases rest with
      | shutdown => cases idle
      | asleep => cases idle
      | idle noneHeld nonePosted nonePending =>
        have before := kept.rested_meanwhile (kept.rested_look rested)
        exact before.1.settled noneHeld before.2 nonePosted nonePending
      | fired unshut due => exact ih (kept.rest rested (.fired unshut due)).1 idle
      | posted => exact ih (kept.rest rested .posted).1 idle
      | woken => exact ih (kept.rest rested .woken).1 idle

/-- A loop that other threads keep open, each with a guard of its own that it lets go of after
posting jobs. Short of a shutdown the loop comes back only when all of them have let go, every job
that was submitted has been run once, and no timer is pending. -/
theorem idle_when_all_ran (start : EventLoop α) (ordered : start.Ordered)
    (others : List (List (Order α))) (guards : others.length ≤ start.guards) (p : Programme α)
    (jobs fuel : Nat) :
    let outcome := run p false jobs fuel (.start start others)
    (outcome.1 = .idle →
      (∀ state ∈ outcome.2.others, state = none) ∧ outcome.2.loop.jobs = [] ∧
        begunItems outcome.2.events = endedItems outcome.2.events ∧
        endedItems outcome.2.events ~ submittedItems start outcome.2.events ∧
        (endedItems outcome.2.events).Nodup) ∧
      (outcome.1 = .shutdown → outcome.2.loop.isShutdown = true) := by
  intro outcome
  refine ⟨fun ended => ?_, (run_end p false jobs fuel _).1⟩
  have settled := (start_conserved ordered others guards).run false jobs fuel ended
  have ran : endedItems outcome.2.events ~ submittedItems start outcome.2.events := by
    simpa [settled.nothingLeft] using settled.jobs
  refine ⟨settled.gone, settled.nothingLeft, ?_, ran, ran.nodup_iff.mpr settled.distinct⟩
  simpa using settled.begun

/-- Two threads post jobs while the loop looks at its guards, its inbox and its timers. -/
theorem idle_when_all_ran_posted :
    let start : EventLoop Nat := (EventLoop.empty 0).hold.hold
    let others := [[Order.microtask 1, .timeout ⟨0⟩ 2], [.microtask 3]]
    let p : Programme Nat :=
      { deeds := fun _ job => if job = 1 then [.microtask 4] else []
        clock := id, turns := fun n => if n < 4 then [] else [n % 2], wakes := fun _ => true }
    others.length ≤ start.guards ∧ (run p false 9 9 (.start start others)).1 = .idle ∧
      (endedItems (run p false 9 9 (.start start others)).2.events).map Item.job = [1, 3, 4, 2] ∧
      (run p false 9 9 (.start start others)).2.loop.jobs = [] := by
  refine ⟨by decide, by decide +kernel, by decide +kernel, ?_⟩
  have ordered : (EventLoop.empty 0 : EventLoop Nat).hold.hold.Ordered :=
    (EventLoop.empty_ordered 0).of_same rfl rfl
  exact ((idle_when_all_ran _ ordered _ (by decide) _ 9 9).1 (by decide +kernel)).2.1

end LoopRun

end Membrane
