import Mathlib.Order.Monotone.Basic
import Membrane.Proofs.Loop.Machine
/-!
The order in which the jobs of a loop run that only its own thread submits to. Jobs run one after
the other, microtasks in the order in which they were queued, and a timer fires when it is due, no
microtask is left, and it is the first of all timers that are pending.
-/

set_option autoImplicit false

namespace Membrane.LoopRun

open Machine

variable {α : Type}

namespace Event

def queued? : Event α → Option (Item α)
  | queued n job => some (.microtask n job)
  | _ => none

def timer? : Event α → Option (Timer (Item α))
  | set _ _ t => some t
  | _ => none

/-- The microtask that is begun. -/
def microtask? : Event α → Option (Item α)
  | began (.microtask n job) _ => some (.microtask n job)
  | _ => none

/-- The number of the timer that fires. -/
def fired? : Event α → Option Nat
  | began (.timer n _) _ => some n
  | _ => none

/-- Which job runs after something has happened. -/
def running (former : Option (Item α)) : Event α → Option (Item α)
  | began item _ => some item
  | ended _ => none
  | _ => former

end Event

/-- The job that is running after what has happened. -/
def running (past : List (Event α)) : Option (Item α) := past.foldl Event.running none

/-- All microtasks that were ever queued, in this order. -/
def queuedItems (start : EventLoop α) (past : List (Event α)) : List (Item α) :=
  (start.microtasks ++ start.inbox).mapIdx .microtask ++ past.filterMap Event.queued?

/-- The timers that were set meanwhile. -/
def newTimers (past : List (Event α)) : List (Timer (Item α)) := past.filterMap Event.timer?

/-- All timers that were ever set. -/
def timersSet (start : EventLoop α) (past : List (Event α)) : List (Timer (Item α)) :=
  (numbered start).timers ++ newTimers past

/-- The microtasks that were begun, in this order. -/
def begunMicrotasks (past : List (Event α)) : List (Item α) := past.filterMap Event.microtask?

/-- The numbers of the timers that fired. -/
def fired (past : List (Event α)) : List Nat := past.filterMap Event.fired?

/-- A timer was set and has not fired. -/
def Pending (start : EventLoop α) (past : List (Event α)) (t : Timer (Item α)) : Prop :=
  t ∈ timersSet start past ∧ t.seq ∉ fired past

/-- A timer may fire, given what has happened and the time. -/
structure Fires (start : EventLoop α) (past : List (Event α)) (t : Timer (Item α)) (time : Time) :
    Prop where
  pending : Pending start past t
  due : t.due ≤ time
  /-- All microtasks that were queued were begun. -/
  settled : begunMicrotasks past = queuedItems start past
  least : ∀ u, Pending start past u → u = t ∨ t.Before u
  /-- Timers that were set before it with no longer delay have fired. -/
  behind : ∀ s d u s' d', List.Sublist [.set s d u, .set s' d' t] past →
    EventLoop.delayTime d ≤ EventLoop.delayTime d' → u.seq ∈ fired past

/-- What may happen next, given what has happened. Jobs are submitted by the job that is running, and
a job begins when none is running. -/
def Permits (start : EventLoop α) (past : List (Event α)) : Event α → Prop
  | .queued n _ => running past ≠ none ∧ n = (queuedItems start past).length
  | .set time delay t => running past ≠ none ∧ t.due = time + EventLoop.delayTime delay ∧
      t.seq = start.submitted + (newTimers past).length ∧ t.job = .timer t.seq t.job.job
  | .began (.microtask n job) _ => running past = none ∧
      (queuedItems start past)[(begunMicrotasks past).length]? = some (.microtask n job)
  | .began (.timer n job) time => running past = none ∧
      ∃ t : Timer (Item α), t.seq = n ∧ t.job = .timer n job ∧ Fires start past t time
  | .ended item => running past = some item

/-- Everything that happens is permitted when it happens. -/
def Lawful (start : EventLoop α) (events : List (Event α)) : Prop :=
  ∀ past e, past ++ [e] <+: events → Permits start past e

theorem lawful_concat {start : EventLoop α} {past : List (Event α)} {e : Event α}
    (lawful : Lawful start past) (permits : Permits start past e) : Lawful start (past ++ [e]) := by
  intro before f part
  rcases List.prefix_concat_iff.mp part with same | earlier
  · obtain ⟨rfl, last⟩ := List.append_inj' same rfl
    obtain rfl := List.cons.inj last |>.1
    exact permits
  · exact lawful before f earlier

section

variable (start : EventLoop α) (past : List (Event α)) (e : Event α)

@[simp] theorem running_concat : running (past ++ [e]) = e.running (running past) := by
  simp [running]

@[simp] theorem queuedItems_concat :
    queuedItems start (past ++ [e]) = queuedItems start past ++ e.queued?.toList := by
  cases e <;> simp [queuedItems, Event.queued?]

@[simp] theorem newTimers_concat : newTimers (past ++ [e]) = newTimers past ++ e.timer?.toList := by
  cases taken : e.timer? <;> simp [newTimers, taken]

@[simp] theorem timersSet_concat :
    timersSet start (past ++ [e]) = timersSet start past ++ e.timer?.toList := by
  simp [timersSet]

@[simp] theorem begunMicrotasks_concat :
    begunMicrotasks (past ++ [e]) = begunMicrotasks past ++ e.microtask?.toList := by
  cases taken : e.microtask? <;> simp [begunMicrotasks, taken]

@[simp] theorem fired_concat : fired (past ++ [e]) = fired past ++ e.fired?.toList := by
  cases taken : e.fired? <;> simp [fired, taken]

end

/-- What is so of a machine at any time of a run that only its own thread submits to. -/
structure Sound (start : EventLoop α) (p : Programme α) (m : Machine α) : Prop where
  alone : m.others = []
  ordered : m.loop.Ordered
  queued : m.queued = (queuedItems start m.events).length
  line : begunMicrotasks m.events ++ (m.loop.microtasks ++ m.loop.inbox) =
    queuedItems start m.events
  pending : ∀ t, t ∈ m.loop.timers ↔ Pending start m.events t
  submitted : m.loop.submitted = start.submitted + (newTimers m.events).length
  known : ∀ t ∈ timersSet start m.events, t.seq < m.loop.submitted
  named : ∀ t ∈ timersSet start m.events, t.job = .timer t.seq t.job.job
  fired : ∀ n ∈ fired m.events, n < m.loop.submitted
  clock : m.time ≤ p.clock m.readings
  recent : ∀ s d t, .set s d t ∈ m.events → t.due ≤ m.time + EventLoop.delayTime d
  delays : m.events.Pairwise fun a b => ∀ s d t s' d' u, a = .set s d t → b = .set s' d' u →
    EventLoop.delayTime d ≤ EventLoop.delayTime d' → t.Before u
  lawful : Lawful start m.events

variable {start : EventLoop α} {p : Programme α} {m : Machine α}

theorem mem_queuedItems (start : EventLoop α) (item : Item α) (past : List (Event α))
    (member : item ∈ queuedItems start past) : ∃ n job, item = .microtask n job := by
  rw [queuedItems, List.mem_append, List.mem_mapIdx, List.mem_filterMap] at member
  rcases member with ⟨i, bound, rfl⟩ | ⟨e, _, taken⟩
  · exact ⟨_, _, rfl⟩
  · cases e <;> simp [Event.queued?] at taken
    exact ⟨_, _, taken.symm⟩

theorem start_sound (ordered : start.Ordered) (p : Programme α) :
    Sound start p (.start start []) := by
  have timers : timersSet start ([] : List (Event α)) = (numbered start).timers := by
    simp [timersSet, newTimers]
  refine ⟨rfl, ?_, ?_, ?_, ?_, ?_, ?_, ?_, ?_, ?_, ?_, ?_, ?_⟩
  · refine ⟨?_, ?_, ?_⟩
    · exact List.pairwise_map.mpr ordered.sorted
    · simpa [Machine.start, numbered, Function.comp_def] using ordered.distinct
    · simpa [Machine.start, numbered] using ordered.numbered
  · simp [Machine.start, queuedItems]
  · simp [Machine.start, numbered, queuedItems, begunMicrotasks, List.mapIdx_append]
  · intro t
    simp [Machine.start, Pending, timers, LoopRun.fired]
  · simp [Machine.start, numbered, newTimers]
  · simpa [Machine.start, timers, numbered] using ordered.numbered
  · simp [Machine.start, timers, numbered, Item.job]
  · simp [Machine.start, LoopRun.fired]
  · exact Nat.zero_le _
  · simp [Machine.start]
  · exact List.Pairwise.nil
  · intro past e part
    simp [Machine.start] at part

/-- Nobody but the loop's own thread takes a step. -/
theorem meanwhile_alone (p : Programme α) (alone : m.others = []) :
    m.meanwhile p = { m with steps := m.steps + 1 } := by
  rw [meanwhile]
  induction p.turns m.steps with
  | nil => rfl
  | cons i turns ih => simpa [otherStep, alone] using ih

theorem Sound.meanwhile (sound : Sound start p m) : Sound start p (m.meanwhile p) := by
  rw [meanwhile_alone p sound.alone]
  exact { sound with }

/-- No reading of the clock is earlier than the last one. -/
theorem Sound.tick (monotone : Monotone p.clock) (sound : Sound start p m) :
    Sound start p (m.tick p) := by
  refine { sound with clock := monotone (Nat.le_succ m.readings), recent := ?_ }
  intro s d t member
  have := sound.recent s d t member
  have := sound.clock
  simp only [Machine.tick, Time] at *
  omega

/-- The inbox is moved behind the microtasks. -/
theorem Sound.drainInbox (sound : Sound start p m) :
    Sound start p (m.withLoop m.loop.drainInbox) := by
  refine { sound with
    ordered := sound.ordered.of_same rfl rfl
    line := ?_ }
  simpa [withLoop, EventLoop.drainInbox] using sound.line

/-- The loop is between two jobs. -/
structure Between (start : EventLoop α) (p : Programme α) (m : Machine α) : Prop extends
    Sound start p m where
  free : running m.events = none

/-- The loop is between two jobs and has looked for microtasks. -/
structure Gathered (start : EventLoop α) (p : Programme α) (m : Machine α) : Prop extends
    Between start p m where
  inbox : m.loop.inbox = []

/-- A job is running. -/
structure Busy (start : EventLoop α) (p : Programme α) (item : Item α) (m : Machine α) : Prop extends
    Sound start p m where
  busy : running m.events = some item
  inbox : m.loop.inbox = []

/-- Once the loop has looked for microtasks and found none, all were begun. -/
theorem Gathered.settled (gathered : Gathered start p m) (idle : m.loop.microtasks = []) :
    begunMicrotasks m.events = queuedItems start m.events := by
  simpa [idle, gathered.inbox] using gathered.line

theorem Gathered.meanwhile (gathered : Gathered start p m) : Gathered start p (m.meanwhile p) := by
  have sound := gathered.toSound.meanwhile
  rw [meanwhile_alone p gathered.alone] at sound ⊢
  exact ⟨⟨sound, gathered.free⟩, gathered.inbox⟩

theorem Gathered.tick (monotone : Monotone p.clock) (gathered : Gathered start p m) :
    Gathered start p (m.tick p) :=
  ⟨⟨gathered.toSound.tick monotone, gathered.free⟩, gathered.inbox⟩

theorem Between.gather (between : Between start p m) : Gathered start p (m.gather p) := by
  have alone := meanwhile_alone p between.alone
  have sound := between.toSound.meanwhile.drainInbox
  rw [Machine.gather]
  apply Gathered.meanwhile
  rw [alone] at sound ⊢
  exact ⟨⟨sound, between.free⟩, rfl⟩

/-- A timer that was set is among all timers. -/
theorem mem_timersSet (past : List (Event α)) (s : Time) (d : Number) (t : Timer (Item α))
    (member : .set s d t ∈ past) : t ∈ timersSet start past :=
  List.mem_append_right _ (List.mem_filterMap.mpr ⟨_, member, rfl⟩)

/-- What happens next, if it is no timer that is set, changes nothing about those that were set. -/
theorem Sound.delays_concat (sound : Sound start p m) (e : Event α) (other : e.timer? = none) :
    (m.events ++ [e]).Pairwise fun a b => ∀ s d t s' d' u, a = .set s d t → b = .set s' d' u →
      EventLoop.delayTime d ≤ EventLoop.delayTime d' → t.Before u := by
  apply List.pairwise_append.mpr
  refine ⟨sound.delays, List.pairwise_singleton _ _, ?_⟩
  intro a _ b last s d t s' d' u _ same
  rw [List.mem_singleton.mp last] at same
  simp [same, Event.timer?] at other

/-- The next microtask is begun. -/
theorem Gathered.begin_microtask (gathered : Gathered start p m) (item : Item α)
    (l : EventLoop (Item α)) (next : m.loop.next? = some (item, l)) :
    Busy start p item ((m.withLoop l).begin item) := by
  obtain ⟨rest, microtasks, rfl⟩ := (EventLoop.next?_eq_some_iff item l).mp next
  have line := gathered.line
  rw [microtasks] at line
  obtain ⟨n, job, rfl⟩ : ∃ n job, item = .microtask n job := by
    apply mem_queuedItems start item m.events
    rw [← line]
    simp
  have permits : Permits start m.events (.began (.microtask n job) m.time) := by
    refine ⟨gathered.free, ?_⟩
    rw [← line]
    simp
  refine ⟨{ gathered.toSound with
    ordered := gathered.ordered.of_same rfl rfl
    queued := ?_, line := ?_, pending := ?_, submitted := ?_, known := ?_, named := ?_
    fired := ?_, recent := ?_
    delays := gathered.delays_concat _ rfl
    lawful := lawful_concat gathered.lawful permits }, ?_, gathered.inbox⟩
  all_goals simp only [Machine.begin, record, withLoop, queuedItems_concat, newTimers_concat, timersSet_concat,
    begunMicrotasks_concat, fired_concat, running_concat, Event.queued?, Event.timer?,
    Event.microtask?, Event.fired?, Event.running, Option.toList, List.append_nil]
  · exact gathered.queued
  · rw [← line]
    simp
  · intro t
    rw [gathered.pending t]
    simp [Pending, Event.timer?, Event.fired?]
  · exact gathered.submitted
  · exact gathered.known
  · exact gathered.named
  · exact gathered.toSound.fired
  · intro s d t member
    exact gathered.recent s d t (by simpa using member)

/-- The first timer that is due is begun. -/
theorem Gathered.begin_timer (gathered : Gathered start p m) (idle : m.loop.microtasks = [])
    (t : Timer (Item α)) (l : EventLoop (Item α)) (due : m.loop.due? m.time = some (t, l)) :
    Busy start p t.job ((m.withLoop l).begin t.job) := by
  obtain ⟨early, rest, timers, rfl⟩ := (EventLoop.due?_eq_some_iff m.time t l).mp due
  have pending : ∀ u, Pending start m.events u ↔ u = t ∨ u ∈ rest := by
    intro u
    rw [← gathered.pending u, timers, List.mem_cons]
  have first := (pending t).mpr (Or.inl rfl)
  have least := gathered.ordered.least timers
  have settled := gathered.settled idle
  -- The timers stand in order, so none that waits is before the first.
  have fires : Fires start m.events t m.time := by
    refine ⟨first, early, settled, fun u waits => ?_, fun s d u s' d' sub shorter => ?_⟩
    · rcases (pending u).mp waits with rfl | later
      · exact Or.inl rfl
      · exact Or.inr (least u later)
    · have before : u.Before t := by
        have pair := gathered.delays.sublist sub
        simp only [List.pairwise_cons, List.mem_singleton, forall_eq] at pair
        exact pair.1 s d u s' d' t rfl rfl shorter
      by_contra waits
      have set : u ∈ timersSet start m.events :=
        mem_timersSet m.events s d u (sub.subset List.mem_cons_self)
      rcases (pending u).mp ⟨set, waits⟩ with rfl | later
      · exact u.not_before_self before
      · exact before.asymm (least u later)
  have named := gathered.named t first.1
  have permits : Permits start m.events (.began t.job m.time) := by
    rw [named]
    exact ⟨gathered.free, t, rfl, named, fires⟩
  have number : (Event.began t.job m.time).fired? = some t.seq := by
    rw [named]
    rfl
  have micro : (Event.began t.job m.time).microtask? = none := by
    rw [named]
    rfl
  refine ⟨{ gathered.toSound with
    ordered := gathered.ordered.tail timers
    queued := ?_, line := ?_, pending := ?_, submitted := ?_, known := ?_, named := ?_
    fired := ?_, recent := ?_
    delays := gathered.delays_concat _ rfl
    lawful := lawful_concat gathered.lawful permits }, ?_, gathered.inbox⟩
  all_goals simp only [Machine.begin, record, withLoop, queuedItems_concat, newTimers_concat, timersSet_concat,
    begunMicrotasks_concat, fired_concat, running_concat, Event.queued?, Event.timer?, number, micro,
    Event.running, Option.toList, List.append_nil]
  · exact gathered.queued
  · exact gathered.line
  · intro u
    simp only [Pending, timersSet_concat, fired_concat, Event.timer?, number, Option.toList,
      List.append_nil, List.mem_append, List.mem_singleton, not_or, ← and_assoc]
    rw [← Pending, pending u]
    constructor
    · intro later
      exact ⟨Or.inr later, gathered.ordered.fresh timers u later⟩
    · rintro ⟨rfl | later, other⟩
      · exact (other rfl).elim
      · exact later
  · exact gathered.submitted
  · exact gathered.known
  · exact gathered.named
  · intro n member
    rcases List.mem_append.mp member with old | new
    · exact gathered.toSound.fired n old
    · rw [List.mem_singleton.mp new]
      exact gathered.known t first.1
  · intro s d u member
    exact gathered.recent s d u (by simpa using member)

/-- The job that is running is over. -/
theorem Busy.ended {item : Item α} (busy : Busy start p item m) :
    Between start p (m.record (.ended item)) := by
  refine ⟨{ busy.toSound with
    queued := ?_, line := ?_, pending := ?_, submitted := ?_, known := ?_, named := ?_
    fired := ?_, recent := ?_
    delays := busy.delays_concat _ rfl
    lawful := lawful_concat busy.lawful busy.busy }, ?_⟩
  all_goals simp only [record, queuedItems_concat, newTimers_concat, timersSet_concat,
    begunMicrotasks_concat, fired_concat, running_concat, Event.queued?, Event.timer?,
    Event.microtask?, Event.fired?, Event.running, Option.toList, List.append_nil]
  · exact busy.queued
  · exact busy.line
  · intro t
    rw [busy.pending t]
    simp [Pending, Event.timer?, Event.fired?]
  · exact busy.submitted
  · exact busy.known
  · exact busy.named
  · exact busy.toSound.fired
  · intro s d t member
    exact busy.recent s d t (by simpa using member)

/-- The job that is running queues a microtask. -/
theorem Busy.queueMicrotask {item : Item α} (busy : Busy start p item m) (job : α) :
    Busy start p item (m.queueMicrotask m.loop.owner job) := by
  have permits : Permits start m.events (.queued m.queued job) := by
    refine ⟨?_, busy.queued⟩
    rw [busy.busy]
    simp
  refine ⟨{ busy.toSound with
    ordered := ?_, queued := ?_, line := ?_, pending := ?_, submitted := ?_, known := ?_
    named := ?_, fired := ?_, recent := ?_
    delays := busy.delays_concat _ rfl
    lawful := lawful_concat busy.lawful permits }, ?_, ?_⟩
  all_goals simp only [Machine.queueMicrotask, withLoop, EventLoop.queueMicrotask, ↓reduceIte,
    queuedItems_concat, newTimers_concat, timersSet_concat, begunMicrotasks_concat, fired_concat,
    running_concat, Event.queued?, Event.timer?, Event.microtask?, Event.fired?, Event.running,
    Option.toList, List.append_nil]
  · exact busy.ordered.of_same rfl rfl
  · simp [busy.queued]
  · rw [← busy.line]
    simp [busy.inbox]
  · intro t
    rw [busy.pending t]
    simp [Pending, Event.timer?, Event.fired?]
  · exact busy.submitted
  · exact busy.known
  · exact busy.named
  · exact busy.toSound.fired
  · intro s d t member
    exact busy.recent s d t (by simpa using member)
  · exact busy.busy
  · exact busy.inbox

/-- The job that is running sets a timer. It is due no earlier than those that were set before with no
longer delay. -/
theorem Busy.setTimeout {item : Item α} (busy : Busy start p item m) (delay : Number) (job : α) :
    Busy start p item (m.setTimeout delay job) := by
  let t : Timer (Item α) := ⟨m.time + EventLoop.delayTime delay, m.loop.submitted,
    .timer m.loop.submitted job⟩
  have permits : Permits start m.events (.set m.time delay t) := by
    refine ⟨?_, rfl, busy.submitted, rfl⟩
    rw [busy.busy]
    simp
  have fresh : t.seq ∉ LoopRun.fired m.events := fun member =>
    Nat.lt_irrefl _ (busy.toSound.fired _ member)
  refine ⟨{ busy.toSound with
    ordered := busy.ordered.setTimeout _ _ _
    queued := ?_, line := ?_, pending := ?_, submitted := ?_, known := ?_
    named := ?_, fired := ?_, recent := ?_
    delays := ?_
    lawful := lawful_concat busy.lawful permits }, ?_, ?_⟩
  all_goals simp only [Machine.setTimeout, record, withLoop, EventLoop.setTimeout,
    queuedItems_concat, newTimers_concat, timersSet_concat, begunMicrotasks_concat, fired_concat,
    running_concat, Event.queued?, Event.timer?, Event.microtask?, Event.fired?, Event.running,
    Option.toList, List.append_nil]
  · exact busy.queued
  · exact busy.line
  · intro u
    rw [EventLoop.mem_insertTimer, busy.pending u]
    simp only [Pending, timersSet_concat, fired_concat, Event.timer?, Event.fired?, Option.toList,
      List.append_nil, List.mem_append, List.mem_singleton]
    constructor
    · rintro (rfl | ⟨set, waits⟩)
      · exact ⟨Or.inr rfl, fresh⟩
      · exact ⟨Or.inl set, waits⟩
    · rintro ⟨set | rfl, waits⟩
      · exact Or.inr ⟨set, waits⟩
      · exact Or.inl rfl
  · rw [List.length_append, busy.submitted]
    rfl
  · intro u member
    rcases List.mem_append.mp member with old | new
    · exact Nat.lt_succ_of_lt (busy.known u old)
    · rw [List.mem_singleton.mp new]
      exact Nat.lt_succ_self _
  · intro u member
    rcases List.mem_append.mp member with old | new
    · exact busy.named u old
    · rw [List.mem_singleton.mp new]
      rfl
  · intro n member
    exact Nat.lt_succ_of_lt (busy.toSound.fired n member)
  · intro s d u member
    rcases List.mem_append.mp member with old | new
    · exact busy.recent s d u old
    · cases List.mem_singleton.mp new
      exact Nat.le_refl _
  · apply List.pairwise_append.mpr
    refine ⟨busy.delays, List.pairwise_singleton _ _, ?_⟩
    intro a former b last s d u s' d' v first second shorter
    subst first
    cases (List.mem_singleton.mp last).symm.trans second
    apply Timer.before_of_le
    · exact (busy.recent s d u former).trans (Nat.add_le_add_left shorter _)
    · exact busy.known u (mem_timersSet m.events s d u former)
  · exact busy.busy
  · exact busy.inbox

theorem Busy.obey (monotone : Monotone p.clock) {item : Item α} (busy : Busy start p item m)
    (o : Order α) : Busy start p item (m.obey p o) := by
  have still : Busy start p item (m.meanwhile p) := by
    have sound := busy.toSound.meanwhile
    rw [meanwhile_alone p busy.alone] at sound ⊢
    exact ⟨sound, busy.busy, busy.inbox⟩
  rw [Machine.obey]
  generalize m.meanwhile p = u at still
  cases o with
  | microtask job => exact still.queueMicrotask job
  | timeout delay job =>
    have read : Busy start p item (u.tick p) :=
      ⟨still.toSound.tick monotone, still.busy, still.inbox⟩
    exact read.setTimeout delay job
  | shutdown =>
    have shut : Sound start p (u.withLoop u.loop.shutdown) :=
      { still.toSound with ordered := still.ordered.of_same rfl rfl }
    exact ⟨shut, still.busy, still.inbox⟩

/-- Every step of a run keeps to the order. -/
theorem kept (start : EventLoop α) (monotone : Monotone p.clock) :
    Kept p (Between start p) (Gathered start p) where
  between _ gathered := gathered.toBetween
  gather _ between := between.gather
  microtask m item l gathered next :=
    perform_of item (gathered.begin_microtask item l next) (fun _ o _ busy => busy.obey monotone o)
      fun _ busy => busy.ended
  meanwhile _ gathered := gathered.meanwhile
  tick _ gathered := gathered.tick monotone
  timer m t l gathered idle _ due := by
    have read : Gathered start p (m.readClock p) :=
      gathered.meanwhile.meanwhile.tick monotone
    have look := read.meanwhile
    have same : (m.look p).time = (m.readClock p).time := by
      rw [Machine.look, meanwhile_alone p read.alone]
    have none : (m.look p).loop.microtasks = [] := by
      rw [Machine.look, meanwhile_loop.2]
      exact meanwhile_loop.2.trans (meanwhile_loop.2.trans idle)
    rw [← same] at due
    exact perform_of t.job (look.begin_timer none t l due) (fun _ o _ busy => busy.obey monotone o)
      fun _ busy => busy.ended

/-! A microtask that was queued is begun -/

/-- Nothing that happened is taken back. -/
def Since (past : List (Event α)) (m : Machine α) : Prop := past <+: m.events

theorem since_submit (past : List (Event α)) (p : Programme α) (m : Machine α) (caller : ThreadId)
    (o : Order α) (since : Since past m) : Since past (m.submit p caller o) := by
  cases o with
  | microtask job => exact since.trans (List.prefix_append _ _)
  | timeout delay job => exact since.trans (List.prefix_append _ _)
  | shutdown => exact since

theorem since_meanwhile (past : List (Event α)) (p : Programme α) (m : Machine α)
    (since : Since past m) : Since past (m.meanwhile p) := by
  apply meanwhile_of (fun _ _ since => since) _ since
  intro u i since
  rw [otherStep]
  split
  · exact since_submit past p u _ _ since
  · exact since
  · exact since

theorem since_perform (past : List (Event α)) (p : Programme α) (m : Machine α) (item : Item α)
    (since : Since past (m.begin item)) : Since past (m.perform p item) :=
  perform_of item since
    (fun u o _ since => since_submit past p _ _ o (since_meanwhile past p u since))
    fun _ since => since.trans (List.prefix_append _ _)

theorem since_kept (past : List (Event α)) (p : Programme α) :
    Kept p (Since past) (Since past) where
  between _ since := since
  gather m since := since_meanwhile past p _ (since_meanwhile past p m since)
  microtask m item l since _ :=
    since_perform past p (m.withLoop l) item (since.trans (List.prefix_append _ _))
  meanwhile := since_meanwhile past p
  tick _ since := since
  timer m t l since _ _ _ := by
    have looked : Since past (m.look p) :=
      since_meanwhile past p _ (since_meanwhile past p _ (since_meanwhile past p m since))
    exact since_perform past p ((m.look p).withLoop l) t.job
      (looked.trans (List.prefix_append _ _))

theorem getElem?_of_prefix {items longer : List (Item α)} (part : items <+: longer) (n : Nat)
    (item : Item α) (taken : items[n]? = some item) : longer[n]? = some item := by
  obtain ⟨bound, rfl⟩ := List.getElem?_eq_some_iff.mp taken
  exact List.prefix_iff_getElem?.mp part n bound

theorem queuedItems_since (past : List (Event α)) (since : Since past m) :
    queuedItems start past <+: queuedItems start m.events := by
  obtain ⟨later, same⟩ := since
  rw [← same, queuedItems, queuedItems, List.filterMap_append, ← List.append_assoc]
  exact List.prefix_append _ _

theorem begunMicrotasks_since (past : List (Event α)) (since : Since past m) :
    begunMicrotasks past <+: begunMicrotasks m.events := by
  obtain ⟨later, same⟩ := since
  rw [← same, begunMicrotasks, begunMicrotasks, List.filterMap_append]
  exact List.prefix_append _ _

/-- Between two looks at the inbox one more microtask is begun. -/
theorem Gathered.grown (gathered : Gathered start p m) (item : Item α) (l : EventLoop (Item α))
    (next : m.loop.next? = some (item, l)) : (begunMicrotasks m.events).length + 1 ≤
      (begunMicrotasks ((m.withLoop l).perform p item).events).length := by
  have begun := gathered.begin_microtask item l next
  obtain ⟨n, job, rfl⟩ : ∃ n job, item = .microtask n job := by
    obtain ⟨rest, microtasks, -⟩ := (EventLoop.next?_eq_some_iff item l).mp next
    apply mem_queuedItems start item m.events
    rw [← gathered.line, microtasks]
    simp
  have later := since_perform ((m.withLoop l).begin (.microtask n job)).events p (m.withLoop l)
    (.microtask n job) (List.prefix_refl _)
  have longer := (begunMicrotasks_since _ later).length_le
  simpa [Machine.begin, record, withLoop, Event.microtask?] using longer

/-- Microtasks that do not come to an end are run as many as are allowed. -/
theorem Between.endless (monotone : Monotone p.clock) (jobs : Nat) (u : Machine α)
    (between : Between start p m) (drained : drain p jobs m = (none, u)) :
    jobs + (begunMicrotasks m.events).length ≤ (begunMicrotasks u.events).length := by
  refine (kept start monotone).endless_many (fun m => (begunMicrotasks m.events).length)
    (fun m => ?_) (fun m item l gathered next => gathered.grown item l next) jobs between drained
  have same : Since m.events (m.gather p) :=
    since_meanwhile m.events p _ (since_meanwhile m.events p m (List.prefix_refl _))
  exact (begunMicrotasks_since _ same).length_le

/-- The microtasks that were begun are the first of those that were queued. -/
theorem Sound.begun_prefix (sound : Sound start p m) :
    begunMicrotasks m.events <+: queuedItems start m.events := by
  rw [← sound.line]
  exact List.prefix_append _ _

theorem Sound.begun_of_lt (sound : Sound start p m) (n : Nat) (item : Item α)
    (bound : n < (begunMicrotasks m.events).length)
    (queued : (queuedItems start m.events)[n]? = some item) :
    (begunMicrotasks m.events)[n]? = some item := by
  obtain ⟨rest, line⟩ := sound.begun_prefix
  rw [← line, List.getElem?_append_left bound] at queued
  exact queued

/-- What was queued before a turn is begun in it, if so many microtasks are allowed. -/
theorem Between.turn (monotone : Monotone p.clock) {jobs : Nat} {ended : Option RunEnd}
    {u : Machine α} (between : Between start p m) (turn : Turn p jobs m ended u) (n : Nat)
    (item : Item α) (bound : n < jobs) (queued : (queuedItems start m.events)[n]? = some item) :
    (begunMicrotasks u.events)[n]? = some item := by
  have kept := kept start monotone
  have later {v : Machine α} (since : Since m.events v) :
      (queuedItems start v.events)[n]? = some item :=
    getElem?_of_prefix (queuedItems_since m.events since) n item queued
  cases turn with
  | endless drained =>
    have many := between.endless monotone jobs u drained
    have since := (since_kept m.events p).endless jobs (List.prefix_refl _) drained
    apply (kept.endless jobs between drained).begun_of_lt n item (by omega)
    exact later since
  | @rest _ v _ _ drained rest =>
    have rested := kept.drained jobs _ between drained
    have since := (since_kept m.events p).drained jobs _ (List.prefix_refl _) drained
    have grown := (since_kept v.events p).rest ⟨List.prefix_refl _, rested.2⟩ rest
    apply getElem?_of_prefix (begunMicrotasks_since v.events grown.1)
    rw [rested.1.settled rested.2]
    exact later since.1

/-- After the last turn so many microtasks were begun as are allowed, or all. -/
theorem Between.last_turn (monotone : Monotone p.clock) {jobs : Nat} {e : RunEnd} {u : Machine α}
    (between : Between start p m) (turn : Turn p jobs m (some e) u) :
    jobs ≤ (begunMicrotasks u.events).length ∨
      begunMicrotasks u.events = queuedItems start u.events := by
  have kept := kept start monotone
  cases turn with
  | endless drained =>
    have many := between.endless monotone jobs u drained
    exact Or.inl (by omega)
  | rest drained rest =>
    have rested := (kept.rest (kept.drained jobs _ between drained) rest).2 (by simp)
    exact Or.inr (rested.1.settled rested.2)

/-- What was queued in a run is begun at the latest in the turn after it. -/
theorem Between.run (monotone : Monotone p.clock) (untilShutdown : Bool) (jobs fuel : Nat)
    (between : Between start p m) (n : Nat) (item : Item α) (bound : n < jobs)
    (queued : (queuedItems start (run p untilShutdown jobs fuel m).2.events)[n]? = some item) :
    (begunMicrotasks (run p untilShutdown jobs (fuel + 1) m).2.events)[n]? = some item := by
  induction fuel generalizing m with
  | zero =>
    obtain ⟨ended, u, turn, -, same⟩ := run_succ p untilShutdown jobs m
    rw [same]
    have begun := between.turn monotone turn n item bound queued
    cases ended <;> exact begun
  | succ fuel ih =>
    obtain ⟨ended, u, turn, -, same⟩ := run_succ p untilShutdown jobs m
    have after := (kept start monotone).turn between turn
    rw [same] at queued ⊢
    cases ended with
    | none => exact ih after.1 queued
    | some e =>
      rcases between.last_turn monotone turn with many | settled
      · exact after.1.begun_of_lt n item (bound.trans_le many) queued
      · rw [settled]
        exact queued

/-- Jobs run one after the other, none inside another. Microtasks run once each, in the order in which
they were queued. A timer fires once at most, when it is due, no microtask is left, and it is the
first of all timers that are pending. -/
theorem jobs_in_order (start : EventLoop α) (ordered : start.Ordered) (p : Programme α)
    (monotone : Monotone p.clock) (untilShutdown : Bool) (jobs fuel : Nat) :
    let outcome := run p untilShutdown jobs fuel (.start start [])
    let longer := run p untilShutdown jobs (fuel + 1) (.start start [])
    Lawful start outcome.2.events ∧ running outcome.2.events = none ∧
      begunMicrotasks outcome.2.events <+: queuedItems start outcome.2.events ∧
      (outcome.1 ≠ .endless → begunMicrotasks outcome.2.events = queuedItems start outcome.2.events) ∧
      ∀ n item, (queuedItems start outcome.2.events)[n]? = some item → n < jobs →
        (begunMicrotasks longer.2.events)[n]? = some item := by
  intro outcome longer
  have between : Between start p (.start start []) := ⟨start_sound ordered p, rfl⟩
  obtain ⟨sound, rested⟩ := (kept start monotone).run untilShutdown jobs fuel between
  refine ⟨sound.lawful, sound.free, sound.begun_prefix, fun ended => ?_, ?_⟩
  · exact (rested ended).1.settled (rested ended).2
  · intro n item queued bound
    exact between.run monotone untilShutdown jobs fuel n item bound queued

/-- Of two timers that are due at once the first queues a microtask and sets a timer. -/
theorem jobs_in_order_nested :
    let start := ((EventLoop.empty 0).setTimeout 0 ⟨0⟩ 1).setTimeout 0 ⟨0⟩ 2
    let p : Programme Nat :=
      { deeds := fun _ job => if job = 1 then [.timeout ⟨0⟩ 3, .microtask 4] else []
        clock := id, turns := fun _ => [], wakes := fun _ => false }
    Lawful start (run p false 3 9 (.start start [])).2.events ∧
      (run p false 3 9 (.start start [])).1 = .idle ∧
      (run p false 3 9 (.start start [])).2.events.filterMap
        (fun | .began item _ => some item.job | _ => none) = [1, 4, 2, 3] := by
  refine ⟨?_, by decide +kernel, by decide +kernel⟩
  have empty : (EventLoop.empty 0 : EventLoop Nat).Ordered := EventLoop.empty_ordered 0
  have ordered := (empty.setTimeout 0 ⟨0⟩ 1).setTimeout 0 ⟨0⟩ 2
  exact (jobs_in_order _ ordered _ monotone_id false 3 9).1

end Membrane.LoopRun
