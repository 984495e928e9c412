import Membrane.Proofs.Loop.Timers
/-!
A machine that runs a loop. Its jobs, and other threads that each hold a guard, ask the loop for
what they like; the other threads take their steps between any two steps of the loop. The machine
keeps a record of what was submitted and what was run.
-/

set_option autoImplicit false

namespace Membrane.LoopRun

/-- What is asked of a loop. -/
inductive Order (α : Type) where
  | microtask (job : α)
  | timeout (delay : Number) (job : α)
  | shutdown

/-- A job as it was submitted. The numbers tell microtasks apart, and timers. -/
inductive Item (α : Type) where
  | microtask (number : Nat) (job : α)
  | timer (number : Nat) (job : α)

/-- What happens at a loop, with the time that the clock showed last. -/
inductive Event (α : Type) where
  | queued (number : Nat) (job : α)
  | set (time : Time) (delay : Number) (timer : Timer (Item α))
  | began (item : Item α) (time : Time)
  | ended (item : Item α)

/-- What a run depends on besides what is submitted before it. As nothing is asked of these, jobs
and threads may decide by whatever they see. -/
structure Programme (α : Type) where
  /-- What the job that is run as the n-th asks for. -/
  deeds : Nat → α → List (Order α)
  /-- What the clock shows when it is read for the n-th time. -/
  clock : Nat → Time
  /-- Which of the other threads take a step, one after the other, before the n-th step of the
  loop. -/
  turns : Nat → List Nat
  /-- Whether the loop wakes up when it waits. -/
  wakes : Nat → Bool

structure Machine (α : Type) where
  loop : EventLoop (Item α)
  /-- What each of the other threads will still ask for; nothing if it let go of its guard. -/
  others : List (Option (List (Order α)))
  /-- How many microtasks were ever queued. -/
  queued : Nat
  /-- How many jobs were ever begun. -/
  begun : Nat
  /-- How often the clock was read. -/
  readings : Nat
  /-- What the clock showed last. -/
  time : Time
  /-- How many steps the loop has made. -/
  steps : Nat
  events : List (Event α)

variable {α : Type}

namespace Item

def job : Item α → α
  | microtask _ a | timer _ a => a

def number : Item α → Nat
  | microtask n _ | timer n _ => n

end Item

/-- A loop whose jobs are numbered as they were submitted. -/
def numbered (start : EventLoop α) : EventLoop (Item α) :=
  { owner := start.owner
    microtasks := start.microtasks.mapIdx .microtask
    inbox := start.inbox.mapIdx fun i => .microtask (i + start.microtasks.length)
    timers := start.timers.map fun t => ⟨t.due, t.seq, .timer t.seq t.job⟩
    submitted := start.submitted
    guards := start.guards
    isShutdown := start.isShutdown }

namespace Machine

/-- The machine before a run. -/
def start (l : EventLoop α) (others : List (List (Order α))) : Machine α :=
  { loop := numbered l
    others := others.map some
    queued := l.microtasks.length + l.inbox.length
    begun := 0, readings := 0, time := 0, steps := 0, events := [] }

def withLoop (m : Machine α) (loop : EventLoop (Item α)) : Machine α := { m with loop }

def record (m : Machine α) (e : Event α) : Machine α := { m with events := m.events ++ [e] }

variable (p : Programme α)

/-- The clock is read. -/
def tick (m : Machine α) : Machine α :=
  { m with time := p.clock m.readings, readings := m.readings + 1 }

/-- A microtask is queued by a thread. -/
def queueMicrotask (m : Machine α) (caller : ThreadId) (job : α) : Machine α :=
  { m.withLoop (m.loop.queueMicrotask caller (.microtask m.queued job)) with
    queued := m.queued + 1
    events := m.events ++ [.queued m.queued job] }

/-- A timer is set. -/
def setTimeout (m : Machine α) (delay : Number) (job : α) : Machine α :=
  let item := Item.timer m.loop.submitted job
  let due := m.time + EventLoop.delayTime delay
  (m.withLoop (m.loop.setTimeout m.time delay item)).record
    (.set m.time delay ⟨due, m.loop.submitted, item⟩)

/-- A thread asks the loop for something. -/
def submit (m : Machine α) (caller : ThreadId) : Order α → Machine α
  | .microtask job => m.queueMicrotask caller job
  | .timeout delay job => (m.tick p).setTimeout delay job
  | .shutdown => m.withLoop m.loop.shutdown

/-- The thread that stands at a place among the others. -/
def other (m : Machine α) (i : Nat) : ThreadId := m.loop.owner + 1 + i

/-- One of the other threads asks for the next thing, or lets go of its guard. -/
def otherStep (m : Machine α) (i : Nat) : Machine α :=
  match m.others[i]? with
  | some (some (o :: rest)) => { m.submit p (m.other i) o with others := m.others.set i (some rest) }
  | some (some []) => { m.withLoop m.loop.letGo with others := m.others.set i none }
  | _ => m

/-- The other threads take their steps before a step of the loop. -/
def meanwhile (m : Machine α) : Machine α :=
  (p.turns m.steps).foldl (otherStep p) { m with steps := m.steps + 1 }

/-- The job that is run asks for something. -/
def obey (m : Machine α) (o : Order α) : Machine α :=
  (m.meanwhile p).submit p (m.meanwhile p).loop.owner o

/-- A job is begun. -/
def begin (m : Machine α) (item : Item α) : Machine α :=
  { m.record (.began item m.time) with begun := m.begun + 1 }

/-- A job is run. -/
def perform (m : Machine α) (item : Item α) : Machine α :=
  ((p.deeds m.begun item.job).foldl (obey p) (m.begin item)).record (.ended item)

/-- The loop looks for microtasks. -/
def gather (m : Machine α) : Machine α :=
  ((m.meanwhile p).withLoop (m.meanwhile p).loop.drainInbox).meanwhile p

/-- The loop has looked whether it was shut down and reads the clock. -/
def readClock (m : Machine α) : Machine α := ((m.meanwhile p).meanwhile p).tick p

/-- The loop looks for timers that are due. -/
def look (m : Machine α) : Machine α := (m.readClock p).meanwhile p

def readGuards (m : Machine α) : Machine α := (m.look p).meanwhile p

def readInbox (m : Machine α) : Machine α := (m.readGuards p).meanwhile p

def readTimers (m : Machine α) : Machine α := (m.readInbox p).meanwhile p

/-- The loop waits. -/
def park (m : Machine α) : Machine α := (m.readTimers p).meanwhile p

end Machine

open Machine

/-- A seat at the loop of a machine. What the loop reads and writes in one go is one step. -/
def seat (p : Programme α) : Seat (StateM (Machine α)) (Item α) where
  read := modifyGet fun m => ((m.meanwhile p).loop, m.meanwhile p)
  write loop := modify fun m => m.withLoop loop
  now := modifyGet fun m => (((m.meanwhile p).tick p).time, (m.meanwhile p).tick p)
  perform item := modify fun m => m.perform p item
  park _ := modifyGet fun m => (p.wakes m.steps, m.meanwhile p)

/-- Microtasks are run on a machine, until none is left or so many were run. -/
def drain (p : Programme α) (jobs : Nat) (m : Machine α) : Option Nat × Machine α :=
  ((seat p).drain jobs).run m

/-- The loop of a machine is run. -/
def run (p : Programme α) (untilShutdown : Bool) (jobs fuel : Nat) (m : Machine α) :
    RunEnd × Machine α :=
  ((seat p).run untilShutdown jobs fuel).run m

section

variable (p : Programme α) (m : Machine α)

@[simp] theorem run_read : (seat p).read.run m = pure ((m.meanwhile p).loop, m.meanwhile p) := rfl

@[simp] theorem run_write (loop : EventLoop (Item α)) :
    ((seat p).write loop).run m = pure ((), m.withLoop loop) := rfl

@[simp] theorem run_now :
    (seat p).now.run m = pure (((m.meanwhile p).tick p).time, (m.meanwhile p).tick p) := rfl

@[simp] theorem run_perform (item : Item α) :
    ((seat p).perform item).run m = pure ((), m.perform p item) := rfl

@[simp] theorem run_park (due : Option Time) :
    ((seat p).park due).run m = pure (p.wakes m.steps, m.meanwhile p) := rfl

theorem drain_succ (jobs : Nat) :
    drain p (jobs + 1) m =
      match (m.gather p).loop.next? with
      | none => (some 0, m.gather p)
      | some (item, l) =>
        let (count, m') := drain p jobs (((m.gather p).withLoop l).perform p item)
        (count.map (· + 1), m') := by
  cases taken : (m.gather p).loop.next? with
  | none =>
    simp only [gather] at taken
    simp [drain, Seat.drain, taken, gather]
    rfl
  | some next =>
    simp only [gather] at taken
    simp [drain, Seat.drain, taken, gather]
    rfl

variable {p m} {jobs : Nat} {u : Machine α}

/-- Where the microtasks do not come to an end, one of them is run and they still do not. -/
theorem of_drain_succ_none (drained : drain p (jobs + 1) m = (none, u)) :
    ∃ item l, (m.gather p).loop.next? = some (item, l) ∧
      drain p jobs (((m.gather p).withLoop l).perform p item) = (none, u) := by
  rw [drain_succ] at drained
  cases taken : (m.gather p).loop.next? with
  | none => simp [taken] at drained
  | some next =>
    simp only [taken] at drained
    obtain ⟨rest, rfl⟩ := Prod.mk.inj drained
    exact ⟨_, _, rfl, Prod.ext (Option.map_eq_none_iff.mp rest) rfl⟩

/-- Where the microtasks come to an end, none is left or one of them is run. -/
theorem of_drain_succ_some {count : Nat} (drained : drain p (jobs + 1) m = (some count, u)) :
    ((m.gather p).loop.next? = none ∧ u = m.gather p) ∨
      ∃ item l fewer, (m.gather p).loop.next? = some (item, l) ∧
        drain p jobs (((m.gather p).withLoop l).perform p item) = (some fewer, u) := by
  rw [drain_succ] at drained
  cases taken : (m.gather p).loop.next? with
  | none =>
    simp only [taken] at drained
    exact .inl ⟨rfl, (Prod.mk.inj drained).2.symm⟩
  | some next =>
    simp only [taken] at drained
    obtain ⟨rest, rfl⟩ := Prod.mk.inj drained
    obtain ⟨fewer, again, _⟩ := Option.map_eq_some_iff.mp rest
    exact .inr ⟨_, _, fewer, rfl, Prod.ext again rfl⟩

end

/-- What a loop does that has run all microtasks. It may end the run, and leaves a machine. -/
inductive Rest (p : Programme α) (u : Machine α) : Option RunEnd → Machine α → Prop
  | shutdown (shut : (u.meanwhile p).loop.isShutdown) :
      Rest p u (some .shutdown) (u.meanwhile p)
  /-- A timer was due, and the loop had not been shut down. -/
  | fired {t : Timer (Item α)} {l : EventLoop (Item α)}
      (unshut : (u.meanwhile p).loop.isShutdown = false)
      (due : (u.look p).loop.due? (u.readClock p).time = some (t, l)) :
      Rest p u none (((u.look p).withLoop l).perform p t.job)
  /-- Another thread had posted a microtask. -/
  | posted : Rest p u none (u.readInbox p)
  | idle (noneHeld : (u.readGuards p).loop.guards = 0)
      (nonePosted : (u.readInbox p).loop.inbox = [])
      (nonePending : (u.readTimers p).loop.timers = []) :
      Rest p u (some .idle) (u.readTimers p)
  | woken : Rest p u none (u.park p)
  /-- The loop waits for good. -/
  | asleep : Rest p u (some .asleep) (u.park p)

/-- What a turn of a loop comes to. -/
inductive Turn (p : Programme α) (jobs : Nat) (m : Machine α) : Option RunEnd → Machine α → Prop
  /-- The microtasks do not come to an end. -/
  | endless {u : Machine α} (drained : drain p jobs m = (none, u)) :
      Turn p jobs m (some .endless) u
  | rest {count : Nat} {u v : Machine α} {ended : Option RunEnd}
      (drained : drain p jobs m = (some count, u)) (rest : Rest p u ended v) : Turn p jobs m ended v

theorem run_zero (p : Programme α) (untilShutdown : Bool) (jobs : Nat) (m : Machine α) :
    run p untilShutdown jobs 0 m = (.endless, m) := rfl

section

variable (p : Programme α) (untilShutdown : Bool) (jobs fuel : Nat) {m u : Machine α}

theorem run_of_endless (drained : drain p jobs m = (none, u)) :
    run p untilShutdown jobs (fuel + 1) m = (.endless, u) := by
  rw [drain] at drained
  simp [run, Seat.run, drained]
  rfl

/-- A loop that was shut down comes back from a run once no microtask is left. -/
theorem run_of_shutdown {count : Nat} (drained : drain p jobs m = (some count, u))
    (shut : (u.meanwhile p).loop.isShutdown = true) :
    run p untilShutdown jobs (fuel + 1) m = (.shutdown, u.meanwhile p) := by
  have first : ((seat p).drain jobs).run m = (pure (some count, u) : Id _) := drained
  simp [run, Seat.run, first, shut]
  rfl

end

/-- A run is a turn and, unless it ends the run, the rest of the run. -/
theorem run_succ (p : Programme α) (untilShutdown : Bool) (jobs : Nat) (m : Machine α) :
    ∃ ended u, Turn p jobs m ended u ∧ (ended = some .idle → untilShutdown = false) ∧
      ∀ fuel, run p untilShutdown jobs (fuel + 1) m =
        match ended with
        | some e => (e, u)
        | none => run p untilShutdown jobs fuel u := by
  rcases drained : drain p jobs m with ⟨_ | count, u⟩
  · exact ⟨some .endless, u, .endless drained, by simp, fun fuel => run_of_endless p _ _ _ drained⟩
  have first : ((seat p).drain jobs).run m = (pure (some count, u) : Id _) := drained
  by_cases shut : (u.meanwhile p).loop.isShutdown
  · exact ⟨some .shutdown, _, .rest drained (.shutdown shut), by simp,
      fun fuel => run_of_shutdown p _ _ _ drained shut⟩
  rcases due : (u.look p).loop.due? (u.readClock p).time with _ | ⟨t, l⟩
  rotate_left
  · refine ⟨none, _, .rest drained (.fired (eq_false_of_ne_true shut) due), by simp,
      fun fuel => ?_⟩
    simp only [look, readClock] at due
    simp [run, Seat.run, Seat.fireDue, first, shut, due]
    rfl
  by_cases inbox : (u.readInbox p).loop.inbox = []
  rotate_left
  · refine ⟨none, _, .rest drained .posted, by simp, fun fuel => ?_⟩
    simp only [readInbox, readGuards, look, readClock] at due inbox
    simp [run, Seat.run, Seat.fireDue, first, shut, due, inbox]
    rfl
  by_cases last : (untilShutdown = false ∧ (u.readTimers p).loop.nextDue? = none) ∧
      (u.readGuards p).loop.guards = 0
  · refine ⟨some .idle, _, .rest drained (.idle last.2 inbox ?_), fun _ => last.1.1,
      fun fuel => ?_⟩
    · simpa [EventLoop.nextDue?] using last.1.2
    · simp only [readTimers, readInbox, readGuards, look, readClock] at due inbox last
      simp [run, Seat.run, Seat.fireDue, first, shut, due, inbox, last]
      rfl
  cases wakes : p.wakes (u.readTimers p).steps with
  | false =>
    refine ⟨some .asleep, _, .rest drained .asleep, by simp, fun fuel => ?_⟩
    simp only [readTimers, readInbox, readGuards, look, readClock] at due inbox last wakes
    simp [run, Seat.run, Seat.fireDue, first, shut, due, inbox, last, wakes]
    rfl
  | true =>
    refine ⟨none, _, .rest drained .woken, by simp, fun fuel => ?_⟩
    simp only [readTimers, readInbox, readGuards, look, readClock] at due inbox last wakes
    simp [run, Seat.run, Seat.fireDue, first, shut, due, inbox, last, wakes]
    rfl

section

variable (p : Programme α) (m : Machine α)

/-- The other threads post to the inbox and never to the microtasks. -/
theorem Machine.otherStep_loop (i : Nat) :
    (m.otherStep p i).loop.owner = m.loop.owner ∧
      (m.otherStep p i).loop.microtasks = m.loop.microtasks := by
  unfold otherStep
  split
  · next o rest _ =>
    cases o with
    | microtask job =>
      have foreign : m.other i ≠ m.loop.owner := by
        unfold other ThreadId
        omega
      simp [submit, queueMicrotask, withLoop, EventLoop.queueMicrotask, foreign]
    | timeout delay job =>
      simp [submit, setTimeout, withLoop, record, tick, EventLoop.setTimeout]
    | shutdown => simp [submit, withLoop, EventLoop.shutdown]
  · simp [withLoop, EventLoop.letGo]
  · simp

variable {p} {m}

/-- What every step of another thread keeps is kept meanwhile. -/
theorem Machine.meanwhile_of {I : Machine α → Prop} (step : ∀ m steps, I m → I { m with steps })
    (other : ∀ m i, I m → I (m.otherStep p i)) (before : I m) : I (m.meanwhile p) := by
  have first := step m (m.steps + 1) before
  rw [meanwhile]
  generalize p.turns m.steps = turns
  generalize { m with steps := m.steps + 1 } = u at first
  induction turns generalizing u with
  | nil => exact first
  | cons i turns ih => exact ih (u.otherStep p i) (other u i first)

theorem Machine.meanwhile_loop :
    (m.meanwhile p).loop.owner = m.loop.owner ∧
      (m.meanwhile p).loop.microtasks = m.loop.microtasks := by
  apply meanwhile_of (I := fun u => u.loop.owner = m.loop.owner ∧
    u.loop.microtasks = m.loop.microtasks)
  · intro u steps same
    exact same
  · intro u i same
    obtain ⟨owner, microtasks⟩ := u.otherStep_loop p i
    exact ⟨owner.trans same.1, microtasks.trans same.2⟩
  · simp

/-- What holds when a job has been run holds if the beginning of the job makes something hold that
all that it asks for keeps. -/
theorem Machine.perform_of {Busy After : Machine α → Prop} (item : Item α) (begun : Busy (m.begin item))
    (obey : ∀ u o, o ∈ p.deeds m.begun item.job → Busy u → Busy (u.obey p o))
    (ended : ∀ u, Busy u → After (u.record (.ended item))) : After (m.perform p item) := by
  rw [perform]
  apply ended
  generalize m.begin item = u at begun
  generalize p.deeds m.begun item.job = orders at obey
  induction orders generalizing u with
  | nil => exact begun
  | cons o orders ih =>
    exact ih (u.obey p o) (obey u o List.mem_cons_self begun)
      fun u o mem => obey u o (List.mem_cons_of_mem _ mem)

end

/-- What holds between two jobs, and what holds once the loop has looked for microtasks: every step
of a run keeps to it. -/
structure Kept (p : Programme α) (Between Gathered : Machine α → Prop) : Prop where
  between : ∀ m, Gathered m → Between m
  gather : ∀ m, Between m → Gathered (m.gather p)
  microtask : ∀ m item l, Gathered m → m.loop.next? = some (item, l) →
    Between ((m.withLoop l).perform p item)
  meanwhile : ∀ m, Gathered m → Gathered (m.meanwhile p)
  tick : ∀ m, Gathered m → Gathered (m.tick p)
  timer : ∀ m t l, Gathered m → m.loop.microtasks = [] →
    (m.meanwhile p).loop.isShutdown = false →
    (m.look p).loop.due? (m.readClock p).time = some (t, l) →
    Between (((m.look p).withLoop l).perform p t.job)

namespace Kept

variable {p : Programme α} {Between Gathered : Machine α → Prop} {m u : Machine α}

theorem endless (kept : Kept p Between Gathered) (jobs : Nat) (before : Between m)
    (drained : drain p jobs m = (none, u)) : Between u := by
  induction jobs generalizing m with
  | zero =>
    cases drained
    exact before
  | succ jobs ih =>
    obtain ⟨item, l, taken, rest⟩ := of_drain_succ_none drained
    exact ih (kept.microtask _ _ _ (kept.gather m before) taken) rest

/-- Where the microtasks do not come to an end, as many of them are run as are allowed. -/
theorem endless_many (kept : Kept p Between Gathered) (ran : Machine α → Nat)
    (gather : ∀ m, ran m ≤ ran (m.gather p))
    (microtask : ∀ m item l, Gathered m → m.loop.next? = some (item, l) →
      ran m + 1 ≤ ran ((m.withLoop l).perform p item)) (jobs : Nat) (before : Between m)
    (drained : drain p jobs m = (none, u)) : jobs + ran m ≤ ran u := by
  induction jobs generalizing m with
  | zero =>
    cases drained
    simp
  | succ jobs ih =>
    obtain ⟨item, l, taken, rest⟩ := of_drain_succ_none drained
    have gathered := kept.gather m before
    have more := ih (kept.microtask _ _ _ gathered taken) rest
    have former := gather m
    have next := microtask _ _ _ gathered taken
    omega

theorem drained (kept : Kept p Between Gathered) (jobs count : Nat) (before : Between m)
    (drained : drain p jobs m = (some count, u)) : Gathered u ∧ u.loop.microtasks = [] := by
  induction jobs generalizing m count with
  | zero => cases drained
  | succ jobs ih =>
    have gathered := kept.gather m before
    obtain ⟨none, rfl⟩ | ⟨item, l, fewer, taken, rest⟩ := of_drain_succ_some drained
    · exact ⟨gathered, EventLoop.next?_eq_none_iff.mp none⟩
    · exact ih fewer (kept.microtask _ _ _ gathered taken) rest

/-- The loop has looked for microtasks and found none. -/
def Rested (Gathered : Machine α → Prop) (m : Machine α) : Prop :=
  Gathered m ∧ m.loop.microtasks = []

theorem rested_meanwhile (kept : Kept p Between Gathered) (rested : Rested Gathered m) :
    Rested Gathered (m.meanwhile p) :=
  ⟨kept.meanwhile m rested.1, m.meanwhile_loop.2.trans rested.2⟩

theorem rested_look (kept : Kept p Between Gathered) (rested : Rested Gathered m) :
    Rested Gathered (m.look p) := by
  have shut := kept.rested_meanwhile (kept.rested_meanwhile rested)
  have read : Rested Gathered (m.readClock p) := ⟨kept.tick _ shut.1, shut.2⟩
  exact kept.rested_meanwhile read

theorem rested_readTimers (kept : Kept p Between Gathered) (rested : Rested Gathered m) :
    Rested Gathered (m.readTimers p) :=
  kept.rested_meanwhile (kept.rested_meanwhile (kept.rested_meanwhile (kept.rested_look rested)))

theorem rest (kept : Kept p Between Gathered) {v : Machine α} {ended : Option RunEnd}
    (rested : Rested Gathered u) (rest : Rest p u ended v) :
    Between v ∧ (ended ≠ none → Rested Gathered v) := by
  have still {v : Machine α} (rested : Rested Gathered v) :
      Between v ∧ (ended ≠ none → Rested Gathered v) :=
    ⟨kept.between v rested.1, fun _ => rested⟩
  cases rest with
  | shutdown => exact still (kept.rested_meanwhile rested)
  | fired unshut due =>
    exact ⟨kept.timer _ _ _ rested.1 rested.2 unshut due, fun other => (other rfl).elim⟩
  | posted => exact still (kept.rested_meanwhile (kept.rested_meanwhile (kept.rested_look rested)))
  | idle => exact still (kept.rested_readTimers rested)
  | woken | asleep => exact still (kept.rested_meanwhile (kept.rested_readTimers rested))

/-- After a turn that ends the run, unless the microtasks do not come to an end, none is left. -/
theorem turn (kept : Kept p Between Gathered) {jobs : Nat} {ended : Option RunEnd}
    (before : Between m) (turn : Turn p jobs m ended u) :
    Between u ∧ ∀ e, ended = some e → e ≠ .endless → Rested Gathered u := by
  cases turn with
  | endless drained =>
    refine ⟨kept.endless jobs before drained, fun e same other => ?_⟩
    cases same
    exact (other rfl).elim
  | rest drained rest =>
    obtain ⟨between, rested⟩ := kept.rest (kept.drained jobs _ before drained) rest
    exact ⟨between, fun e same _ => rested (by simp [same])⟩

theorem run (kept : Kept p Between Gathered) (untilShutdown : Bool) (jobs fuel : Nat)
    (before : Between m) :
    Between (run p untilShutdown jobs fuel m).2 ∧
      ((run p untilShutdown jobs fuel m).1 ≠ .endless →
        Rested Gathered (run p untilShutdown jobs fuel m).2) := by
  induction fuel generalizing m with
  | zero => exact ⟨before, fun ended => (ended rfl).elim⟩
  | succ fuel ih =>
    obtain ⟨ended, u, turn, -, same⟩ := run_succ p untilShutdown jobs m
    obtain ⟨after, rested⟩ := kept.turn before turn
    rw [same]
    cases ended with
    | none => exact ih after
    | some e => exact ⟨after, rested e rfl⟩

end Kept

/-- A run comes back from nothing but idleness and shutdown. -/
theorem run_end (p : Programme α) (untilShutdown : Bool) (jobs fuel : Nat) (m : Machine α) :
    ((run p untilShutdown jobs fuel m).1 = .shutdown →
        (run p untilShutdown jobs fuel m).2.loop.isShutdown = true) ∧
      ((run p untilShutdown jobs fuel m).1 = .idle → untilShutdown = false) := by
  induction fuel generalizing m with
  | zero => simp [run_zero]
  | succ fuel ih =>
    obtain ⟨ended, u, turn, idle, same⟩ := run_succ p untilShutdown jobs m
    rw [same]
    cases ended with
    | none => exact ih u
    | some e =>
      refine ⟨fun shutdown => ?_, fun ended => idle (congrArg some ended)⟩
      obtain rfl : e = .shutdown := shutdown
      cases turn with
      | rest _ rest => cases rest with
        | shutdown shut => exact shut

end Membrane.LoopRun
