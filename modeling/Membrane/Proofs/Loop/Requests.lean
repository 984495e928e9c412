import Membrane.Proofs.Loop.Career
/-!
What holds of a loop that may have been asked to shut down. What a job asks for is heeded before the
next timer, and a loop is shut down only if somebody asked for it.
-/

set_option autoImplicit false

namespace Membrane.LoopRun

open Machine
open scoped List

variable {α : Type}

/-- One of the jobs that were begun asks the loop to shut down. -/
def Asked (p : Programme α) (past : List (Event α)) : Prop :=
  ∃ (n : Nat) (item : Item α), (begunItems past)[n]? = some item ∧ .shutdown ∈ p.deeds n item.job

/-- Once a job was begun that asks the loop to shut down, no timer fires. -/
def Silent (p : Programme α) (events : List (Event α)) : Prop :=
  ∀ past e, past ++ [e] <+: events → Asked p past → e.fired? = none

section

variable {p : Programme α} {events more : List (Event α)}

theorem asked_append (none : begunItems more = []) : Asked p (events ++ more) ↔ Asked p events := by
  rw [Asked, begunItems_append, none, List.append_nil]
  rfl

theorem asked_began {item : Item α} {time : Time}
    (asked : Asked p (events ++ [.began item time])) :
    Asked p events ∨ .shutdown ∈ p.deeds (begunItems events).length item.job := by
  obtain ⟨n, other, begun, shutdown⟩ := asked
  rw [begunItems_append] at begun
  rcases Nat.lt_or_ge n (begunItems events).length with old | new
  · rw [List.getElem?_append_left old] at begun
    exact .inl ⟨n, other, begun, shutdown⟩
  · rw [List.getElem?_append_right new] at begun
    obtain ⟨bound, rfl⟩ := List.getElem?_eq_some_iff.mp begun
    have last : n = (begunItems events).length := by
      simp only [begunItems, List.filterMap_cons, Event.begun?, List.filterMap_nil,
        List.length_singleton] at bound new ⊢
      omega
    subst last
    simp only [begunItems, List.filterMap_cons, Event.begun?, List.filterMap_nil,
      List.getElem_singleton] at shutdown
    exact .inr shutdown

theorem silent_concat {e : Event α} (silent : Silent p events)
    (unfired : Asked p events → e.fired? = none) : Silent p (events ++ [e]) := by
  intro past f part asked
  rcases List.prefix_concat_iff.mp part with same | earlier
  · obtain ⟨rfl, last⟩ := List.append_inj' same rfl
    obtain rfl := (List.cons.inj last).1
    exact unfired asked
  · exact silent past f earlier asked

theorem silent_append (silent : Silent p events) (unfired : fired more = []) :
    Silent p (events ++ more) := by
  induction more generalizing events with
  | nil => rwa [List.append_nil]
  | cons e more ih =>
    have all := List.filterMap_eq_nil_iff.mp unfired
    rw [List.append_cons]
    exact ih (silent_concat silent fun _ => all e List.mem_cons_self)
      (List.filterMap_eq_nil_iff.mpr fun f mem => all f (List.mem_cons_of_mem _ mem))

end

/-- What is so of a machine at any time between two jobs. -/
structure Orderly (start : EventLoop α) (p : Programme α) (before m : Machine α) : Prop where
  /-- Every microtask that was queued was begun or waits. -/
  queues : (begunMicrotasks m.events ++ (m.loop.microtasks ++ m.loop.inbox)) ~
    queuedItems start m.events
  timers : ∀ t ∈ m.loop.timers, ∃ n job, t.job = .timer n job
  count : m.begun = (begunItems m.events).length
  free : endedItems m.events = begunItems m.events
  heeded : Asked p m.events → m.loop.isShutdown = true
  silent : Silent p m.events
  /-- What has happened since an earlier time. -/
  since : ∃ later, m.events = before.events ++ later ∧
    (before.loop.isShutdown = true → m.loop.isShutdown = true ∧ fired later = [])

/-- The loop has looked for microtasks. What was queued before was begun or stands in line. -/
structure Looked (start : EventLoop α) (p : Programme α) (before m : Machine α) : Prop extends
    Orderly start p before m where
  seen : ∃ past more, m.events = past ++ more ∧ begunItems more = [] ∧ endedItems more = [] ∧
    before.events <+: past ∧
    ∀ item ∈ queuedItems start past, item ∈ begunMicrotasks m.events ++ m.loop.microtasks

section

variable {start : EventLoop α} {p : Programme α} {before m u : Machine α}
  {more : List (Event α)}

theorem Orderly.aside (orderly : Orderly start p before m) (aside : Aside m u more) :
    Orderly start p before u := by
  obtain ⟨noMicrotask, noTimer⟩ := none_begun aside.begun
  obtain ⟨later, events, shut⟩ := orderly.since
  refine
    { queues := ?_
      timers := fun t mem => (aside.timers t mem).elim (orderly.timers t) id
      count := ?_
      free := ?_
      heeded := fun asked => ?_
      silent := ?_
      since := ?_ }
  · rw [aside.events, begunMicrotasks_append, noMicrotask, List.append_nil, queuedItems_append]
    refine (aside.queues.append_left _).trans ?_
    rw [← List.append_assoc]
    exact orderly.queues.append_right _
  · rw [aside.count, aside.events, begunItems_append, aside.begun, List.append_nil, orderly.count]
  · rw [aside.events, endedItems_append, begunItems_append, aside.begun, aside.ended, orderly.free]
  · rw [aside.events, asked_append aside.begun] at asked
    exact aside.shut (orderly.heeded asked)
  · rw [aside.events]
    exact silent_append orderly.silent noTimer
  · refine ⟨later ++ more, by rw [aside.events, events, List.append_assoc], fun earlier => ?_⟩
    obtain ⟨still, none⟩ := shut earlier
    exact ⟨aside.shut still, by rw [fired_append, none, noTimer, List.append_nil]⟩

theorem Looked.aside (looked : Looked start p before m) (aside : Aside m u more)
    (microtasks : u.loop.microtasks = m.loop.microtasks) : Looked start p before u := by
  obtain ⟨past, later, events, begun, ended, first, seen⟩ := looked.seen
  refine ⟨looked.toOrderly.aside aside, past, later ++ more, ?_, ?_, ?_, first, ?_⟩
  · rw [aside.events, events, List.append_assoc]
  · rw [begunItems_append, begun, aside.begun, List.append_nil]
  · rw [endedItems_append, ended, aside.ended, List.append_nil]
  · rw [aside.events, begunMicrotasks_append, (none_begun aside.begun).1, List.append_nil,
      microtasks]
    exact seen

theorem Looked.meanwhile (looked : Looked start p before m) :
    Looked start p before (m.meanwhile p) := by
  obtain ⟨more, aside⟩ := aside_meanwhile p m
  exact looked.aside aside meanwhile_loop.2

/-- The loop looks for microtasks: it moves the inbox behind them. -/
theorem Orderly.gather (orderly : Orderly start p before m) :
    Looked start p before (m.gather p) := by
  obtain ⟨more, aside⟩ := aside_meanwhile p m
  have drained := (orderly.aside aside).aside (aside_drainInbox _)
  rw [Machine.gather]
  refine Looked.meanwhile ⟨drained, _, [], (List.append_nil _).symm, rfl, rfl, ?_, ?_⟩
  · obtain ⟨later, events, -⟩ := drained.since
    exact ⟨later, events.symm⟩
  · intro item mem
    have waits := drained.queues.mem_iff.mpr mem
    rwa [EventLoop.drainInbox, withLoop, List.append_nil] at waits

/-- A job is run that waited or was due. A timer that fires has not been told to keep still. -/
theorem Orderly.perform (orderly : Orderly start p before m) (item : Item α)
    (l : EventLoop (Item α)) (shut : l.isShutdown = m.loop.isShutdown)
    (taken : (Event.began item m.time).microtask?.toList ++ (l.microtasks ++ l.inbox) =
      m.loop.microtasks ++ m.loop.inbox)
    (timers : ∀ t ∈ l.timers, t ∈ m.loop.timers)
    (unfired : Asked p m.events ∨ before.loop.isShutdown = true →
      (Event.began item m.time).fired? = none) :
    Orderly start p before ((m.withLoop l).perform p item) := by
  obtain ⟨more, u, aside, same, asked⟩ := perform_eq p (m.withLoop l) item
  have noTimer := (none_begun aside.begun).2
  obtain ⟨later, events, still⟩ := orderly.since
  have all : ((m.withLoop l).perform p item).events =
      ((m.events ++ [.began item m.time]) ++ more) ++ [.ended item] := by
    rw [same, record, aside.events]
    rfl
  have loop : ((m.withLoop l).perform p item).loop = u.loop := by
    rw [same]
    rfl
  have microtasks : begunMicrotasks ((m.withLoop l).perform p item).events =
      begunMicrotasks m.events ++ (Event.began item m.time).microtask?.toList :=
    begunMicrotasks_perform p (m.withLoop l) item
  have begun : begunItems ((m.withLoop l).perform p item).events = begunItems m.events ++ [item] := by
    rw [all, begunItems_concat, begunItems_append, aside.begun, begunItems_concat]
    exact (List.append_nil _).trans (List.append_nil _)
  have kept (earlier : m.loop.isShutdown = true) : u.loop.isShutdown = true :=
    aside.shut (shut.trans earlier)
  refine
    { queues := ?_
      timers := fun t mem => ?_
      count := ?_
      free := ?_
      heeded := fun requested => ?_
      silent := ?_
      since := ?_ }
  · rw [microtasks, loop, all, queuedItems_concat, queuedItems_append, queuedItems_concat,
      List.append_assoc]
    have line : (begunMicrotasks m.events ++ ((Event.began item m.time).microtask?.toList ++
        (l.microtasks ++ l.inbox))) ~ queuedItems start m.events := by
      rw [taken]
      exact orderly.queues
    refine ((aside.queues.append_left _).append_left _).trans ?_
    refine (List.Perm.of_eq ?_).trans
      ((line.append_right (more.filterMap Event.queued?)).trans (.of_eq ?_))
    · simp only [List.append_assoc]
      rfl
    · simp only [Event.queued?, Option.toList, List.append_nil]
  · rw [loop] at mem
    exact (aside.timers t mem).elim (fun old => orderly.timers t (timers t old)) id
  · rw [begun, List.length_append, ← orderly.count, same]
    exact aside.count
  · rw [begun, all, endedItems_concat, endedItems_append, aside.ended, endedItems_concat,
      orderly.free]
    exact congrArg (· ++ [item]) ((List.append_nil _).trans (List.append_nil _))
  · rw [loop]
    rw [all, asked_append rfl, asked_append aside.begun] at requested
    rcases asked_began requested with earlier | shutdown
    · exact kept (orderly.heeded earlier)
    · rw [← orderly.count] at shutdown
      exact asked shutdown
  · rw [all]
    refine silent_append (silent_append (silent_concat orderly.silent fun early => ?_) noTimer) rfl
    exact unfired (.inl early)
  · refine ⟨later ++ ([.began item m.time] ++ more ++ [.ended item]), ?_, fun earlier => ?_⟩
    · rw [all, events]
      simp only [List.append_assoc]
    · obtain ⟨before, none⟩ := still earlier
      refine ⟨loop ▸ kept before, ?_⟩
      have first : fired [Event.began item m.time] = [] :=
        List.filterMap_cons_none (unfired (.inr earlier))
      rw [fired_append, fired_append, fired_append, none, first, noTimer]
      rfl

/-- What stands first among the microtasks is one. -/
theorem Looked.next_microtask (looked : Looked start p before m) {item : Item α}
    {l : EventLoop (Item α)} (next : m.loop.next? = some (item, l)) :
    ∃ n job, item = .microtask n job := by
  obtain ⟨rest, microtasks, rfl⟩ := (EventLoop.next?_eq_some_iff item l).mp next
  refine mem_queuedItems start item m.events (looked.queues.mem_iff.mp ?_)
  rw [microtasks]
  simp

/-- Every step of a run keeps to it: what a job asks for is heeded before the next timer. -/
theorem orderly_kept (start : EventLoop α) (p : Programme α) (before : Machine α) :
    Kept p (Orderly start p before) (Looked start p before) where
  between _ looked := looked.toOrderly
  gather _ orderly := orderly.gather
  meanwhile _ looked := looked.meanwhile
  tick _ looked := looked.aside (.of_same rfl rfl id rfl rfl) rfl
  microtask m item l looked next := by
    obtain ⟨n, job, rfl⟩ := looked.next_microtask next
    obtain ⟨rest, microtasks, rfl⟩ := (EventLoop.next?_eq_some_iff _ l).mp next
    refine looked.toOrderly.perform _ _ rfl ?_ (fun _ => id) fun _ => rfl
    rw [microtasks]
    rfl
  timer m t l looked idle unshut due := by
    obtain ⟨_, rest, timers, rfl⟩ := (EventLoop.due?_eq_some_iff _ t l).mp due
    obtain ⟨_, aside⟩ := aside_meanwhile p m
    have read : Looked start p before (m.readClock p) :=
      looked.meanwhile.meanwhile.aside (.of_same rfl rfl id rfl rfl) rfl
    have look : Looked start p before (m.look p) := read.meanwhile
    obtain ⟨n, job, timer⟩ := look.timers t (by rw [timers]; exact List.mem_cons_self)
    refine look.toOrderly.perform _ _ rfl ?_ ?_ ?_
    · rw [timer]
      rfl
    · intro u mem
      rw [timers]
      exact List.mem_cons_of_mem _ mem
    · intro requested
      -- The loop has just looked: a request from before would have ended the run.
      obtain ⟨_, sinceThen⟩ := aside_look p m
      have shut : m.loop.isShutdown = true := by
        rcases requested with asked | earlier
        · rw [sinceThen.events, asked_append sinceThen.begun] at asked
          exact looked.heeded asked
        · obtain ⟨_, _, still⟩ := looked.since
          exact (still earlier).1
      exact absurd (aside.shut shut) (ne_true_of_eq_false unshut)

theorem start_orderly (start : EventLoop α) (p : Programme α) (others : List (List (Order α))) :
    Orderly start p (.start start others) (.start start others) where
  queues := by
    simp [Machine.start, numbered, queuedItems, begunMicrotasks, List.mapIdx_append]
  timers t mem := by
    obtain ⟨u, _, rfl⟩ := List.mem_map.mp mem
    exact ⟨_, _, rfl⟩
  count := rfl
  free := rfl
  heeded := by
    rintro ⟨n, item, begun, -⟩
    cases begun
  silent past e part := by
    obtain ⟨rest, same⟩ := part
    simp [Machine.start] at same
  since := ⟨[], rfl, fun shut => ⟨shut, rfl⟩⟩

/-- What is so of a machine is so from now on. -/
theorem Orderly.now (orderly : Orderly start p before m) : Orderly start p m m :=
  { orderly with since := ⟨[], (List.append_nil _).symm, fun shut => ⟨shut, rfl⟩⟩ }

theorem Orderly.career (orderly : Orderly start p before m) (calls : List (Call α)) :
    Orderly start p before (career p calls m) := by
  refine (orderly_kept start p before).career calls m (fun u o _ orderly => ?_) orderly
  obtain ⟨_, aside⟩ := aside_obey p u o
  exact orderly.aside aside

/-- With a microtask that is begun one more was. -/
theorem Looked.grown (looked : Looked start p before m) (item : Item α) (l : EventLoop (Item α))
    (next : m.loop.next? = some (item, l)) : (begunMicrotasks m.events).length + 1 ≤
      (begunMicrotasks ((m.withLoop l).perform p item).events).length := by
  obtain ⟨n, job, rfl⟩ := looked.next_microtask next
  rw [begunMicrotasks_perform, List.length_append]
  exact Nat.le_refl _

/-- A loop that was shut down comes back from every run, unless microtasks do not come to an end. -/
theorem Orderly.run_of_shutdown (orderly : Orderly start p before m)
    (shut : m.loop.isShutdown = true) (untilShutdown : Bool) (jobs fuel : Nat) :
    (run p untilShutdown jobs (fuel + 1) m).1 = .shutdown ∨
      (run p untilShutdown jobs (fuel + 1) m).1 = .endless ∧
        jobs + (begunMicrotasks m.events).length ≤
          (begunMicrotasks (run p untilShutdown jobs (fuel + 1) m).2.events).length := by
  have kept := orderly_kept start p m
  rcases drained : drain p jobs m with ⟨_ | count, u⟩
  · right
    rw [run_of_endless p untilShutdown jobs fuel drained]
    refine ⟨rfl, kept.endless_many (fun m => (begunMicrotasks m.events).length) (fun m => ?_)
      (fun m item l looked next => looked.grown item l next) jobs orderly.now drained⟩
    obtain ⟨more, aside⟩ := aside_gather p m
    rw [aside.events, begunMicrotasks_append, List.length_append]
    exact Nat.le_add_right _ _
  · left
    obtain ⟨_, _, still⟩ := (kept.drained jobs count orderly.now drained).1.since
    obtain ⟨_, aside⟩ := aside_meanwhile p u
    rw [LoopRun.run_of_shutdown p untilShutdown jobs fuel drained (aside.shut (still shut).1)]

end

/-! Why a loop was shut down -/

/-- A loop is shut down only for a reason, or because a job asked for it. -/
structure Explained (reason : Prop) (p : Programme α) (m : Machine α) : Prop where
  shut : m.loop.isShutdown = true → reason ∨ Asked p m.events
  others : ∀ orders, some orders ∈ m.others → .shutdown ∈ orders → reason
  count : m.begun = (begunItems m.events).length

section

variable {reason : Prop} {p : Programme α} {m u : Machine α}

theorem Asked.append {past more : List (Event α)} (asked : Asked p past) :
    Asked p (past ++ more) := by
  obtain ⟨n, item, begun, shutdown⟩ := asked
  refine ⟨n, item, ?_, shutdown⟩
  obtain ⟨bound, rfl⟩ := List.getElem?_eq_some_iff.mp begun
  rw [begunItems_append, List.getElem?_append_left bound, begun]

/-- Only a request shuts a loop down. -/
theorem isShutdown_submit (caller : ThreadId) (o : Order α)
    (shut : (m.submit p caller o).loop.isShutdown = true) :
    m.loop.isShutdown = true ∨ o = .shutdown := by
  cases o with
  | shutdown => exact .inr rfl
  | timeout delay job => exact .inl shut
  | microtask job =>
    left
    by_cases own : caller = m.loop.owner <;>
      simpa [submit, Machine.queueMicrotask, EventLoop.queueMicrotask, withLoop, own] using shut

theorem others_submit (caller : ThreadId) (o : Order α) :
    (m.submit p caller o).others = m.others := by
  cases o <;> rfl

theorem Explained.submit (explained : Explained reason p m) (caller : ThreadId) (o : Order α)
    (why : o = .shutdown → reason ∨ Asked p m.events) :
    Explained reason p (m.submit p caller o) := by
  obtain ⟨more, aside⟩ := aside_submit p m caller o
  refine ⟨fun shut => ?_, ?_, ?_⟩
  · have earlier : reason ∨ Asked p m.events :=
      (isShutdown_submit caller o shut).elim explained.shut why
    rw [aside.events]
    exact earlier.imp_right Asked.append
  · rw [others_submit]
    exact explained.others
  · rw [aside.count, aside.events, begunItems_append, aside.begun, List.append_nil, explained.count]

theorem Explained.otherStep (explained : Explained reason p m) (i : Nat) :
    Explained reason p (m.otherStep p i) := by
  rw [Machine.otherStep]
  split
  · next o rest there =>
    have mem := List.mem_of_getElem? there
    have posted := explained.submit (m.other i) o fun shutdown =>
      .inl (explained.others _ mem (shutdown ▸ List.mem_cons_self))
    refine { posted with others := fun orders later => ?_ }
    rcases List.mem_or_eq_of_mem_set later with old | new
    · exact explained.others orders old
    · obtain rfl := Option.some.inj new
      exact fun shutdown => explained.others _ mem (List.mem_cons_of_mem _ shutdown)
  · refine { explained with others := fun orders later => ?_ }
    rcases List.mem_or_eq_of_mem_set later with old | new
    · exact explained.others orders old
    · cases new
  · exact explained

theorem Explained.meanwhile (explained : Explained reason p m) :
    Explained reason p (m.meanwhile p) :=
  meanwhile_of (fun _ _ before => { before with }) (fun _ i before => before.otherStep i) explained

theorem Explained.obey (explained : Explained reason p m) (o : Order α)
    (why : o = .shutdown → reason ∨ Asked p m.events) : Explained reason p (m.obey p o) := by
  obtain ⟨more, aside⟩ := aside_meanwhile p m
  refine explained.meanwhile.submit _ o fun shutdown => ?_
  rw [aside.events]
  exact (why shutdown).imp_right Asked.append

theorem Explained.perform (explained : Explained reason p m) (item : Item α)
    (l : EventLoop (Item α)) (shut : l.isShutdown = m.loop.isShutdown) :
    Explained reason p ((m.withLoop l).perform p item) := by
  have begun : Explained reason p ((m.withLoop l).begin item) := by
    refine ⟨fun after => ?_, explained.others, ?_⟩
    · exact (explained.shut (shut.symm.trans after)).imp_right Asked.append
    · rw [Machine.begin, record, begunItems_append, List.length_append]
      exact congrArg (· + 1) explained.count
  let Busy (u : Machine α) : Prop :=
    Explained reason p u ∧ (.shutdown ∈ p.deeds m.begun item.job → Asked p u.events)
  have atFirst : Busy ((m.withLoop l).begin item) := by
    refine ⟨begun, fun mem => ⟨m.begun, item, ?_, mem⟩⟩
    rw [Machine.begin, record, begunItems_append, explained.count]
    exact List.getElem?_concat_length
  refine perform_of item atFirst ?_ ?_
  · rintro u o mem ⟨busy, asked⟩
    obtain ⟨more, aside⟩ := aside_obey p u o
    refine ⟨busy.obey o fun shutdown => .inr (asked (shutdown ▸ mem)), fun mem => ?_⟩
    rw [aside.events]
    exact (asked mem).append
  · rintro u ⟨busy, -⟩
    refine ⟨fun shut => (busy.shut shut).imp_right Asked.append, busy.others, ?_⟩
    rw [record, begunItems_append]
    exact busy.count.trans (congrArg List.length (List.append_nil _).symm)

theorem explained_kept (reason : Prop) (p : Programme α) :
    Kept p (Explained reason p) (Explained reason p) where
  between _ explained := explained
  gather _ explained :=
    have looked := explained.meanwhile
    Explained.meanwhile { looked with }
  microtask m item l explained next := by
    obtain ⟨rest, microtasks, rfl⟩ := (EventLoop.next?_eq_some_iff item l).mp next
    exact explained.perform item _ rfl
  meanwhile _ explained := explained.meanwhile
  tick _ explained := { explained with }
  timer m t l explained _ _ due := by
    obtain ⟨_, rest, timers, rfl⟩ := (EventLoop.due?_eq_some_iff _ t l).mp due
    have shut := explained.meanwhile.meanwhile
    have read : Explained reason p (m.readClock p) := { shut with }
    exact read.meanwhile.perform t.job _ rfl

end

end Membrane.LoopRun
