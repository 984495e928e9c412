import Membrane.Proofs.Loop.Guards
import Membrane.Proofs.Loop.JobOrder
/-!
What the owner of a loop does with it, one call after the other, and what goes on meanwhile. All that
is asked of a loop while no job is begun and none is over comes to some microtasks and timers more,
and it may have been shut down.
-/

set_option autoImplicit false

namespace Membrane.LoopRun

open Machine
open scoped List

variable {α : Type}

/-- What the owner of a loop does with it. -/
inductive Call (α : Type) where
  | ask (o : Order α)
  /-- Runs microtasks until none is left, or so many were run. -/
  | checkpoint (jobs : Nat)
  | run (untilShutdown : Bool) (jobs fuel : Nat)

def Call.apply (p : Programme α) : Call α → Machine α → Machine α
  | ask o, m => m.obey p o
  | checkpoint jobs, m => (drain p jobs m).2
  | run untilShutdown jobs fuel, m => (LoopRun.run p untilShutdown jobs fuel m).2

/-- The machine after one call after the other. -/
def career (p : Programme α) (calls : List (Call α)) (m : Machine α) : Machine α :=
  calls.foldl (fun m call => call.apply p m) m

/-- What every step of a run keeps to, and what the owner asks for, holds after all calls. -/
theorem Kept.career {p : Programme α} {Between Gathered : Machine α → Prop}
    (kept : Kept p Between Gathered) (calls : List (Call α)) (m : Machine α)
    (asked : ∀ m o, .ask o ∈ calls → Between m → Between (m.obey p o)) (before : Between m) :
    Between (career p calls m) := by
  induction calls generalizing m with
  | nil => exact before
  | cons call calls ih =>
    refine ih (call.apply p m) (fun u o mem => asked u o (List.mem_cons_of_mem _ mem)) ?_
    cases call with
    | ask o => exact asked m o List.mem_cons_self before
    | checkpoint jobs =>
      rcases drained : drain p jobs m with ⟨_ | count, u⟩
      · simpa [Call.apply, drained] using kept.endless jobs before drained
      · simpa [Call.apply, drained] using kept.between _ (kept.drained jobs count before drained).1
    | run untilShutdown jobs fuel => exact (kept.run untilShutdown jobs fuel before).1

theorem begunItems_append (past more : List (Event α)) :
    begunItems (past ++ more) = begunItems past ++ begunItems more := List.filterMap_append

theorem endedItems_append (past more : List (Event α)) :
    endedItems (past ++ more) = endedItems past ++ endedItems more := List.filterMap_append

theorem begunMicrotasks_append (past more : List (Event α)) :
    begunMicrotasks (past ++ more) = begunMicrotasks past ++ begunMicrotasks more :=
  List.filterMap_append

theorem fired_append (past more : List (Event α)) :
    fired (past ++ more) = fired past ++ fired more := List.filterMap_append

theorem queuedItems_append (start : EventLoop α) (past more : List (Event α)) :
    queuedItems start (past ++ more) = queuedItems start past ++ more.filterMap Event.queued? := by
  rw [queuedItems, queuedItems, List.filterMap_append, List.append_assoc]

/-- Where no job is begun, neither a microtask is nor a timer. -/
theorem none_begun {more : List (Event α)} (none : begunItems more = []) :
    begunMicrotasks more = [] ∧ fired more = [] := by
  have all := List.filterMap_eq_nil_iff.mp none
  constructor <;> refine List.filterMap_eq_nil_iff.mpr fun e mem => ?_ <;> have := all e mem <;>
    cases e <;> first | rfl | cases this

/-- Something goes on, but no job is begun or comes to its end. -/
structure Aside (m u : Machine α) (more : List (Event α)) : Prop where
  events : u.events = m.events ++ more
  begun : begunItems more = []
  ended : endedItems more = []
  count : u.begun = m.begun
  shut : m.loop.isShutdown = true → u.loop.isShutdown = true
  queues : (u.loop.microtasks ++ u.loop.inbox) ~
    (m.loop.microtasks ++ m.loop.inbox) ++ more.filterMap Event.queued?
  timers : ∀ t ∈ u.loop.timers, t ∈ m.loop.timers ∨ ∃ n job, t.job = .timer n job

section

variable {start : EventLoop α} {p : Programme α} {m u v : Machine α} {more : List (Event α)}

/-- Nothing was submitted, and what waits for the loop is the same. -/
theorem Aside.of_same (events : u.events = m.events) (count : u.begun = m.begun)
    (shut : m.loop.isShutdown = true → u.loop.isShutdown = true)
    (queues : u.loop.microtasks ++ u.loop.inbox = m.loop.microtasks ++ m.loop.inbox)
    (timers : u.loop.timers = m.loop.timers) : Aside m u [] :=
  ⟨by rw [events, List.append_nil], rfl, rfl, count, shut, by simp [queues],
    fun t mem => .inl (timers ▸ mem)⟩

theorem Aside.trans {later : List (Event α)} (first : Aside m u more) (rest : Aside u v later) :
    Aside m v (more ++ later) where
  events := by rw [rest.events, first.events, List.append_assoc]
  begun := by rw [begunItems_append, first.begun, rest.begun, List.append_nil]
  ended := by rw [endedItems_append, first.ended, rest.ended, List.append_nil]
  count := rest.count.trans first.count
  shut shut := rest.shut (first.shut shut)
  queues := by
    rw [List.filterMap_append, ← List.append_assoc]
    exact rest.queues.trans (first.queues.append_right _)
  timers t mem := (rest.timers t mem).elim (first.timers t) .inr

theorem aside_submit (p : Programme α) (m : Machine α) (caller : ThreadId) (o : Order α) :
    ∃ more, Aside m (m.submit p caller o) more := by
  cases o with
  | microtask job =>
    refine ⟨[.queued m.queued job], rfl, rfl, rfl, rfl, fun shut => ?_, ?_, fun t mem => ?_⟩
    · by_cases own : caller = m.loop.owner <;>
        simpa [submit, Machine.queueMicrotask, EventLoop.queueMicrotask, withLoop, own] using shut
    · by_cases own : caller = m.loop.owner
      · simp only [submit, Machine.queueMicrotask, EventLoop.queueMicrotask, withLoop, own,
          ↓reduceIte, List.append_assoc]
        exact List.perm_append_comm.append_left _
      · simp [submit, Machine.queueMicrotask, EventLoop.queueMicrotask, withLoop, own,
          Event.queued?]
    · by_cases own : caller = m.loop.owner <;>
        simp only [submit, Machine.queueMicrotask, EventLoop.queueMicrotask, withLoop, own,
          ↓reduceIte] at mem <;> exact .inl mem
  | timeout delay job =>
    refine ⟨[.set _ _ _], rfl, rfl, rfl, rfl, id, .of_eq (List.append_nil _).symm,
      fun t mem => ?_⟩
    rcases (EventLoop.mem_insertTimer _ t _).mp mem with rfl | mem
    · exact .inr ⟨_, _, rfl⟩
    · exact .inl mem
  | shutdown => exact ⟨[], .of_same rfl rfl (fun _ => rfl) rfl rfl⟩

theorem aside_otherStep (p : Programme α) (m : Machine α) (i : Nat) :
    ∃ more, Aside m (m.otherStep p i) more := by
  rw [otherStep]
  split
  · next o rest _ =>
    obtain ⟨more, aside⟩ := aside_submit p m (m.other i) o
    exact ⟨more, { aside with }⟩
  · exact ⟨[], .of_same rfl rfl id rfl rfl⟩
  · exact ⟨[], .of_same rfl rfl id rfl rfl⟩

theorem aside_meanwhile (p : Programme α) (m : Machine α) :
    ∃ more, Aside m (m.meanwhile p) more := by
  refine meanwhile_of (I := fun u => ∃ more, Aside m u more) ?_ ?_ ⟨[], .of_same rfl rfl id rfl rfl⟩
  · rintro u steps ⟨more, aside⟩
    exact ⟨more, { aside with }⟩
  · rintro u i ⟨more, aside⟩
    obtain ⟨later, step⟩ := aside_otherStep p u i
    exact ⟨_, aside.trans step⟩

theorem aside_drainInbox (m : Machine α) : Aside m (m.withLoop m.loop.drainInbox) [] :=
  .of_same rfl rfl id (List.append_nil _) rfl

theorem aside_gather (p : Programme α) (m : Machine α) : ∃ more, Aside m (m.gather p) more := by
  obtain ⟨_, first⟩ := aside_meanwhile p m
  obtain ⟨_, last⟩ := aside_meanwhile p ((m.meanwhile p).withLoop (m.meanwhile p).loop.drainInbox)
  exact ⟨_, (first.trans (aside_drainInbox _)).trans last⟩

/-- The loop looks whether it was shut down, reads the clock and looks for timers. -/
theorem aside_look (p : Programme α) (m : Machine α) : ∃ more, Aside m (m.look p) more := by
  obtain ⟨_, first⟩ := aside_meanwhile p m
  obtain ⟨_, second⟩ := aside_meanwhile p (m.meanwhile p)
  have read : Aside ((m.meanwhile p).meanwhile p) (m.readClock p) [] :=
    .of_same rfl rfl id rfl rfl
  obtain ⟨_, last⟩ := aside_meanwhile p (m.readClock p)
  exact ⟨_, ((first.trans second).trans read).trans last⟩

theorem aside_obey (p : Programme α) (m : Machine α) (o : Order α) :
    ∃ more, Aside m (m.obey p o) more := by
  obtain ⟨more, aside⟩ := aside_meanwhile p m
  obtain ⟨later, step⟩ := aside_submit p (m.meanwhile p) (m.meanwhile p).loop.owner o
  exact ⟨_, aside.trans step⟩

/-- A loop that is asked to shut down is shut down. -/
theorem obey_shutdown (p : Programme α) (m : Machine α) :
    (m.obey p .shutdown).loop.isShutdown = true := rfl

/-- What a job asks for, one after the other. -/
theorem aside_orders (p : Programme α) (orders : List (Order α)) (m : Machine α) :
    ∃ more, Aside m (orders.foldl (obey p) m) more ∧
      (.shutdown ∈ orders → (orders.foldl (obey p) m).loop.isShutdown = true) := by
  induction orders generalizing m with
  | nil => exact ⟨[], .of_same rfl rfl id rfl rfl, fun mem => absurd mem List.not_mem_nil⟩
  | cons o orders ih =>
    obtain ⟨more, aside⟩ := aside_obey p m o
    obtain ⟨later, rest, asked⟩ := ih (m.obey p o)
    refine ⟨_, aside.trans rest, fun mem => ?_⟩
    rcases List.mem_cons.mp mem with rfl | mem
    · exact rest.shut (obey_shutdown p m)
    · exact asked mem

/-- A job is run: it is begun, asks for what it asks for, and comes to its end. -/
theorem perform_eq (p : Programme α) (m : Machine α) (item : Item α) :
    ∃ more u, Aside (m.begin item) u more ∧ m.perform p item = u.record (.ended item) ∧
      (.shutdown ∈ p.deeds m.begun item.job → u.loop.isShutdown = true) := by
  obtain ⟨more, aside, asked⟩ := aside_orders p (p.deeds m.begun item.job) (m.begin item)
  exact ⟨more, _, aside, rfl, asked⟩

/-- While a job runs, no microtask is begun but the job itself, if it is one. -/
theorem begunMicrotasks_perform (p : Programme α) (m : Machine α) (item : Item α) :
    begunMicrotasks (m.perform p item).events =
      begunMicrotasks m.events ++ (Event.began item m.time).microtask?.toList := by
  obtain ⟨more, u, aside, same, -⟩ := perform_eq p m item
  have events : (m.perform p item).events =
      ((m.events ++ [.began item m.time]) ++ more) ++ [.ended item] := by
    rw [same, record, aside.events]
    rfl
  rw [events, begunMicrotasks_concat, begunMicrotasks_append, (none_begun aside.begun).1,
    begunMicrotasks_concat]
  exact (List.append_nil _).trans (List.append_nil _)

end

end Membrane.LoopRun
