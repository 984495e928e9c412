import Membrane.Proofs.Loop.Lines
/-!
What a request to shut down does to a loop, in the run in which it is made and in all later ones. No
timer fires any more. Microtasks still run, in the order in which they were queued, and a run comes
back when none is left. A loop that nobody asks to shut down does not come back from a run until
shutdown.
-/

set_option autoImplicit false

namespace Membrane.LoopRun

open Machine
open scoped List

variable {α : Type}

section

variable (start : EventLoop α) (others : List (List (Order α))) (p : Programme α)
  (calls : List (Call α))

/-- Somebody asked a loop to shut down: it was shut down from the beginning, or its owner, another
thread or a job that was begun asked for it. -/
def Requested (past : List (Event α)) : Prop :=
  (start.isShutdown = true ∨ .ask .shutdown ∈ calls ∨ ∃ orders ∈ others, .shutdown ∈ orders) ∨
    Asked p past

/-- The microtasks of the loop's own thread are told from those of other threads. -/
structure Labelled (own : α → Bool) : Prop where
  deeds : ∀ n job other, .microtask other ∈ p.deeds n job → own other = true
  calls : ∀ job, .ask (.microtask job) ∈ calls → own job = true
  others : ∀ orders ∈ others, ∀ job, .microtask job ∈ orders → own job = false
  inbox : ∀ job ∈ start.inbox, own job = false

theorem start_explained (reason : Prop) (shut : start.isShutdown = true → reason)
    (asked : ∀ orders ∈ others, .shutdown ∈ orders → reason) :
    Explained reason p (.start start others) where
  shut isShutdown := .inl (shut isShutdown)
  others orders mem := by
    obtain ⟨former, member, same⟩ := List.mem_map.mp mem
    exact asked orders (Option.some.inj same ▸ member)
  count := rfl

theorem start_lines (own : α → Bool) (inbox : ∀ job ∈ start.inbox, own job = false)
    (foreign : ∀ orders ∈ others, ∀ job, .microtask job ∈ orders → own job = false) :
    Lines start own (.start start others) := by
  have posted : ∀ item ∈ (numbered start).inbox, own item.job = false := by
    intro item mem
    obtain ⟨i, bound, rfl⟩ := List.mem_mapIdx.mp mem
    exact inbox _ (List.getElem_mem bound)
  have queued : queuedItems start ([] : List (Event α)) =
      (numbered start).microtasks ++ (numbered start).inbox := by
    simp [queuedItems, numbered, List.mapIdx_append]
  refine ⟨?_, ?_, posted, fun orders mem => ?_⟩
  · rw [Machine.start, queued, List.filter_append _ (numbered start).inbox,
      List.filter_eq_nil_iff.mpr fun item mem => ne_true_of_eq_false (posted item mem),
      List.append_nil]
    rfl
  · rw [Machine.start, queued]
    rfl
  · obtain ⟨former, member, same⟩ := List.mem_map.mp mem
    exact foreign orders (Option.some.inj same ▸ member)

theorem career_explained :
    Explained (start.isShutdown = true ∨ .ask .shutdown ∈ calls ∨
      ∃ orders ∈ others, .shutdown ∈ orders) p (career p calls (.start start others)) := by
  refine (explained_kept _ p).career calls _ (fun u o mem explained => ?_) ?_
  · exact explained.obey o fun same => .inl (.inr (.inl (same ▸ mem)))
  · exact start_explained start others p _ .inl fun orders mem shutdown =>
      .inr (.inr ⟨orders, mem, shutdown⟩)

/-- What was queued before a run that comes back, or before the end of a job, was begun. -/
theorem Looked.begun {start : EventLoop α} {p : Programme α} {m u : Machine α}
    (looked : Looked start p m u) (idle : u.loop.microtasks = []) {past : List (Event α)}
    (early : past <+: m.events ∨ ∃ item, past ++ [.ended item] <+: u.events) (item : Item α)
    (queued : item ∈ queuedItems start past) : item ∈ begunMicrotasks u.events := by
  obtain ⟨seen, more, events, -, ended, first, all⟩ := looked.seen
  rw [idle, List.append_nil] at all
  have part : past <+: seen := by
    rcases early with before | ⟨item, part⟩
    · exact before.trans first
    · rcases List.prefix_or_prefix_of_prefix part ⟨more, events.symm⟩ with within | beyond
      · exact (List.prefix_append _ _).trans within
      · -- No job came to its end after the loop had looked.
        rcases List.prefix_concat_iff.mp beyond with same | within
        · exact same ▸ List.prefix_append _ _
        · obtain ⟨rest, rfl⟩ := within
          obtain ⟨later, same⟩ := part
          rw [events, List.append_assoc, List.append_assoc, List.append_cancel_left_eq] at same
          rw [← same, endedItems_append, endedItems_append] at ended
          simp [endedItems, Event.ended?] at ended
  refine all item ?_
  obtain ⟨later, rfl⟩ := part
  rw [queuedItems_append]
  exact List.mem_append_left _ queued

end

/-- Once a job was begun that asks the loop to shut down, or after the owner asked for it, no timer
fires any more, in whatever runs. A run comes back then, unless microtasks do not come to an end.

When a run comes back, it has run every microtask that was queued before it or before the end of one
of its jobs. Those of the loop's own thread were run in the order in which they were queued, and so
were those of other threads. A run until shutdown comes back only if somebody asked for it. -/
theorem shutdown_is_final (start : EventLoop α) (others : List (List (Order α)))
    (p : Programme α) (calls : List (Call α)) :
    let m := career p calls (.start start others)
    (Silent p m.events ∧ (Asked p m.events → m.loop.isShutdown = true)) ∧
      (m.loop.isShutdown = true →
        (∀ more, ∃ later,
          (career p more m).events = m.events ++ later ∧ fired later = []) ∧
        ∀ untilShutdown jobs fuel,
          let outcome := run p untilShutdown jobs (fuel + 1) m
          outcome.1 = .shutdown ∨ outcome.1 = .endless ∧
            jobs + (begunMicrotasks m.events).length ≤
              (begunMicrotasks outcome.2.events).length) ∧
      ∀ untilShutdown jobs fuel,
        let outcome := run p untilShutdown jobs fuel m
        (outcome.1 ≠ .endless →
          outcome.2.loop.microtasks = [] ∧
          endedItems outcome.2.events = begunItems outcome.2.events ∧
          (begunMicrotasks outcome.2.events ++ outcome.2.loop.inbox) ~
            queuedItems start outcome.2.events ∧
          (∀ past, past <+: m.events ∨ (∃ item, past ++ [.ended item] <+: outcome.2.events) →
            ∀ item ∈ queuedItems start past, item ∈ begunMicrotasks outcome.2.events) ∧
          ∀ own, Labelled start others p calls own →
            (begunMicrotasks outcome.2.events).filter (fun i => own i.job) =
              (queuedItems start outcome.2.events).filter (fun i => own i.job) ∧
            (begunMicrotasks outcome.2.events).filter (fun i => !own i.job) <+:
              (queuedItems start outcome.2.events).filter fun i => !own i.job) ∧
        (untilShutdown = true → outcome.1 = .endless ∨ outcome.1 = .asleep ∨
          Requested start others p calls outcome.2.events) := by
  intro m
  have orderly : Orderly start p (.start start others) m :=
    (start_orderly start p others).career calls
  refine ⟨⟨orderly.silent, orderly.heeded⟩, fun shut => ⟨fun more => ?_, ?_⟩,
    fun untilShutdown jobs fuel => ?_⟩
  · obtain ⟨later, events, still⟩ := (orderly.now.career more).since
    exact ⟨later, events, (still shut).2⟩
  · exact orderly.now.run_of_shutdown shut
  intro outcome
  constructor
  · intro ended
    obtain ⟨looked, idle⟩ :=
      ((orderly_kept start p m).run untilShutdown jobs fuel orderly.now).2 ended
    refine ⟨idle, looked.free, ?_, fun past early item => looked.begun idle early item, ?_⟩
    · have queues := looked.queues
      rwa [idle, List.nil_append] at queues
    · intro own labelled
      -- The lines are kept next to the order of the run, which tells that microtasks stand first.
      have kept := lines_kept start own p m labelled.deeds
      have lines : Lines start own m := by
        refine (((lines_kept start own p _ labelled.deeds).career calls _ ?_
          ⟨start_orderly start p others, ?_⟩)).2
        · rintro u o mem ⟨orderly, lines⟩
          obtain ⟨_, aside⟩ := aside_obey p u o
          exact ⟨orderly.aside aside, lines.obey o fun job same => labelled.calls job (same ▸ mem)⟩
        · exact start_lines start others own labelled.inbox labelled.others
      obtain ⟨⟨-, lines⟩, -⟩ :=
        (kept.run untilShutdown jobs fuel ⟨orderly.now, lines⟩).2 ended
      have ownLine := lines.ownLine
      have foreignLine := lines.foreignLine
      rw [idle, List.append_nil] at ownLine foreignLine
      refine ⟨ownLine, ?_⟩
      rw [← foreignLine, List.filter_append]
      exact List.prefix_append _ _
  · intro told
    obtain ⟨shutdown, idle⟩ := run_end p untilShutdown jobs fuel m
    have explained := ((explained_kept _ p).run untilShutdown jobs fuel
      (career_explained start others p calls)).1
    cases ended : outcome.1 with
    | endless => exact .inl rfl
    | asleep => exact .inr (.inl rfl)
    | idle => exact absurd (idle ended) (ne_false_of_eq_true told)
    | shutdown => exact .inr (.inr (explained.shut (shutdown ended)))

/-- Of two timers that are due the first asks for a microtask and for shutdown. -/
theorem shutdown_is_final_due :
    let start := ((EventLoop.empty 0).setTimeout 0 ⟨0⟩ 1).setTimeout 0 ⟨0⟩ 2
    let p : Programme Nat :=
      { deeds := fun _ job => if job = 1 then [.shutdown, .microtask 3] else []
        clock := id, turns := fun _ => [], wakes := fun _ => false }
    let m := career p [.run false 3 9, .run true 3 9] (.start start [])
    Silent p m.events ∧ m.loop.isShutdown = true ∧
      m.events.filterMap (fun | .began item _ => some item.job | _ => none) = [1, 3] := by
  refine ⟨?_, by decide +kernel, by decide +kernel⟩
  exact (shutdown_is_final _ [] _ [.run false 3 9, .run true 3 9]).1.1

end Membrane.LoopRun
