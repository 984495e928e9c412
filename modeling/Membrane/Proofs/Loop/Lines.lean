import Membrane.Proofs.Loop.Requests
/-!
The order of the microtasks of a loop that other threads post to. Those that its own thread queues
stand in one line and those from other threads in another; the loop takes each line from its front.
-/

set_option autoImplicit false

namespace Membrane.LoopRun

open Machine

variable {α : Type}

/-- Microtasks that were queued by the loop's own thread stand in one line, those of other threads in
another. -/
structure Lines (start : EventLoop α) (own : α → Bool) (m : Machine α) : Prop where
  ownLine : (begunMicrotasks m.events ++ m.loop.microtasks).filter (fun i => own i.job) =
    (queuedItems start m.events).filter fun i => own i.job
  foreignLine : (begunMicrotasks m.events ++ m.loop.microtasks ++ m.loop.inbox).filter
    (fun i => !own i.job) = (queuedItems start m.events).filter fun i => !own i.job
  inbox : ∀ item ∈ m.loop.inbox, own item.job = false
  others : ∀ orders, some orders ∈ m.others → ∀ job, .microtask job ∈ orders → own job = false

section

variable {start : EventLoop α} {own : α → Bool} {p : Programme α} {before m u : Machine α}

/-- Neither a microtask is queued nor one begun. -/
theorem Lines.of_same (lines : Lines start own m)
    (begun : begunMicrotasks u.events ++ u.loop.microtasks =
      begunMicrotasks m.events ++ m.loop.microtasks)
    (queued : queuedItems start u.events = queuedItems start m.events)
    (inbox : u.loop.inbox = m.loop.inbox) (others : u.others = m.others) : Lines start own u where
  ownLine := by
    rw [begun, queued]
    exact lines.ownLine
  foreignLine := by
    rw [begun, queued, inbox]
    exact lines.foreignLine
  inbox := inbox ▸ lines.inbox
  others := others ▸ lines.others

theorem Lines.submit (lines : Lines start own m) (caller : ThreadId) (o : Order α)
    (who : ∀ job, o = .microtask job → (own job = true ↔ caller = m.loop.owner)) :
    Lines start own (m.submit p caller o) := by
  cases o with
  | shutdown => exact lines.of_same rfl rfl rfl rfl
  | timeout delay job =>
    refine lines.of_same ?_ ?_ rfl rfl
    · exact congrArg (· ++ m.loop.microtasks)
        ((begunMicrotasks_append _ _).trans (List.append_nil _))
    · exact (queuedItems_append start _ _).trans (List.append_nil _)
  | microtask job =>
    have begun : begunMicrotasks (m.events ++ [.queued m.queued job]) = begunMicrotasks m.events :=
      (begunMicrotasks_append _ _).trans (List.append_nil _)
    have queued : queuedItems start (m.events ++ [.queued m.queued job]) =
        queuedItems start m.events ++ [.microtask m.queued job] := queuedItems_append start _ _
    have ownLine := lines.ownLine
    have foreignLine := lines.foreignLine
    rw [List.filter_append] at ownLine
    rw [List.filter_append, List.filter_append] at foreignLine
    by_cases here : caller = m.loop.owner
    · have mine : own job = true := (who job rfl).mpr here
      refine ⟨?_, ?_, ?_, lines.others⟩ <;>
        simp only [Machine.submit, Machine.queueMicrotask, withLoop, EventLoop.queueMicrotask, here,
          ↓reduceIte, begun, queued, List.filter_append, ← ownLine, ← foreignLine]
      · exact (List.append_assoc _ _ _).symm
      · simp [Item.job, mine]
      · exact lines.inbox
    · have foreign : own job = false := eq_false_of_ne_true fun mine => here ((who job rfl).mp mine)
      refine ⟨?_, ?_, ?_, lines.others⟩ <;>
        simp only [Machine.submit, Machine.queueMicrotask, withLoop, EventLoop.queueMicrotask, here,
          ↓reduceIte, begun, queued, List.filter_append, ← ownLine, ← foreignLine]
      · simp [Item.job, foreign]
      · simp only [List.append_assoc]
      · intro item mem
        rcases List.mem_append.mp mem with old | new
        · exact lines.inbox item old
        · rw [List.mem_singleton.mp new]
          exact foreign

theorem Lines.otherStep (lines : Lines start own m) (i : Nat) :
    Lines start own (m.otherStep p i) := by
  rw [Machine.otherStep]
  split
  · next o rest there =>
    have mem := List.mem_of_getElem? there
    have apart : m.other i ≠ m.loop.owner := by
      unfold Machine.other ThreadId
      omega
    have posted := lines.submit (p := p) (m.other i) o fun job microtask => by
      have foreign := lines.others _ mem job (microtask ▸ List.mem_cons_self)
      simp [foreign, apart]
    refine { posted with others := fun orders later => ?_ }
    rcases List.mem_or_eq_of_mem_set later with old | new
    · exact lines.others orders old
    · obtain rfl := Option.some.inj new
      exact fun job microtask => lines.others _ mem job (List.mem_cons_of_mem _ microtask)
  · refine { lines with others := fun orders later => ?_ }
    rcases List.mem_or_eq_of_mem_set later with old | new
    · exact lines.others orders old
    · cases new
  · exact lines

theorem Lines.meanwhile (lines : Lines start own m) : Lines start own (m.meanwhile p) :=
  meanwhile_of (fun _ _ before => { before with }) (fun _ i before => before.otherStep i) lines

theorem Lines.obey (lines : Lines start own m) (o : Order α)
    (mine : ∀ job, o = .microtask job → own job = true) : Lines start own (m.obey p o) :=
  lines.meanwhile.submit _ o fun job microtask => iff_of_true (mine job microtask) rfl

theorem Lines.gather (lines : Lines start own m) : Lines start own (m.gather p) := by
  have looked := lines.meanwhile (p := p)
  apply Lines.meanwhile
  -- What is moved belongs to the other line, so the own one does not see it.
  have none : (m.meanwhile p).loop.inbox.filter (fun i => own i.job) = [] :=
    List.filter_eq_nil_iff.mpr fun item mem => ne_true_of_eq_false (looked.inbox item mem)
  refine ⟨?_, ?_, fun item mem => absurd mem List.not_mem_nil, looked.others⟩
  · rw [withLoop, EventLoop.drainInbox, ← List.append_assoc, List.filter_append, none,
      List.append_nil, looked.ownLine]
  · rw [withLoop, EventLoop.drainInbox, List.append_nil, ← List.append_assoc, looked.foreignLine]

/-- A job is run that stood first or was due; its microtasks are those of the loop's own thread. -/
theorem Lines.perform (lines : Lines start own m) (item : Item α) (l : EventLoop (Item α))
    (mine : ∀ n job other, .microtask other ∈ p.deeds n job → own other = true)
    (taken : (Event.began item m.time).microtask?.toList ++ l.microtasks = m.loop.microtasks)
    (inbox : l.inbox = m.loop.inbox) : Lines start own ((m.withLoop l).perform p item) := by
  have begun : Lines start own ((m.withLoop l).begin item) := by
    refine lines.of_same ?_ ?_ inbox rfl
    · rw [Machine.begin, record, begunMicrotasks_concat, List.append_assoc]
      exact congrArg (begunMicrotasks m.events ++ ·) taken
    · exact (queuedItems_append start _ _).trans (List.append_nil _)
  refine perform_of item begun (fun u o mem busy => ?_) fun u busy => ?_
  · exact busy.obey o fun job microtask => mine _ _ job (microtask ▸ mem)
  · refine busy.of_same ?_ ?_ rfl rfl
    · exact congrArg (· ++ u.loop.microtasks)
        ((begunMicrotasks_append _ _).trans (List.append_nil _))
    · exact (queuedItems_append start _ _).trans (List.append_nil _)

theorem lines_kept (start : EventLoop α) (own : α → Bool) (p : Programme α) (before : Machine α)
    (mine : ∀ n job other, .microtask other ∈ p.deeds n job → own other = true) :
    Kept p (fun m => Orderly start p before m ∧ Lines start own m)
      (fun m => Looked start p before m ∧ Lines start own m) where
  between _ both := ⟨both.1.toOrderly, both.2⟩
  gather _ both := ⟨both.1.gather, both.2.gather⟩
  meanwhile _ both := ⟨both.1.meanwhile, both.2.meanwhile⟩
  tick m both := ⟨(orderly_kept start p before).tick m both.1, both.2.of_same rfl rfl rfl rfl⟩
  microtask m item l both next := by
    refine ⟨(orderly_kept start p before).microtask m item l both.1 next, ?_⟩
    obtain ⟨n, job, rfl⟩ := both.1.next_microtask next
    obtain ⟨rest, microtasks, rfl⟩ := (EventLoop.next?_eq_some_iff _ l).mp next
    exact both.2.perform _ _ mine microtasks.symm rfl
  timer m t l both idle unshut due := by
    refine ⟨(orderly_kept start p before).timer m t l both.1 idle unshut due, ?_⟩
    obtain ⟨_, rest, timers, rfl⟩ := (EventLoop.due?_eq_some_iff _ t l).mp due
    have read : Lines start own (m.readClock p) :=
      both.2.meanwhile.meanwhile.of_same rfl rfl rfl rfl
    obtain ⟨_, aside⟩ := aside_look p m
    obtain ⟨n, job, timer⟩ :=
      (both.1.toOrderly.aside aside).timers t (by rw [timers]; exact List.mem_cons_self)
    refine read.meanwhile.perform _ _ mine ?_ rfl
    rw [timer]
    rfl

end

end Membrane.LoopRun
