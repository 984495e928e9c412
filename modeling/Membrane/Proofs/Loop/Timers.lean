import Mathlib.Data.List.Nodup
import Membrane.Loop.EventLoop
/-!
The timers of a loop stand in the order in which they are to fire, however they were set.
-/

set_option autoImplicit false

namespace Membrane

variable {α : Type}

/-- One timer is to fire before another: it is due earlier, or at the same time and was set
earlier. -/
def Timer.Before (t u : Timer α) : Prop := t.due < u.due ∨ t.due = u.due ∧ t.seq < u.seq

theorem Timer.Before.trans {t u v : Timer α} (first : t.Before u) (rest : u.Before v) :
    t.Before v := by
  unfold Before Time at *
  omega

theorem Timer.not_before_self (t : Timer α) : ¬ t.Before t := by
  unfold Before Time
  omega

/-- A timer with a higher number that is due no earlier fires later. -/
theorem Timer.before_of_le {t u : Timer α} (due : t.due ≤ u.due) (later : t.seq < u.seq) :
    t.Before u := by
  unfold Before Time at *
  omega

theorem Timer.Before.asymm {t u : Timer α} (first : t.Before u) : ¬ u.Before t :=
  fun last => t.not_before_self (first.trans last)

namespace EventLoop

/-- The timers of a loop are in order, and each has a number of its own that was given out. -/
structure Ordered (l : EventLoop α) : Prop where
  sorted : l.timers.Pairwise Timer.Before
  distinct : (l.timers.map (·.seq)).Nodup
  numbered : ∀ t ∈ l.timers, t.seq < l.submitted

theorem insertTimer_perm (t : Timer α) (timers : List (Timer α)) :
    (insertTimer t timers).Perm (t :: timers) := by
  induction timers with
  | nil => exact List.Perm.refl _
  | cons u rest ih =>
    rw [insertTimer]
    split
    · exact List.Perm.refl _
    · exact (ih.cons u).trans (List.Perm.swap t u rest)

theorem mem_insertTimer (t u : Timer α) (timers : List (Timer α)) :
    u ∈ insertTimer t timers ↔ u = t ∨ u ∈ timers := by
  rw [(insertTimer_perm t timers).mem_iff, List.mem_cons]

/-- A timer with the last number goes behind all that are due no later. -/
theorem insertTimer_sorted (t : Timer α) (timers : List (Timer α))
    (sorted : timers.Pairwise Timer.Before) (last : ∀ u ∈ timers, u.seq < t.seq) :
    (insertTimer t timers).Pairwise Timer.Before := by
  induction timers with
  | nil => simp [insertTimer]
  | cons u rest ih =>
    obtain ⟨first, tail⟩ := List.pairwise_cons.mp sorted
    rw [insertTimer]
    split
    · next earlier =>
      apply List.pairwise_cons.mpr
      refine ⟨fun v member => ?_, sorted⟩
      have head : t.Before u := Or.inl earlier
      rcases List.mem_cons.mp member with rfl | later
      · exact head
      · exact head.trans (first v later)
    · next later =>
      apply List.pairwise_cons.mpr
      refine ⟨fun v member => ?_, ih tail fun v member => last v (List.mem_cons_of_mem u member)⟩
      rcases (mem_insertTimer t v rest).mp member with rfl | old
      · exact Timer.before_of_le (Nat.le_of_not_lt later) (last u List.mem_cons_self)
      · exact first v old

variable {l : EventLoop α}

/-- Whether the timers are in order depends on the timers alone. -/
theorem Ordered.of_same {m : EventLoop α} (ordered : l.Ordered) (timers : m.timers = l.timers)
    (submitted : m.submitted = l.submitted) : m.Ordered := by
  refine ⟨?_, ?_, ?_⟩
  · rw [timers]; exact ordered.sorted
  · rw [timers]; exact ordered.distinct
  · rw [timers, submitted]; exact ordered.numbered

theorem empty_ordered (owner : ThreadId) : (empty owner : EventLoop α).Ordered := by
  constructor <;> simp [empty]

theorem Ordered.setTimeout (ordered : l.Ordered) (now : Time) (delay : Number) (job : α) :
    (l.setTimeout now delay job).Ordered := by
  refine ⟨insertTimer_sorted _ _ ordered.sorted ordered.numbered, ?_, ?_⟩
  · have perm := (insertTimer_perm ⟨now + delayTime delay, l.submitted, job⟩ l.timers).map (·.seq)
    apply perm.nodup_iff.mpr
    apply List.nodup_cons.mpr
    refine ⟨fun member => ?_, ordered.distinct⟩
    obtain ⟨u, old, same⟩ := List.mem_map.mp member
    have := ordered.numbered u old
    simp only at same
    omega
  · intro u member
    simp only [EventLoop.setTimeout, mem_insertTimer] at member ⊢
    rcases member with rfl | old
    · exact Nat.lt_succ_self _
    · exact Nat.lt_succ_of_lt (ordered.numbered u old)

/-- The timer that is taken is due, and all that are left are to fire after it. -/
theorem due?_eq_some_iff (now : Time) (t : Timer α) (m : EventLoop α) :
    l.due? now = some (t, m) ↔
      t.due ≤ now ∧ ∃ rest, l.timers = t :: rest ∧ m = { l with timers := rest } := by
  unfold due?
  rcases l.timers with _ | ⟨u, rest⟩
  · simp
  · simp only [Option.ite_none_right_eq_some, Option.some.injEq, Prod.mk.injEq, List.cons.injEq]
    constructor
    · rintro ⟨due, rfl, rfl⟩
      exact ⟨due, rest, ⟨rfl, rfl⟩, rfl⟩
    · rintro ⟨due, _, ⟨rfl, rfl⟩, rfl⟩
      exact ⟨due, rfl, rfl⟩

theorem Ordered.tail {t : Timer α} {rest : List (Timer α)} (ordered : l.Ordered)
    (timers : l.timers = t :: rest) : { l with timers := rest }.Ordered := by
  obtain ⟨sorted, distinct, numbered⟩ := ordered
  rw [timers] at sorted distinct numbered
  refine ⟨sorted.of_cons, ?_, fun u member => numbered u (List.mem_cons_of_mem t member)⟩
  rw [List.map_cons] at distinct
  exact distinct.of_cons

theorem Ordered.least {t : Timer α} {rest : List (Timer α)} (ordered : l.Ordered)
    (timers : l.timers = t :: rest) : ∀ u ∈ rest, t.Before u := by
  have sorted := ordered.sorted
  rw [timers] at sorted
  exact (List.pairwise_cons.mp sorted).1

theorem Ordered.fresh {t : Timer α} {rest : List (Timer α)} (ordered : l.Ordered)
    (timers : l.timers = t :: rest) : ∀ u ∈ rest, u.seq ≠ t.seq := by
  have distinct := ordered.distinct
  rw [timers, List.map_cons, List.nodup_cons] at distinct
  intro u member same
  exact distinct.1 (List.mem_map.mpr ⟨u, member, same⟩)

theorem next?_eq_some_iff (job : α) (m : EventLoop α) :
    l.next? = some (job, m) ↔
      ∃ rest, l.microtasks = job :: rest ∧ m = { l with microtasks := rest } := by
  unfold next?
  rcases l.microtasks with _ | ⟨first, rest⟩
  · simp
  · simp only [Option.some.injEq, Prod.mk.injEq, List.cons.injEq]
    constructor
    · rintro ⟨rfl, rfl⟩
      exact ⟨rest, ⟨rfl, rfl⟩, rfl⟩
    · rintro ⟨_, ⟨rfl, rfl⟩, rfl⟩
      exact ⟨rfl, rfl⟩

theorem next?_eq_none_iff : l.next? = none ↔ l.microtasks = [] := by
  unfold next?
  rcases l.microtasks with _ | ⟨first, rest⟩ <;> simp

end EventLoop

end Membrane
