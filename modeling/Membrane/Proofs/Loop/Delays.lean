import Membrane.Proofs.Loop.Machine
import Membrane.Proofs.Number.Rounding
import Membrane.World.Basic
/-!
When a job is due that is handed to a loop for later. A delay goes through a floating number of
milliseconds, and a deadline is turned into a delay first, with the clock read once for that and once
more when the timer is set.
-/

set_option autoImplicit false

namespace Membrane

/-- The longest time that a duration can hold, in nanoseconds. -/
def longestTime : Nat := 18446744073709551615 * 1000000000 + 999999999

/-- What an executor hands jobs to. -/
structure Scheduler (m : Type → Type) (α : Type) where
  now : m Time
  setTimeout : Number → α → m Unit

namespace Scheduler

variable {m : Type → Type} [Monad m] {α : Type} (s : Scheduler m α)

def enqueueAfter (delay : Time) (job : α) : m Unit := s.setTimeout (Act.milliseconds delay) job

/-- A deadline that has passed is due at once. -/
def enqueueAt (deadline : Time) (job : α) : m Unit := do
  let now ← s.now
  s.enqueueAfter (deadline - now) job

end Scheduler

namespace Act

/-- The loop that is installed in an executor. -/
def scheduler (e : ExecutorId) : Scheduler Act Job where
  now := do clockTime (← loopOf e)
  setTimeout delay job := do setTimeout (← loopOf e) delay job

theorem enqueueAfter_eq (e : ExecutorId) (delay : Time) (job : Job) :
    enqueueAfter e delay job = (scheduler e).enqueueAfter delay job := rfl

theorem enqueueAt_eq (e : ExecutorId) (deadline : Time) (job : Job) :
    enqueueAt e deadline job = (scheduler e).enqueueAt deadline job := by
  simp only [enqueueAt, Scheduler.enqueueAt, scheduler, bind_assoc]
  rfl

end Act

section

variable {delay : Nat}

/-- No duration has so many milliseconds that a floating number could not hold them. -/
theorem milliseconds_small (fits : delay ≤ longestTime) : (delay / 1000000).log2 < 1023 := by
  have short : delay / 1000000 < 2 ^ 80 := by
    rw [longestTime] at fits
    omega
  exact Number.log2_small short (by decide)

theorem milliseconds_finite (fits : delay ≤ longestTime) :
    (Act.milliseconds delay).isFinite = true ∧ (Act.milliseconds delay).isNegative = false :=
  ⟨Number.isFinite_ofRatio _ _ (milliseconds_small fits),
    Number.isNegative_ofRatio _ _ (milliseconds_small fits)⟩

/-- The time that a duration is as a delay: whole milliseconds, and no more of them than there is
room for. -/
theorem delayTime_milliseconds (fits : delay ≤ longestTime) :
    EventLoop.delayTime (Act.milliseconds delay) =
      min (Number.rounded (delay / 1000000)) 18446744073709551615 * 1000000 := by
  rw [EventLoop.delayTime, Act.milliseconds,
    Number.wholePart_ofNat _ (milliseconds_small fits)]
  rfl

theorem delayTime_exact (short : delay < 2 ^ 53 * 1000000) :
    EventLoop.delayTime (Act.milliseconds delay) = delay / 1000000 * 1000000 := by
  have few : delay / 1000000 < 2 ^ 53 := by omega
  have fits : delay ≤ longestTime := by
    rw [longestTime]
    omega
  rw [delayTime_milliseconds fits, Number.rounded_of_lt few, Nat.min_eq_left (by omega)]

theorem delayTime_mono {longer : Nat} (le : delay ≤ longer) (fits : longer ≤ longestTime) :
    EventLoop.delayTime (Act.milliseconds delay) ≤ EventLoop.delayTime (Act.milliseconds longer) := by
  rw [delayTime_milliseconds (le.trans fits), delayTime_milliseconds fits]
  have := Number.rounded_mono (Nat.div_le_div_right (c := 1000000) le)
  have : min (Number.rounded (delay / 1000000)) 18446744073709551615 ≤
      min (Number.rounded (longer / 1000000)) 18446744073709551615 := by omega
  exact Nat.mul_le_mul_right _ this

/-- A time below `2 ^ 63` seconds and a delay are no longer together than a duration can be. -/
theorem due_fits {time : Nat} (early : time < 2 ^ 63 * 1000000000) (fits : delay ≤ longestTime) :
    time + EventLoop.delayTime (Act.milliseconds delay) ≤ longestTime := by
  rw [delayTime_milliseconds fits, longestTime]
  have := Nat.min_le_right (Number.rounded (delay / 1000000)) 18446744073709551615
  omega

end

namespace LoopRun

variable {α : Type} (p : Programme α)

/-- The loop of a machine, for the jobs that a thread hands to it. -/
def scheduler (caller : ThreadId) : Scheduler (StateM (Machine α)) α where
  now := modifyGet fun m => ((m.tick p).time, m.tick p)
  setTimeout delay job := modify fun m => m.submit p caller (.timeout delay job)

/-- A loop has one timer more, due at a time; nothing else of it has changed. -/
def Sets (m u : Machine α) (due : Time) (job : α) : Prop :=
  u.loop = { m.loop with
    timers := EventLoop.insertTimer ⟨due, m.loop.submitted, .timer m.loop.submitted job⟩
      m.loop.timers
    submitted := m.loop.submitted + 1 }

theorem sets_enqueueAfter (caller : ThreadId) (m : Machine α) (delay : Time) (job : α) :
    Sets m (((scheduler p caller).enqueueAfter delay job).run m).2
      (p.clock m.readings + EventLoop.delayTime (Act.milliseconds delay)) job := rfl

theorem sets_enqueueAt (caller : ThreadId) (m : Machine α) (deadline : Time) (job : α) :
    Sets m (((scheduler p caller).enqueueAt deadline job).run m).2
      (p.clock (m.readings + 1) +
        EventLoop.delayTime (Act.milliseconds (deadline - p.clock m.readings))) job := rfl

/-- For delays and deadlines up to the longest duration, and a clock that never goes back and stays
below `2 ^ 63` seconds: no sum is too large and no delay is negative. A job is due when the whole
milliseconds of its delay have passed since the timer was set. From `2 ^ 53` milliseconds on, where
these are rounded, it is due no earlier than it was set, and no earlier than with a shorter delay. A
job with a deadline is due less than a millisecond before it at the earliest, and at once if the
deadline has passed. -/
theorem timers_due (forward : ∀ i j, i ≤ j → p.clock i ≤ p.clock j)
    (early : ∀ i, p.clock i < 2 ^ 63 * 1000000000) (caller : ThreadId) (m : Machine α) (job : α) :
    (∀ e delay job, Act.enqueueAfter e delay job = (Act.scheduler e).enqueueAfter delay job) ∧
      (∀ e deadline job,
        Act.enqueueAt e deadline job = (Act.scheduler e).enqueueAt deadline job) ∧
      (∀ delay, delay ≤ longestTime →
        (Act.milliseconds delay).isFinite = true ∧ (Act.milliseconds delay).isNegative = false) ∧
      (∃ due : Time → Time,
        (∀ delay, delay ≤ longestTime →
          Sets m (((scheduler p caller).enqueueAfter delay job).run m).2 (due delay) job ∧
            p.clock m.readings ≤ due delay ∧ due delay ≤ longestTime ∧
            (delay < 2 ^ 53 * 1000000 →
              due delay = p.clock m.readings + delay / 1000000 * 1000000)) ∧
        ∀ shorter longer, shorter ≤ longer → longer ≤ longestTime → due shorter ≤ due longer) ∧
      ∀ deadline, deadline ≤ longestTime →
        ∃ due, Sets m (((scheduler p caller).enqueueAt deadline job).run m).2 due job ∧
          p.clock (m.readings + 1) ≤ due ∧ due ≤ longestTime ∧
          (deadline ≤ p.clock m.readings → due = p.clock (m.readings + 1)) ∧
          (deadline < p.clock m.readings + 2 ^ 53 * 1000000 → deadline < due + 1000000) := by
  refine ⟨Act.enqueueAfter_eq, Act.enqueueAt_eq, fun _ => milliseconds_finite, ?_, ?_⟩
  · refine ⟨_, fun delay fits => ⟨sets_enqueueAfter p caller m delay job, Nat.le_add_right _ _,
      due_fits (early _) fits, fun short => by rw [delayTime_exact short]⟩, ?_⟩
    exact fun shorter longer le fits => Nat.add_le_add_left (delayTime_mono le fits) _
  · intro deadline fits
    have later : p.clock m.readings ≤ p.clock (m.readings + 1) := forward _ _ (Nat.le_succ _)
    have shorter : deadline - p.clock m.readings ≤ longestTime := (Nat.sub_le _ _).trans fits
    refine ⟨_, sets_enqueueAt p caller m deadline job, Nat.le_add_right _ _,
      due_fits (early _) shorter, fun passed => ?_, fun near => ?_⟩
    · rw [Nat.sub_eq_zero_of_le passed, delayTime_exact (by decide)]
      rfl
    · have short : deadline - p.clock m.readings < 2 ^ 53 * 1000000 := by
        unfold Time at *
        omega
      rw [delayTime_exact short]
      unfold Time at *
      omega

/-- A machine whose clock advances by a second with each of the first readings. -/
def ticking : Programme Unit where
  deeds _ _ := []
  clock n := min n 3 * 1000000000
  turns _ := []
  wakes _ := false

/-- A deadline of two and a half seconds, set when the clock showed none and then one. -/
theorem timers_due_ticking :
    (∀ i j, i ≤ j → ticking.clock i ≤ ticking.clock j) ∧
      (∀ i, ticking.clock i < 2 ^ 63 * 1000000000) ∧
      ∃ due, Sets (.start (.empty 0) [])
          (((scheduler ticking 0).enqueueAt 2500000900 ()).run (.start (.empty 0) [])).2 due () ∧
        2500000900 < due + 1000000 := by
  have forward : ∀ i j, i ≤ j → ticking.clock i ≤ ticking.clock j := fun i j le =>
    Nat.mul_le_mul_right _ (min_le_min_right 3 le)
  have early : ∀ i, ticking.clock i < 2 ^ 63 * 1000000000 := fun i =>
    Nat.mul_lt_mul_of_pos_right ((min_le_right i 3).trans_lt (by decide)) (by decide)
  obtain ⟨-, -, -, -, deadlines⟩ := timers_due ticking forward early 0 (.start (.empty 0) []) ()
  obtain ⟨due, sets, -, -, -, near⟩ := deadlines 2500000900 (by decide)
  exact ⟨forward, early, due, sets, near (by decide)⟩

end LoopRun

end Membrane
