import Membrane.World.Entry
import Membrane.Proofs.Threads.Seats
/-!
Which context is the current one of a thread, whatever threads of however many runtimes attach and
detach. It is the one that the thread was attached with last, until that thread itself detaches a
context of its own that has the same number. This is the context that is still attached, but for two
cases: others may have detached it, and a context of another runtime may have its number.
-/

set_option autoImplicit false

namespace Membrane.Threads

open Process

/-- What was done to a context. -/
inductive Event where
  | attached (member : Member)
  | detached (thread : ThreadId) (member : Member)
deriving DecidableEq

/-- What is known of a thread that was to attach itself. -/
def Event.ofAttach : Except Halt Member → List Event
  | .ok m => [.attached m]
  | .error _ => []

/-- The contexts that were handed out, the last first. -/
def handedOut : List Event → List Member
  | [] => []
  | .attached m :: past => m :: handedOut past
  | .detached _ _ :: past => handedOut past

/-- The processes that threads lead to which make runtimes and loops, attach themselves, each with a
loop of its own, and detach contexts that were handed out, once or more often, their own or those of
others. What was done is told the last first. -/
inductive Run : List Event → Process → Prop
  | start : Run [] .create
  | newRuntime {past : List Event} {p : Process} (config : Config) (run : Run past p) :
      Run past (p.newRuntime config).2
  | newLoop {past : List Event} {p : Process} (thread : ThreadId) (run : Run past p) :
      Run past (p.newLoop thread)
  | attach {past : List Event} {p : Process} (thread : ThreadId) (r : RuntimeId) (l : LoopId)
      (run : Run past p) (there : r < p.runtimes.size) (mine : p.world.owner? l = some thread) :
      Run (Event.ofAttach (p.attach thread r l).1 ++ past) (p.attach thread r l).2
  | detach {past : List Event} {p : Process} (thread : ThreadId) (m : Member) (run : Run past p)
      (held : m ∈ handedOut past) : Run (.detached thread m :: past) (p.detach thread m).2

/-- The processes that threads lead to which make runtimes and loops, attach themselves with any loops,
their own or those of others, and detach contexts that were handed out. What was done is told the
last first. -/
inductive Engagement : List Event → Process → Prop
  | start : Engagement [] .create
  | newRuntime {past : List Event} {p : Process} (config : Config) (run : Engagement past p) :
      Engagement past (p.newRuntime config).2
  | newLoop {past : List Event} {p : Process} (thread : ThreadId) (run : Engagement past p) :
      Engagement past (p.newLoop thread)
  | attach {past : List Event} {p : Process} (thread : ThreadId) (r : RuntimeId) (l : LoopId)
      (run : Engagement past p) (there : r < p.runtimes.size) :
      Engagement (Event.ofAttach (p.attach thread r l).1 ++ past) (p.attach thread r l).2
  | detach {past : List Event} {p : Process} (thread : ThreadId) (m : Member)
      (run : Engagement past p) (held : m ∈ handedOut past) :
      Engagement (.detached thread m :: past) (p.detach thread m).2

theorem Run.engagement {past : List Event} {p : Process} (run : Run past p) : Engagement past p := by
  induction run with
  | start => exact .start
  | newRuntime config run engaged => exact .newRuntime config engaged
  | newLoop thread run engaged => exact .newLoop thread engaged
  | attach thread r l run there mine engaged => exact .attach thread r l engaged there
  | detach thread m run held engaged => exact .detach thread m engaged held

/-- The current context of a thread as its history tells. -/
def seat? (t : ThreadId) : List Event → Option Context
  | [] => none
  | .attached m :: past => if t = m.owner then some m.context else seat? t past
  | .detached thread m :: past =>
    if t = thread ∧ m.owner = thread ∧ (seat? t past).any (·.thread = m.context.thread) then none
    else seat? t past

/-- The context that a thread was attached with last, and what was done since. -/
def latest? (t : ThreadId) : List Event → Option (Member × List Event)
  | [] => none
  | .attached m :: past =>
    if t = m.owner then some (m, [])
    else (latest? t past).map fun (n, since) => (n, .attached m :: since)
  | .detached thread m :: past =>
    (latest? t past).map fun (n, since) => (n, .detached thread m :: since)

/-- The thread of a context has since detached a context of its own with the same number. -/
def Vacated (m : Member) (since : List Event) : Prop :=
  ∃ d, .detached m.owner d ∈ since ∧ d.owner = m.owner ∧ d.context.thread = m.context.thread

variable {past since : List Event} {p : Process}

@[simp] theorem not_vacated_nil (m : Member) : ¬ Vacated m [] := by
  simp [Vacated]

@[simp] theorem vacated_attached (m n : Member) (since : List Event) :
    Vacated m (.attached n :: since) ↔ Vacated m since := by
  simp [Vacated]

@[simp] theorem vacated_detached (m n : Member) (thread : ThreadId) (since : List Event) :
    Vacated m (.detached thread n :: since) ↔
      (thread = m.owner ∧ n.owner = m.owner ∧ n.context.thread = m.context.thread) ∨
        Vacated m since := by
  simp only [Vacated, List.mem_cons, Event.detached.injEq]
  grind

theorem seat?_of_nothing (t : ThreadId) (past : List Event) (nothing : latest? t past = none) :
    seat? t past = none := by
  induction past with
  | nil => rfl
  | cons e past ih =>
    cases e with
    | attached n =>
      by_cases mine : t = n.owner
      · simp [latest?, mine] at nothing
      · simp only [latest?, mine, if_false, Option.map_eq_none_iff] at nothing
        simp [seat?, mine, ih nothing]
    | detached thread n =>
      simp only [latest?, Option.map_eq_none_iff] at nothing
      simp [seat?, ih nothing]

/-- What a thread has is what it was attached with last, until that is vacated. -/
theorem seat?_of_latest (t : ThreadId) (past : List Event) (m : Member) (since : List Event)
    (last : latest? t past = some (m, since)) :
    m.owner = t ∧ (Vacated m since → seat? t past = none) ∧
      (¬ Vacated m since → seat? t past = some m.context) := by
  induction past generalizing since with
  | nil => simp [latest?] at last
  | cons e past ih =>
    cases e with
    | attached n =>
      by_cases mine : t = n.owner
      · simp only [latest?, mine, if_true, Option.some.injEq, Prod.mk.injEq] at last
        obtain ⟨rfl, rfl⟩ := last
        simp [seat?, mine]
      · simp only [latest?, mine, if_false, Option.map_eq_some_iff] at last
        obtain ⟨⟨k, before⟩, found, same⟩ := last
        cases same
        simpa [seat?, mine] using ih before found
    | detached thread n =>
      simp only [latest?, Option.map_eq_some_iff] at last
      obtain ⟨⟨k, before⟩, found, same⟩ := last
      cases same
      obtain ⟨rfl, gone, stays⟩ := ih before found
      refine ⟨rfl, ?_, ?_⟩
      · intro vacated
        rw [vacated_detached] at vacated
        by_cases former : Vacated k before
        · simp [seat?, gone former]
        · obtain ⟨here, own, same⟩ := vacated.resolve_right former
          simp [seat?, stays former, here, own, same]
      · intro kept
        rw [vacated_detached, not_or] at kept
        rw [seat?, stays kept.2, if_neg]
        intro leaves
        simp only [Option.any_some, decide_eq_true_eq] at leaves
        obtain ⟨rfl, own, same⟩ := leaves
        exact kept.1 ⟨rfl, own, same.symm⟩

theorem mem_handedOut_iff (m : Member) (past : List Event) :
    m ∈ handedOut past ↔ .attached m ∈ past := by
  induction past with
  | nil => simp [handedOut]
  | cons e past ih => cases e <;> simp [handedOut, ih]

/-- What was done since comes after the thread was attached. -/
theorem exists_before (t : ThreadId) (past : List Event) (m : Member) (since : List Event)
    (last : latest? t past = some (m, since)) : ∃ before, past = since ++ .attached m :: before := by
  induction past generalizing since with
  | nil => simp [latest?] at last
  | cons e past ih =>
    cases e with
    | attached n =>
      by_cases mine : t = n.owner
      · simp only [latest?, mine, if_true, Option.some.injEq, Prod.mk.injEq] at last
        obtain ⟨rfl, rfl⟩ := last
        exact ⟨past, rfl⟩
      · simp only [latest?, mine, if_false, Option.map_eq_some_iff] at last
        obtain ⟨⟨k, after⟩, found, same⟩ := last
        cases same
        obtain ⟨before, rfl⟩ := ih after found
        exact ⟨before, rfl⟩
    | detached thread n =>
      simp only [latest?, Option.map_eq_some_iff] at last
      obtain ⟨⟨k, after⟩, found, same⟩ := last
      cases same
      obtain ⟨before, rfl⟩ := ih after found
      exact ⟨before, rfl⟩

/-- What holds of a process after every run. -/
structure Tended (past : List Event) (p : Process) : Prop where
  sound : p.Sound
  housed : ∀ m ∈ handedOut past, p.owner? m.context.realm = some m.owner
  hosted : ∀ m ∈ handedOut past, ∃ runtime : Runtime, p.runtimes[m.runtime]? = some runtime
  known : ∀ t m, .detached t m ∈ past → m ∈ handedOut past
  recent : ∀ t m since, latest? t past = some (m, since) →
    ∀ u, .detached u m ∈ past → .detached u m ∈ since
  seated : ∀ t, p.current? t = seat? t past

theorem create_tended : Tended [] .create := by
  refine ⟨⟨?_, ?_, ?_⟩, ?_, ?_, ?_, ?_, ?_⟩ <;>
    simp [Process.create, World.create, World.Quiet, handedOut, seat?, current?]

theorem Tended.alike {p' : Process} (tended : Tended past p) (sound : p'.Sound)
    (alike : Alike p p') : Tended past p' := by
  refine ⟨sound, ?_, ?_, tended.known, tended.recent, ?_⟩
  · simpa only [alike.owner] using tended.housed
  · simpa only [alike.runtimes] using tended.hosted
  · simpa only [alike.current] using tended.seated

theorem runtimes_newRuntime (p : Process) (config : Config) (r : RuntimeId) :
    (p.newRuntime config).2.runtimes[r]? =
      if r = p.runtimes.size then some (.create config) else p.runtimes[r]? :=
  getElem?_pushed p.runtimes _ r

theorem Tended.newRuntime (tended : Tended past p) (config : Config) :
    Tended past (p.newRuntime config).2 := by
  refine ⟨⟨tended.sound.quiet, ?_, ?_⟩, tended.housed, ?_, tended.known, tended.recent,
    tended.seated⟩
  · intro r runtime found
    rw [runtimes_newRuntime] at found
    split at found
    · cases found
      rfl
    · exact tended.sound.idle r runtime found
  · intro r runtime found e member
    rw [runtimes_newRuntime] at found
    split at found
    · cases found
      cases member
    · exact tended.sound.registered r runtime found e member
  · intro m member
    obtain ⟨runtime, there⟩ := tended.hosted m member
    have inside := (Array.getElem?_eq_some_iff.mp there).1
    exact ⟨runtime, by rw [runtimes_newRuntime, if_neg (Nat.ne_of_lt inside), there]⟩

theorem Tended.newLoop (tended : Tended past p) (thread : ThreadId) :
    Tended past (p.newLoop thread) := by
  have alike : Alike p (p.newLoop thread) := ⟨rfl, rfl, rfl⟩
  exact tended.alike (tended.sound.alike alike rfl rfl) alike

theorem Tended.attached {p' : Process} {runtime : Runtime} (tended : Tended past p)
    (sound : p'.Sound) (m : Member) (joined : Joined p runtime m p') :
    Tended (.attached m :: past) p' := by
  have apart : ∀ n ∈ handedOut past, n.context.realm ≠ m.context.realm := by
    intro n member same
    have owned := tended.housed n member
    rw [same, joined.fresh] at owned
    cases owned
  refine ⟨sound, ?_, ?_, ?_, ?_, ?_⟩
  · intro n member
    rw [joined.owner]
    rcases List.mem_cons.mp member with rfl | former
    · simp
    · rw [if_neg (apart n former), tended.housed n former]
  · intro n member
    obtain ⟨found, there, _⟩ := joined.table
    by_cases same : n.runtime = m.runtime
    · exact ⟨found, by rw [same, there]⟩
    · rcases List.mem_cons.mp member with rfl | former
      · exact absurd rfl same
      · rw [joined.others _ same]
        exact tended.hosted n former
  · intro t n member
    have former := (List.mem_cons.mp member).resolve_left (by simp)
    exact List.mem_cons_of_mem m (tended.known t n former)
  · intro t n since last u gone
    have former := (List.mem_cons.mp gone).resolve_left (by simp)
    by_cases mine : t = m.owner
    · simp only [latest?, mine, if_true, Option.some.injEq, Prod.mk.injEq] at last
      have again := apart n (tended.known u n former)
      rw [last.1] at again
      exact absurd rfl again
    · simp only [latest?, mine, if_false, Option.map_eq_some_iff] at last
      obtain ⟨⟨k, before⟩, found, same⟩ := last
      cases same
      exact List.mem_cons_of_mem _ (tended.recent t k before found u former)
  · intro t
    rw [joined.current, seat?, tended.seated]

theorem Tended.detached {p' : Process} {runtime : Runtime} (tended : Tended past p)
    (sound : p'.Sound) (thread : ThreadId) (m : Member) (held : m ∈ handedOut past)
    (parted : Parted p runtime thread m p') : Tended (.detached thread m :: past) p' := by
  refine ⟨sound, ?_, ?_, ?_, ?_, ?_⟩
  · intro n member
    rw [parted.owner]
    exact tended.housed n member
  · intro n member
    obtain ⟨found, there, _⟩ := parted.table
    by_cases same : n.runtime = m.runtime
    · exact ⟨found, by rw [same, there]⟩
    · rw [parted.others _ same]
      exact tended.hosted n member
  · intro t n member
    rcases List.mem_cons.mp member with same | former
    · cases same
      exact held
    · exact tended.known t n former
  · intro t n since last u gone
    simp only [latest?, Option.map_eq_some_iff] at last
    obtain ⟨⟨k, before⟩, found, same⟩ := last
    cases same
    rcases List.mem_cons.mp gone with now | former
    · rw [now]
      exact List.mem_cons_self
    · exact List.mem_cons_of_mem _ (tended.recent t k before found u former)
  · intro t
    rw [parted.current, seat?, tended.seated]

theorem Engagement.tended (run : Engagement past p) : Tended past p := by
  induction run with
  | start => exact create_tended
  | newRuntime config run tended => exact tended.newRuntime config
  | newLoop thread run tended => exact tended.newLoop thread
  | attach thread r l run there tended =>
    have found := Array.getElem?_eq_getElem there
    rcases tended.sound.attach found thread l with
      ⟨p', done, sound, alike⟩ | ⟨m, p', done, sound, -, -, joined⟩
    · rw [done]
      exact tended.alike sound alike
    · rw [done]
      exact tended.attached sound m joined
  | detach thread m run held tended =>
    obtain ⟨runtime, found⟩ := tended.hosted m held
    obtain ⟨p', done, sound, parted⟩ :=
      tended.sound.detach m found (tended.housed m held) thread
    rw [done]
    exact tended.detached sound thread m held parted

theorem Run.tended (run : Run past p) : Tended past p := run.engagement.tended

theorem isAttached_of_found {runtime : Runtime} (m : Member)
    (found : p.runtimes[m.runtime]? = some runtime) :
    p.isAttached m = runtime.isAttached m.context.thread := by
  rw [isAttached, found, Option.any_some]

theorem isAttached_of_same {p' : Process} (m : Member)
    (same : p'.runtimes[m.runtime]? = p.runtimes[m.runtime]?) :
    p'.isAttached m = p.isAttached m := by
  rw [isAttached, isAttached, same]

/-- How many threads were attached to a runtime. -/
def joins (r : RuntimeId) (past : List Event) : Nat := (handedOut past).countP (·.runtime = r)

/-- As long as its numbers last, a runtime gives none of them to two threads, and lists the threads
that nobody detached. -/
structure Numbered (past : List Event) (p : Process) : Prop where
  counted : ∀ (r : RuntimeId) (runtime : Runtime), p.runtimes[r]? = some runtime →
    runtime.nextThread = .ofNat (joins r past)
  below : ∀ m ∈ handedOut past, m.context.thread.val.toNat < joins m.runtime past
  apart : ∀ m ∈ handedOut past, ∀ n ∈ handedOut past, m.runtime = n.runtime →
    m.context.thread = n.context.thread → m = n
  listed : ∀ m ∈ handedOut past, p.isAttached m = true ↔ ∀ t, .detached t m ∉ past

theorem joins_le (r : RuntimeId) (past : List Event) : joins r past ≤ (handedOut past).length :=
  List.countP_le_length

theorem joins_eq_zero (tended : Tended past p) : joins p.runtimes.size past = 0 := by
  rw [joins, List.countP_eq_zero]
  intro m member
  obtain ⟨runtime, found⟩ := tended.hosted m member
  have inside := (Array.getElem?_eq_some_iff.mp found).1
  simpa using Nat.ne_of_lt inside

theorem joins_attached (r : RuntimeId) (m : Member) (past : List Event) :
    joins r (.attached m :: past) = joins r past + if m.runtime = r then 1 else 0 := by
  simp [joins, handedOut, List.countP_cons]

theorem Numbered.alike {p' : Process} (numbered : Numbered past p) (alike : Alike p p') :
    Numbered past p' := by
  refine ⟨?_, numbered.below, numbered.apart, ?_⟩
  · simpa only [alike.runtimes] using numbered.counted
  · simpa only [isAttached, alike.runtimes] using numbered.listed

theorem Numbered.newRuntime (numbered : Numbered past p) (tended : Tended past p)
    (config : Config) : Numbered past (p.newRuntime config).2 := by
  refine ⟨?_, numbered.below, numbered.apart, ?_⟩
  · intro r runtime found
    rw [runtimes_newRuntime] at found
    split at found
    · next last =>
      cases found
      rw [last, joins_eq_zero tended]
      rfl
    · exact numbered.counted r runtime found
  · intro m member
    rw [← numbered.listed m member]
    obtain ⟨runtime, found⟩ := tended.hosted m member
    have inside := (Array.getElem?_eq_some_iff.mp found).1
    rw [isAttached, isAttached, runtimes_newRuntime, if_neg (Nat.ne_of_lt inside)]

theorem Numbered.attached {p' : Process} {runtime : Runtime} (numbered : Numbered past p)
    (tended : Tended past p) (m : Member) (found : p.runtimes[m.runtime]? = some runtime)
    (joined : Joined p runtime m p') (few : (handedOut past).length < 2 ^ 32) :
    Numbered (.attached m :: past) p' := by
  have number : m.context.thread.val.toNat = joins m.runtime past := by
    have small : joins m.runtime past < 2 ^ 32 := Nat.lt_of_le_of_lt (joins_le _ _) few
    rw [joined.number, numbered.counted _ _ found]
    simpa using Nat.mod_eq_of_lt small
  have fresh : ∀ n ∈ handedOut past, n.runtime = m.runtime →
      n.context.thread ≠ m.context.thread := by
    intro n member same numbers
    have less := numbered.below n member
    rw [numbers, number, same] at less
    exact Nat.lt_irrefl _ less
  obtain ⟨after, there, next, listed⟩ := joined.table
  refine
    { counted := fun r runtime' also => ?_
      below := fun n member => ?_
      apart := fun n member k also runtimes numbers => ?_
      listed := fun n member => ?_ }
  · rw [joins_attached]
    by_cases same : r = m.runtime
    · subst same
      rw [there, Option.some.injEq] at also
      rw [← also, next, numbered.counted _ _ found]
      simp
    · rw [joined.others r same] at also
      simp [numbered.counted r runtime' also, Ne.symm same]
  · rw [joins_attached]
    rcases List.mem_cons.mp member with rfl | former
    · simp [number]
    · exact Nat.lt_add_right _ (numbered.below n former)
  · rcases List.mem_cons.mp member with rfl | former
    · rcases List.mem_cons.mp also with rfl | second
      · rfl
      · exact absurd numbers.symm (fresh k second runtimes.symm)
    · rcases List.mem_cons.mp also with rfl | second
      · exact absurd numbers (fresh n former runtimes)
      · exact numbered.apart n former k second runtimes numbers
  · have others : (∀ t, .detached t n ∉ Event.attached m :: past) ↔ ∀ t, .detached t n ∉ past := by
      simp
    rw [others]
    rcases List.mem_cons.mp member with rfl | former
    · rw [isAttached_of_found n there, listed]
      have unknown : ∀ t, .detached t n ∉ past := by
        intro t known
        exact fresh n (tended.known t n known) rfl rfl
      simp [unknown]
    · rw [← numbered.listed n former]
      by_cases same : n.runtime = m.runtime
      · rw [isAttached_of_found n (same ▸ there), isAttached_of_found n (same ▸ found), listed]
        simp [fresh n former same]
      · rw [isAttached_of_same n (joined.others _ same)]

theorem Numbered.detached {p' : Process} {runtime : Runtime} (numbered : Numbered past p)
    (thread : ThreadId) (m : Member) (held : m ∈ handedOut past)
    (found : p.runtimes[m.runtime]? = some runtime)
    (parted : Parted p runtime thread m p') : Numbered (.detached thread m :: past) p' := by
  obtain ⟨after, there, next, listed⟩ := parted.table
  refine ⟨?_, numbered.below, numbered.apart, ?_⟩
  · intro r runtime' also
    by_cases same : r = m.runtime
    · subst same
      rw [there, Option.some.injEq] at also
      rw [← also, next]
      exact numbered.counted _ _ found
    · rw [parted.others r same] at also
      exact numbered.counted r runtime' also
  · intro n member
    have alone : (∀ t, .detached t n ∉ Event.detached thread m :: past) ↔
        n ≠ m ∧ ∀ t, .detached t n ∉ past := by
      simp only [List.mem_cons, Event.detached.injEq, not_or, not_and]
      grind
    rw [alone, ← numbered.listed n member]
    by_cases same : n.runtime = m.runtime
    · rw [isAttached_of_found n (same ▸ there), isAttached_of_found n (same ▸ found), listed]
      have named : n.context.thread = m.context.thread ↔ n = m :=
        ⟨numbered.apart n member m held same, fun alike => by rw [alike]⟩
      simp [named, and_comm]
    · rw [isAttached_of_same n (parted.others _ same)]
      have apart : n ≠ m := fun alike => same (by rw [alike])
      simp [apart]

theorem Run.numbered (run : Run past p) (few : (handedOut past).length ≤ 2 ^ 32) :
    Numbered past p := by
  induction run with
  | start =>
    refine ⟨?_, ?_, ?_, ?_⟩ <;> simp [Process.create, handedOut]
  | newRuntime config run numbered => exact (numbered few).newRuntime run.tended config
  | newLoop thread run numbered => exact (numbered few).alike ⟨rfl, rfl, rfl⟩
  | attach thread r l run there mine numbered =>
    have found := Array.getElem?_eq_getElem there
    rcases run.tended.sound.attach found thread l with
      ⟨p', done, sound, alike⟩ | ⟨m, p', done, sound, rfl, -, joined⟩
    · rw [done] at few ⊢
      exact (numbered few).alike alike
    · rw [done] at few ⊢
      exact (numbered (Nat.le_of_lt few)).attached run.tended m found joined few
  | detach thread m run held numbered =>
    obtain ⟨runtime, found⟩ := run.tended.hosted m held
    obtain ⟨p', done, sound, parted⟩ :=
      run.tended.sound.detach m found (run.tended.housed m held) thread
    rw [done]
    exact (numbered few).detached thread m held found parted

/-- The context that a thread should have: the one it was attached with last, while that is
attached. -/
def due? (p : Process) (past : List Event) (t : ThreadId) : Option Context :=
  (latest? t past).bind fun (m, _) => if p.isAttached m then some m.context else none

/-- The context that a thread was attached with last was detached, but by other threads only. -/
def Stale (past : List Event) (t : ThreadId) : Prop :=
  ∃ m since, latest? t past = some (m, since) ∧ (∃ u, .detached u m ∈ since) ∧ ¬ Vacated m since

/-- The context that a thread was attached with last was not detached, but the thread detached one
that it has of another runtime, with the same number. -/
def Mistaken (past : List Event) (t : ThreadId) : Prop :=
  ∃ m since, latest? t past = some (m, since) ∧ (∀ u, .detached u m ∉ since) ∧
    ∃ d, .detached t d ∈ since ∧ d.owner = t ∧ d.runtime ≠ m.runtime ∧
      d.context.thread = m.context.thread

/-- The entry points act on a realm when a thread calls them. -/
def ActOn (p : Process) (t : ThreadId) (r : RealmId) : Prop :=
  ∀ (α : Type) (otherwise : α) (act : RealmId → Act α),
    (Entry.inRealm otherwise act).exec { p.world with here := t } =
      (act r).exec { p.world with here := t }

/-- The entry points do nothing but fail when a thread calls them. -/
def Fail (p : Process) (t : ThreadId) : Prop :=
  ∀ (α : Type) (otherwise : α) (act : RealmId → Act α),
    (Entry.inRealm otherwise act).exec { p.world with here := t } =
      (.ok otherwise, { p.world with here := t })

theorem actOn_of_current (p : Process) (t : ThreadId) (c : Context) (current : p.current? t = some c) :
    ActOn p t c.realm := by
  intro α otherwise act
  rw [current?] at current
  simp only [Entry.inRealm, Act.exec_bind, Act.exec_get, Act.goOn_ok, current]

theorem fail_of_current (p : Process) (t : ThreadId) (current : p.current? t = none) :
    Fail p t := by
  intro α otherwise act
  rw [current?] at current
  simp only [Entry.inRealm, Act.exec_bind, Act.exec_get, Act.goOn_ok, current, Act.exec_pure]

/-- A thread is attached with what it was attached with last as long as nobody detached that. -/
theorem isAttached_latest (run : Run past p) (few : (handedOut past).length ≤ 2 ^ 32)
    (t : ThreadId) (m : Member) (last : latest? t past = some (m, since)) :
    p.isAttached m = true ↔ ∀ u, .detached u m ∉ since := by
  obtain ⟨before, split⟩ := exists_before t past m since last
  have held : m ∈ handedOut past := by simp [mem_handedOut_iff, split]
  rw [(run.numbered few).listed m held]
  constructor
  · intro stays u gone
    exact stays u (by simp [split, gone])
  · intro stays u gone
    exact stays u (run.tended.recent t m since last u gone)

/-- Two contexts with one number are of different runtimes. -/
theorem runtime_ne_of_vacated (run : Run past p) (few : (handedOut past).length ≤ 2 ^ 32)
    (m d : Member) (held : m ∈ handedOut past) (also : d ∈ handedOut past)
    (same : d.context.thread = m.context.thread) (apart : d ≠ m) : d.runtime ≠ m.runtime := by
  intro together
  exact apart ((run.numbered few).apart d also m held together same)

/-- A thread that was attached is mistaken if it was vacated although nobody detached it. -/
theorem mistaken_of_vacated (run : Run past p) (few : (handedOut past).length ≤ 2 ^ 32)
    (t : ThreadId) (m : Member) (last : latest? t past = some (m, since))
    (stays : ∀ u, .detached u m ∉ since) (vacated : Vacated m since) : Mistaken past t := by
  obtain ⟨d, gone, own, same⟩ := vacated
  obtain ⟨before, split⟩ := exists_before t past m since last
  have mine := (seat?_of_latest t past m since last).1
  have held : m ∈ handedOut past := by simp [mem_handedOut_iff, split]
  have also : d ∈ handedOut past := run.tended.known m.owner d (by simp [split, gone])
  have apart : d ≠ m := by
    intro alike
    rw [alike] at gone
    exact stays m.owner gone
  have other := runtime_ne_of_vacated run few m d held also same apart
  exact ⟨m, since, last, stays, d, mine ▸ gone, own.trans mine, other, same⟩

/-- Whatever threads attach and detach on whatever runtimes, a thread has the context that it was
attached with last while that one is attached, and none otherwise, with two exceptions: the context
was detached by other threads only, and then the entry points go on to act on its realm; or the
thread detached a context of another runtime with the same number, and then they fail. -/
theorem current?_eq_due?_iff (past : List Event) (p : Process) (run : Run past p)
    (few : (handedOut past).length ≤ 2 ^ 32) (t : ThreadId) :
    (p.current? t = due? p past t ↔ ¬ Stale past t ∧ ¬ Mistaken past t) ∧
      (Stale past t → ∃ m since, latest? t past = some (m, since) ∧ p.isAttached m = false ∧
        ActOn p t m.context.realm) ∧
      (¬ Stale past t → Fail p t ∨ ∃ m since, latest? t past = some (m, since) ∧
        p.isAttached m = true ∧ ActOn p t m.context.realm) := by
  have seated := run.tended.seated t
  cases last : latest? t past with
  | none =>
    have empty : p.current? t = none := seated.trans (seat?_of_nothing t past last)
    have content : ¬ Stale past t ∧ ¬ Mistaken past t := by
      simp [Stale, Mistaken, last]
    simp [due?, last, empty, content, fail_of_current p t empty]
  | some latest =>
    obtain ⟨m, since⟩ := latest
    have attached := isAttached_latest run few t m last
    obtain ⟨mine, gone, stays⟩ := seat?_of_latest t past m since last
    have stale : Stale past t ↔ (∃ u, .detached u m ∈ since) ∧ ¬ Vacated m since := by
      simp [Stale, last]
    have mistaken : Mistaken past t ↔ (∀ u, .detached u m ∉ since) ∧ Vacated m since := by
      constructor
      · rintro ⟨m', since', last', still, d, left, own, -, same⟩
        rw [last, Option.some.injEq, Prod.mk.injEq] at last'
        obtain ⟨rfl, rfl⟩ := last'
        exact ⟨still, d, mine ▸ left, own.trans mine.symm, same⟩
      · intro ⟨still, vacated⟩
        exact mistaken_of_vacated run few t m last still vacated
    have due : due? p past t = if p.isAttached m then some m.context else none := by
      simp [due?, last]
    rw [due, stale, mistaken]
    by_cases vacated : Vacated m since
    · have empty : p.current? t = none := seated.trans (gone vacated)
      have failing := fail_of_current p t empty
      by_cases still : p.isAttached m = true
      · simp [empty, vacated, still, attached.mp still, failing]
      · have left : ¬ ∀ u, .detached u m ∉ since := fun none => still (attached.mpr none)
        simp [empty, vacated, still, left, failing]
    · have kept : p.current? t = some m.context := seated.trans (stays vacated)
      have acting := actOn_of_current p t m.context kept
      by_cases still : p.isAttached m = true
      · simp [kept, vacated, still, attached.mp still, acting]
      · have left : ¬ ∀ u, .detached u m ∉ since := fun none => still (attached.mpr none)
        simp only [not_forall, not_not] at left
        simp [kept, vacated, still, left, acting]

/-- A process with two runtimes, and a loop of the first thread. -/
def lodging : Process := ((Process.create.newRuntime .default).2.newRuntime .default).2.newLoop 0

theorem run_lodging : Run [] lodging :=
  ((Run.start.newRuntime .default).newRuntime .default).newLoop 0

/-- The first thread as the first one of a runtime, with the realm and the executor at a place. -/
def lodger (r : RuntimeId) (place : Nat) : Member := ⟨r, 0, ⟨⟨0⟩, place, place, 0⟩⟩

/-- Another thread detaches the context of the first one, and the entry points act on its realm all
the same. The first thread detaches its context of the second runtime, and with it goes the current
one, which is of the first runtime. -/
theorem current?_of_foreign_detach :
    let p := (lodging.attach 0 0 0).2.detach 1 (lodger 0 0)
    let q := ((lodging.attach 0 1 0).2.attach 0 0 0).2.detach 0 (lodger 1 0)
    (∃ m since, latest? 0 [.detached 1 (lodger 0 0), .attached (lodger 0 0)] = some (m, since) ∧
      p.2.isAttached m = false ∧ ActOn p.2 0 m.context.realm) ∧
      q.2.current? 0 ≠
        due? q.2 [.detached 0 (lodger 1 0), .attached (lodger 0 1), .attached (lodger 1 0)] 0 := by
  intro p q
  have attached : (lodging.attach 0 0 0).1 = .ok (lodger 0 0) := by decide +kernel
  have first : (lodging.attach 0 1 0).1 = .ok (lodger 1 0) := by decide +kernel
  have second : ((lodging.attach 0 1 0).2.attach 0 0 0).1 = .ok (lodger 0 1) := by decide +kernel
  have left : Run [.detached 1 (lodger 0 0), .attached (lodger 0 0)] p.2 := by
    have run := run_lodging.attach 0 0 0 (by decide +kernel) (by decide +kernel)
    rw [attached] at run
    exact run.detach 1 (lodger 0 0) (by simp [Event.ofAttach, handedOut])
  have robbed : Run [.detached 0 (lodger 1 0), .attached (lodger 0 1), .attached (lodger 1 0)]
      q.2 := by
    have one := run_lodging.attach 0 1 0 (by decide +kernel) (by decide +kernel)
    have two := one.attach 0 0 0 (by decide +kernel) (by decide +kernel)
    rw [first, second] at two
    exact two.detach 0 (lodger 1 0) (by simp [Event.ofAttach, handedOut])
  have stale : Stale [.detached 1 (lodger 0 0), .attached (lodger 0 0)] 0 :=
    ⟨lodger 0 0, [.detached 1 (lodger 0 0)], rfl, ⟨1, by simp⟩, by simp [lodger]⟩
  have mistaken :
      Mistaken [.detached 0 (lodger 1 0), .attached (lodger 0 1), .attached (lodger 1 0)] 0 :=
    ⟨lodger 0 1, [.detached 0 (lodger 1 0)], rfl, by simp [lodger],
      lodger 1 0, by simp, rfl, by decide, rfl⟩
  refine ⟨(current?_eq_due?_iff _ p.2 left (by decide) 0).2.1 stale, ?_⟩
  intro same
  exact ((current?_eq_due?_iff _ q.2 robbed (by decide) 0).1.mp same).2 mistaken

end Membrane.Threads
