import Membrane.Proofs.Tasks.Frame
/-!
How tasks are polled. A poll of a task is queued while it is scheduled and at no other time. Polls of
a task do not overlap, every wake is followed by a poll, and a task that is completed is not polled
again.
-/

set_option autoImplicit false

namespace Membrane.TaskRun

open Act World

/-- What was so far of a task. -/
structure Tally where
  polling : Bool
  /-- Whether it was woken since its last poll began. -/
  woken : Bool
  done : Bool

/-- The task that something happens to. -/
@[simp] def Event.task : Event → TaskId
  | spawned t | woken t | began t | ended t _ => t

namespace Tally

def none : Tally := ⟨false, false, false⟩

def after (t : TaskId) (c : Tally) : Event → Tally
  | .spawned _ => c
  | .woken u => if u = t then { c with woken := true } else c
  | .began u => if u = t then { c with polling := true, woken := false } else c
  | .ended u completed =>
    if u = t then { c with polling := false, done := c.done || completed } else c

/-- How the state of a task tells what was so far of it. -/
def Agrees (c : Tally) : Option TaskState → Prop
  | .none => c = none
  | some .idle => c.polling = false ∧ c.woken = false ∧ c.done = false
  | some .scheduled => c.polling = false ∧ c.done = false
  | some .running => c.polling = true ∧ c.woken = false ∧ c.done = false
  | some .notified => c.polling = true ∧ c.done = false
  | some .completed => c.polling = false ∧ c.done = true

end Tally

def tally (past : List Event) (t : TaskId) : Tally := past.foldl (Tally.after t) .none

@[simp] theorem tally_concat (past : List Event) (e : Event) (t : TaskId) :
    tally (past ++ [e]) t = (tally past t).after t e := by
  simp [tally]

/-- What happens to another task does not count. -/
theorem after_other (c : Tally) (t : TaskId) (e : Event) (other : e.task ≠ t) : c.after t e = c := by
  cases e <;> simp_all [Tally.after, Event.task]

theorem count_other (past : List Event) (t : TaskId) (e : Event) (other : e.task ≠ t) :
    (past ++ [e]).count (.began t) = past.count (.began t) ∧
      (past ++ [e]).count (.woken t) = past.count (.woken t) := by
  cases e <;> simp_all [List.count_append, Event.task]

/-- How many more polls of a task are to come without another wake. -/
def owed : Option TaskState → Nat
  | none | some .scheduled | some .notified => 1
  | some .idle | some .running | some .completed => 0

/-- What is so of the tasks at any time. -/
structure Sound (past : List Event) (w : World) : Prop where
  queued : ∀ l t, w.queuedPolls l t =
    if w.taskState? t = some .scheduled ∧ w.taskLoop? t = some l then 1 else 0
  seated : ∀ t, w.taskState? t ≠ none → ∃ l, w.taskLoop? t = some l ∧ l < w.loops.size
  agrees : ∀ t, (tally past t).Agrees (w.taskState? t)
  few : ∀ t, past.count (.began t) + owed (w.taskState? t) ≤ 1 + past.count (.woken t)
  /-- A poll begins only when none is going on and the task is not completed. -/
  free : ∀ before t, before ++ [.began t] <+: past →
    (tally before t).polling = false ∧ (tally before t).done = false

theorem Sound.calm {past : List Event} {w w' : World} (sound : Sound past w) (calm : Calm w w') :
    Sound past w' where
  queued l t := by
    rw [calm.polls, calm.state, sound.queued]
    by_cases scheduled : w.taskState? t = some .scheduled
    · obtain ⟨m, loop, _⟩ := sound.seated t (by simp [scheduled])
      rw [loop, calm.loop t m loop]
    · simp [scheduled]
  seated t there := by
    rw [calm.state] at there
    obtain ⟨l, loop, inside⟩ := sound.seated t there
    exact ⟨l, calm.loop t l loop, inside.trans_le calm.loops⟩
  agrees t := by
    rw [calm.state]
    exact sound.agrees t
  few t := by
    rw [calm.state]
    exact sound.few t
  free := sound.free

/-- A task comes to another state, and what is queued of it changes with it. -/
structure Changes (t : TaskId) (now : TaskState) (w w' : World) : Prop where
  state : ∀ u, w'.taskState? u = if u = t then some now else w.taskState? u
  loop : ∀ u l, w.taskLoop? u = some l → w'.taskLoop? u = some l
  loops : w.loops.size ≤ w'.loops.size
  seat : ∃ l, w'.taskLoop? t = some l ∧ l < w'.loops.size
  others : ∀ l u, u ≠ t → w'.queuedPolls l u = w.queuedPolls l u
  polls : ∀ l, w'.queuedPolls l t = if now = .scheduled ∧ w'.taskLoop? t = some l then 1 else 0

/-- A poll is queued of a task that came to be scheduled and had none. -/
theorem Changes.post {t : TaskId} {w u : World}
    (state : ∀ s, u.taskState? s = if s = t then some .scheduled else w.taskState? s)
    (loop : ∀ s l, w.taskLoop? s = some l → u.taskLoop? s = some l)
    (loops : w.loops.size ≤ u.loops.size) (polls : ∀ m s, u.queuedPolls m s = w.queuedPolls m s)
    (unqueued : ∀ m, w.queuedPolls m t = 0) {l : LoopId} (seat : u.taskLoop? t = some l)
    (inside : l < u.loops.size) :
    Changes t .scheduled w (u.post l (.poll t)) where
  state s := by rw [taskState?_post, state]
  loop s m same := by rw [taskLoop?_post, loop s m same]
  loops := by simpa using loops
  seat := ⟨l, by rw [taskLoop?_post, seat], by simpa using inside⟩
  others m s different := by
    rw [queuedPolls_post u l inside, polls]
    simp [Job.polls, Ne.symm different]
  polls m := by
    rw [queuedPolls_post u l inside, polls, unqueued, taskLoop?_post, seat]
    simp [Job.polls, eq_comm]

theorem Sound.change {past : List Event} {w w' : World} (sound : Sound past w) (e : Event)
    (now : TaskState) (changes : Changes e.task now w w')
    (agrees : ((tally past e.task).after e.task e).Agrees (some now))
    (few : (past ++ [e]).count (.began e.task) + owed (some now) ≤
      1 + (past ++ [e]).count (.woken e.task))
    (free : e = .began e.task →
      (tally past e.task).polling = false ∧ (tally past e.task).done = false) :
    Sound (past ++ [e]) w' where
  queued l t := by
    by_cases here : t = e.task
    · simp only [here, changes.polls, changes.state, ↓reduceIte, Option.some.injEq]
    · rw [changes.others l t here, changes.state, if_neg here, sound.queued]
      by_cases scheduled : w.taskState? t = some .scheduled
      · obtain ⟨m, loop, _⟩ := sound.seated t (by simp [scheduled])
        rw [loop, changes.loop t m loop]
      · simp [scheduled]
  seated t there := by
    by_cases here : t = e.task
    · rw [here]
      exact changes.seat
    · rw [changes.state, if_neg here] at there
      obtain ⟨l, loop, inside⟩ := sound.seated t there
      exact ⟨l, changes.loop t l loop, inside.trans_le changes.loops⟩
  agrees t := by
    rw [tally_concat, changes.state]
    by_cases here : t = e.task
    · rw [if_pos here, here]
      exact agrees
    · rw [if_neg here, after_other _ t e (Ne.symm here)]
      exact sound.agrees t
  few t := by
    rw [changes.state]
    by_cases here : t = e.task
    · rw [if_pos here, here]
      exact few
    · rw [if_neg here, (count_other past t e (Ne.symm here)).1,
        (count_other past t e (Ne.symm here)).2]
      exact sound.few t
  free before t part := by
    rcases List.prefix_concat_iff.mp part with same | earlier
    · obtain ⟨rfl, last⟩ := List.append_inj' same rfl
      obtain rfl := List.cons.inj last |>.1
      exact free rfl
    · exact sound.free before t earlier

section

variable {past : List Event} {w w' : World} {t : TaskId} {k : Task}

theorem taskState?_of_present (present : w.tasks[t]? = some k) : w.taskState? t = some k.state := by
  rw [taskState?, present, Option.map_some]

theorem Sound.seat (sound : Sound past w) (present : w.tasks[t]? = some k) :
    ∃ l, w.taskLoop? t = some l ∧ l < w.loops.size :=
  sound.seated t (by simp [taskState?_of_present present])

theorem Sound.unqueued (sound : Sound past w) (present : w.tasks[t]? = some k)
    (other : k.state ≠ .scheduled) (l : LoopId) : w.queuedPolls l t = 0 := by
  simp [sound.queued, taskState?_of_present present, other]

/-- A task comes to a state in which it is not scheduled. -/
theorem Sound.written (sound : Sound past w) (present : w.tasks[t]? = some k)
    (other : k.state ≠ .scheduled) (now : TaskState) (unscheduled : now ≠ .scheduled) :
    Changes t now w (w.withTask t { k with state := now }) where
  state u := taskState?_withTask w t k _ present u
  loop u l same := by rw [taskLoop?_withTask w t k _ present (by rfl), same]
  loops := Nat.le_refl _
  seat := by
    obtain ⟨l, seat, inside⟩ := sound.seat present
    exact ⟨l, by rw [taskLoop?_withTask w t k _ present (by rfl), seat], inside⟩
  others _ _ _ := rfl
  polls l := by simp [unscheduled, sound.unqueued present other l]

/-- A task is scheduled, and a poll of it is queued. -/
theorem Sound.scheduled (sound : Sound past w) (present : w.tasks[t]? = some k)
    (other : k.state ≠ .scheduled) (l : LoopId) (installed : w.executorLoop? k.executor = some l) :
    Changes t .scheduled w ((w.withTask t { k with state := .scheduled }).post l (.poll t)) := by
  have loop := taskLoop?_withTask w t k { k with state := .scheduled } present rfl
  have here : w.taskLoop? t = some l := by simpa [taskLoop?, present] using installed
  obtain ⟨m, seat, inside⟩ := sound.seat present
  obtain rfl := Option.some.inj (here.symm.trans seat)
  exact .post (taskState?_withTask w t k _ present) (fun s m same => (loop s).trans same)
    (Nat.le_refl _) (fun _ _ => rfl) (sound.unqueued present other) ((loop t).trans here) inside

theorem Sound.unchanged (sound : Sound past w) (present : w.tasks[t]? = some k) :
    Changes t k.state w w where
  state u := by
    split
    · next here => rw [here, taskState?_of_present present]
    · rfl
  loop _ _ same := same
  loops := Nat.le_refl _
  seat := sound.seat present
  others _ _ _ := rfl
  polls l := by simp [sound.queued, taskState?_of_present present]

theorem Sound.wake (sound : Sound past w) (woken : exec (wake t) w = (.ok (), w')) :
    Sound (past ++ [.woken t]) w' := by
  obtain ⟨k, present, change⟩ := exec_wake_eq_ok t w w' woken
  have state := taskState?_of_present present
  have agrees := sound.agrees t
  have few := sound.few t
  rw [state] at agrees few
  rcases change with ⟨idle, l, installed, rfl⟩ | ⟨running, rfl⟩ | ⟨notIdle, notRunning, rfl⟩
  · rw [idle] at agrees few
    apply sound.change (.woken t) .scheduled
      (sound.scheduled present (by simp [idle]) l installed)
    · simpa [Tally.after, Tally.Agrees, Event.task] using ⟨agrees.1, agrees.2.2⟩
    · simp [List.count_append, owed, Event.task] at few ⊢
      omega
    · simp
  · rw [running] at agrees few
    apply sound.change (.woken t) .notified (sound.written present (by simp [running]) _ (by simp))
    · simpa [Tally.after, Tally.Agrees, Event.task] using ⟨agrees.1, agrees.2.2⟩
    · simp [List.count_append, owed, Event.task] at few ⊢
      omega
    · simp
  · apply sound.change (.woken t) k.state (sound.unchanged present)
    · cases state : k.state <;> simp_all [Tally.after, Tally.Agrees, Event.task]
    · simp [List.count_append, Event.task] at few ⊢
      omega
    · simp

theorem Sound.spawn (sound : Sound past w) (e : ExecutorId) (name : String) (steps : List TaskStep)
    (l : LoopId) (installed : w.executorLoop? e = some l) (inside : l < w.loops.size)
    (spawned : exec (spawn e name steps) w = (.ok t, w')) : Sound (past ++ [.spawned t]) w' := by
  obtain ⟨rfl, k, m, executors, state, _, _, made, there, loops, rfl⟩ :=
    exec_spawn_eq_ok e name steps w w' t spawned
  obtain rfl := Option.some.inj (installed.symm.trans there)
  have unborn : w.taskState? w.tasks.size = none := by simp [taskState?]
  have loop (u : TaskId) : (w.withNewTask executors k).taskLoop? u =
      if u = w.tasks.size then some l else w.taskLoop? u := by
    rw [taskLoop?_withNewTask w executors k loops, made, installed]
  have agrees := sound.agrees w.tasks.size
  have few := sound.few w.tasks.size
  rw [unborn] at agrees few
  have changes : Changes w.tasks.size .scheduled w
      ((w.withNewTask executors k).post l (.poll w.tasks.size)) := by
    refine .post (fun u => ?_) (fun u m same => ?_) (by simp)
      (queuedPolls_withNewTask w executors k) (fun m => ?_) ?_ inside
    · rw [taskState?_withNewTask, state]
    · rw [loop, if_neg, same]
      rintro rfl
      simp [taskLoop?] at same
    · simp [sound.queued, unborn]
    · rw [loop, if_pos rfl]
  apply sound.change (.spawned w.tasks.size) .scheduled changes
  · simp only [Tally.Agrees] at agrees
    simp [agrees, Tally.after, Tally.Agrees, Tally.none]
  · simpa [List.count_append, owed] using few
  · simp

/-- A poll that was queued begins. -/
theorem Sound.begin (sound : Sound past w) (l : LoopId) (v : World)
    (next : w.next? l = some (.poll t, v)) (present : v.tasks[t]? = some k) (state : TaskState)
    (starts : k.state.start? = some state) :
    Sound (past ++ [.began t]) (v.withTask t { k with state }) := by
  obtain ⟨scheduled, rfl⟩ : k.state = .scheduled ∧ state = .running := by
    cases former : k.state <;> simp_all [TaskState.start?]
  have polls := w.queuedPolls_next l (.poll t) v next
  obtain ⟨q, rfl⟩ := w.next?_withQueue l (.poll t) v next
  have before : w.taskState? t = some .scheduled := by
    rw [← scheduled]
    exact taskState?_of_present present
  have loop (u : TaskId) : ((w.withQueue l fun _ => q).withTask t
      { k with state := .running }).taskLoop? u = w.taskLoop? u :=
    taskLoop?_withTask _ t k _ present (by rfl) u
  have agrees := sound.agrees t
  have few := sound.few t
  obtain ⟨n, seat, inside⟩ := sound.seated t (by simp [before])
  have queued (m : LoopId) : w.queuedPolls m t = if n = m then 1 else 0 := by
    rw [sound.queued, before, seat]
    simp
  rw [before] at agrees few
  have changes : Changes t .running w
      ((w.withQueue l fun _ => q).withTask t { k with state := .running }) := by
    refine
      { state := taskState?_withTask _ t k _ present
        loop := fun u m same => (loop u).trans same
        loops := by simp
        seat := ⟨n, (loop t).trans seat, by simpa using inside⟩
        others := fun m u different => ?_
        polls := fun m => ?_ }
    · simp [polls, Job.polls, Ne.symm different]
    · -- The one poll that was queued is the one that begins.
      have here := polls l t
      have there := polls m t
      rw [queued] at here there
      simp only [Job.polls, BEq.rfl, and_true, ↓reduceIte, queuedPolls_withTask, reduceCtorEq,
        false_and] at here there ⊢
      split at here
      · next same =>
        subst same
        simp only [eq_comm] at there
        omega
      · omega
  apply sound.change (.began t) .running changes
  · simpa [Tally.after, Tally.Agrees] using agrees.2
  · simp [List.count_append, owed] at few ⊢
    omega
  · intro _
    exact agrees

/-- A poll ends that is going on. -/
theorem Sound.ended (sound : Sound past w) (polling : (tally past t).polling = true) (r : StepEnd)
    (answered : r ≠ .go) (waiter : Option TaskId)
    (ended : exec (endPoll t r) w = (.ok waiter, w')) :
    Sound (past ++ [.ended t r.isFinish]) w' := by
  rcases exec_endPoll_eq_ok t r answered w w' waiter ended with
    ⟨finish, u, k, calm, present, rfl⟩ | ⟨pending, k, present, ⟨running, calm⟩ | ⟨notRunning, l, installed, rfl⟩⟩
  · have sound := sound.calm calm
    have agrees := sound.agrees t
    have few := sound.few t
    rw [taskState?_of_present present] at agrees few
    have other : k.state ≠ .scheduled := by
      intro scheduled
      simp [scheduled, Tally.Agrees, polling] at agrees
    rw [finish]
    apply sound.change (.ended t true) .completed (sound.written present other _ (by simp))
    · simp [Tally.after, Tally.Agrees]
    · simp [List.count_append, owed] at few ⊢
      omega
    · simp
  · have agrees := sound.agrees t
    have few := sound.few t
    rw [taskState?_of_present present, running] at agrees few
    rw [pending]
    refine Sound.calm ?_ calm
    apply sound.change (.ended t false) .idle
      (sound.written present (by simp [running]) _ (by simp))
    · simpa [Tally.after, Tally.Agrees] using agrees.2
    · simpa [List.count_append, owed] using few
    · simp
  · have agrees := sound.agrees t
    have few := sound.few t
    rw [taskState?_of_present present] at agrees few
    have notified : k.state = .notified := by
      cases state : k.state <;> simp_all [Tally.Agrees]
    rw [notified] at agrees few
    rw [pending]
    apply sound.change (.ended t false) .scheduled
      (sound.scheduled present (by simp [notified]) l installed)
    · simpa [Tally.after, Tally.Agrees] using agrees.2
    · simpa [List.count_append, owed] using few
    · simp

end

/-- A poll that is queued is of a task that is scheduled. -/
theorem Sound.scheduled_of_next {past : List Event} {w v : World} {t : TaskId} {k : Task}
    (sound : Sound past w) (l : LoopId) (next : w.next? l = some (.poll t, v))
    (present : v.tasks[t]? = some k) : k.state = .scheduled := by
  have polls := w.queuedPolls_next l (.poll t) v next l t
  obtain ⟨q, rfl⟩ := w.next?_withQueue l (.poll t) v next
  have state : w.taskState? t = some k.state := taskState?_of_present present
  rw [sound.queued, state] at polls
  by_contra other
  simp [other, Job.polls] at polls

/-- Whatever happens keeps the tasks in order, and leaves no poll unfinished that it begins. -/
theorem Course.sound {w u : World} {events : List Event} (course : Course w events u)
    (past : List Event) (sound : Sound past w) :
    Sound (past ++ events) u ∧
      ∀ t, (tally (past ++ events) t).polling = (tally past t).polling := by
  induction course generalizing past with
  | start => simpa using sound
  | calm _ calm ih =>
    obtain ⟨before, same⟩ := ih past sound
    exact ⟨before.calm calm, same⟩
  | wake _ woken ih =>
    obtain ⟨before, same⟩ := ih past sound
    rw [← List.append_assoc]
    refine ⟨before.wake woken, fun t => ?_⟩
    rw [tally_concat, ← same, Tally.after]
    split <;> rfl
  | spawn _ installed inside spawned ih =>
    obtain ⟨before, same⟩ := ih past sound
    rw [← List.append_assoc]
    refine ⟨before.spawn _ _ _ _ installed inside spawned, fun t => ?_⟩
    rw [tally_concat, ← same, Tally.after]
  | @poll _ _ _ _ _ earlier inner l t k state r waiter _ next present starts _ answered ended ih
      inside =>
    obtain ⟨before, same⟩ := ih past sound
    have scheduled := before.scheduled_of_next l next present
    obtain ⟨q, rfl⟩ := next?_withQueue _ l (.poll t) _ next
    have begun := before.begin l _ next present state starts
    obtain ⟨during, still⟩ := inside _ begun
    have polling : (tally (past ++ earlier ++ [.began t] ++ inner) t).polling = true := by
      rw [still, tally_concat]
      simp [Tally.after]
    have order : past ++ (earlier ++ .began t :: inner ++ [.ended t r.isFinish]) =
        past ++ earlier ++ [.began t] ++ inner ++ [.ended t r.isFinish] := by simp
    rw [order]
    refine ⟨during.ended polling r answered waiter ended, fun u => ?_⟩
    by_cases here : t = u
    · subst here
      have idle : (tally (past ++ earlier) t).polling = false := by
        have agrees := before.agrees t
        rw [taskState?_of_present (by exact present), scheduled] at agrees
        exact agrees.1
      rw [tally_concat, ← same, idle]
      simp [Tally.after]
    · rw [tally_concat, after_other _ u (.ended t r.isFinish) here, still, tally_concat,
        after_other _ u (.began t) here, same]
  | stale _ next present idle ih =>
    obtain ⟨before, _⟩ := ih past sound
    have scheduled := before.scheduled_of_next _ next present
    simp [scheduled, TaskState.start?] at idle

/-! What the history of a task tells -/

theorem done_iff (past : List Event) (t : TaskId) :
    (tally past t).done = true ↔ .ended t true ∈ past := by
  induction past using List.reverseRecOn with
  | nil => simp [tally, Tally.none]
  | append_singleton past e ih =>
    rw [tally_concat, List.mem_append, ← ih]
    by_cases here : e.task = t
    · subst here
      cases e <;> simp [Tally.after]
    · rw [after_other _ t e here]
      have other : .ended t true ≠ e := by
        rintro rfl
        exact here rfl
      simp [other]

/-- A poll that began goes on until it ends. -/
theorem polling_since (past later : List Event) (t : TaskId)
    (going : ∀ completed, .ended t completed ∉ later) :
    (tally (past ++ .began t :: later) t).polling = true := by
  induction later using List.reverseRecOn with
  | nil => simp [Tally.after]
  | append_singleton later e ih =>
    have former := ih fun completed member => going completed (List.mem_append_left _ member)
    rw [← List.cons_append, ← List.append_assoc, tally_concat]
    by_cases here : e.task = t
    · subst here
      cases e with
      | ended t completed => exact (going completed (by simp)).elim
      | spawned | woken | began => simp_all [Tally.after]
    · rw [after_other _ t e here, former]

/-- A wake is remembered until a poll begins. -/
theorem woken_since (past later : List Event) (t : TaskId) (none : .began t ∉ later) :
    (tally (past ++ .woken t :: later) t).woken = true := by
  induction later using List.reverseRecOn with
  | nil => simp [Tally.after]
  | append_singleton later e ih =>
    have former := ih fun member => none (List.mem_append_left _ member)
    rw [← List.cons_append, ← List.append_assoc, tally_concat]
    by_cases here : e.task = t
    · subst here
      cases e with
      | began t => exact (none (by simp)).elim
      | spawned | woken | ended => simp_all [Tally.after]
    · rw [after_other _ t e here, former]

/-- A poll begins only when the former one has ended and the task is not completed. -/
theorem Sound.began {past later : List Event} {w : World} {t : TaskId}
    (sound : Sound (past ++ .began t :: later) w) :
    .ended t true ∉ past ∧ ∀ former between, past = former ++ .began t :: between →
      ∃ completed, .ended t completed ∈ between := by
  obtain ⟨idle, undone⟩ := sound.free past t (by simp)
  constructor
  · intro completed
    rw [(done_iff past t).mpr completed] at undone
    cases undone
  · rintro former between rfl
    by_contra going
    push Not at going
    rw [polling_since former between t going] at idle
    cases idle

/-- A wake is followed by a poll, by the end of a poll that completes the task, or by nothing yet, but
then a poll is queued. -/
theorem Sound.woken {past later : List Event} {w : World} {t : TaskId}
    (sound : Sound (past ++ .woken t :: later) w)
    (idle : (tally (past ++ .woken t :: later) t).polling = false) (undone : .ended t true ∉ past) :
    .began t ∈ later ∨ .ended t true ∈ later ∨
      ∃ l, w.taskLoop? t = some l ∧ w.queuedPolls l t = 1 := by
  by_cases begun : .began t ∈ later
  · exact Or.inl begun
  have woken := woken_since past later t begun
  have agrees := sound.agrees t
  have done := done_iff (past ++ .woken t :: later) t
  cases state : w.taskState? t with
  | none =>
    rw [state] at agrees
    rw [agrees] at woken
    cases woken
  | some s =>
    rw [state] at agrees
    cases s with
    | idle => simp_all [Tally.Agrees]
    | running | notified => simp_all [Tally.Agrees]
    | scheduled =>
      obtain ⟨l, loop, _⟩ := sound.seated t (by simp [state])
      exact Or.inr (Or.inr ⟨l, loop, by simp [sound.queued, state, loop]⟩)
    | completed => simp_all [Tally.Agrees]

end Membrane.TaskRun
