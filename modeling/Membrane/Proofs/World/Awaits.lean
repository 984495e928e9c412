import Membrane.Proofs.World.Promises
import Membrane.Proofs.World.Tasks
/-!
Tasks that wait for promises. What a task waits for, what waits with a promise, and the answers that
are queued: most of what happens in a world leaves all of this alone.
-/

set_option autoImplicit false

namespace Membrane

/-- A task that waits for a promise: the channel on which it gets the outcome, and its reference to
the promise. -/
structure Await where
  task : TaskId
  promise : PromiseId
  channel : Nat
  ref : Guest.Ref
deriving DecidableEq

/-- What a task that waits with this waits for, if that is a promise. -/
def Wait.await? (t : TaskId) : Wait → Option Await
  | .awaiting promise channel ref => some ⟨t, promise, channel, ref⟩
  | _ => none

/-- Whether a reaction goes to a task that waits. -/
def Reaction.resumes : Reaction → Bool
  | .resume _ => true
  | _ => false

namespace Job

/-- The channel on which a job answers a task that waits for a promise, and the outcome. -/
def answer? : Job → Option (Nat × Outcome)
  | .react (.resume channel) outcome => some (channel, outcome)
  | _ => none

/-- Whether a job neither polls a task nor answers one. -/
def isPlain : Job → Bool
  | .poll _ | .react (.resume _) _ => false
  | _ => true

variable (job : Job)

theorem polls_of_plain (plain : job.isPlain) (t : TaskId) : job.polls t = false := by
  cases job <;> simp_all [isPlain, polls]

theorem answer?_of_plain (plain : job.isPlain) : job.answer? = none := by
  unfold isPlain at plain
  unfold answer?
  split <;> simp_all

@[simp] theorem answer?_react_resume (channel : Nat) (outcome : Outcome) :
    (Job.react (.resume channel) outcome).answer? = some (channel, outcome) := rfl

theorem react_isPlain (reaction : Reaction) (other : reaction.resumes = false)
    (outcome : Outcome) : (Job.react reaction outcome).isPlain := by
  cases reaction with
  | resume => simp [Reaction.resumes] at other
  | log | line => rfl

/-- A job polls a task, answers one, or is plain. -/
theorem kinds : (∃ t, job = .poll t) ∨ (∃ channel outcome, job = .react (.resume channel) outcome) ∨
    job.isPlain := by
  unfold isPlain
  split
  · next t => exact .inl ⟨t, rfl⟩
  · next channel outcome => exact .inr (.inl ⟨channel, outcome, rfl⟩)
  · exact .inr (.inr rfl)

end Job

namespace World

/-- What a task waits for, if that is a promise. -/
def awaited? (w : World) (t : TaskId) : Option Await :=
  (w.tasks[t]?).bind fun k => k.wait.bind (Wait.await? t)

/-- The answers to waiting tasks that are queued on a loop. -/
def answers (w : World) (l : LoopId) : List (Nat × Outcome) :=
  ((w.loops[l]?).map fun c =>
    (c.queue.microtasks ++ c.queue.inbox).filterMap Job.answer?).getD []

def outcome? (w : World) (p : PromiseId) : Option Outcome := (w.promises[p]?).bind (·.outcome?)

/-- The reactions that wait with a promise. -/
def reactions (w : World) (p : PromiseId) : List Reaction :=
  ((w.promises[p]?).map (·.reactions)).getD []

/-- The loop that the reactions of a promise are queued on, as long as it is there. -/
def seat? (w : World) (p : PromiseId) : Option LoopId :=
  ((w.promises[p]?).map (·.loop)).filter (· < w.loops.size)

def withAwait (w : World) (channel : Nat) (c : Channel Outcome) : World :=
  { w with awaits := w.awaits.setIfInBounds channel c }

/-- A world with one more channel for an outcome. -/
def withNewAwait (w : World) : World := { w with awaits := w.awaits.push .create }

section

variable (w : World)

theorem awaited?_of_present (t : TaskId) (k : Task) (present : w.tasks[t]? = some k) :
    w.awaited? t = k.wait.bind (Wait.await? t) := by
  rw [awaited?, present, Option.bind_some]

theorem awaited?_withTask (t : TaskId) (k x : Task) (present : w.tasks[t]? = some k) (u : TaskId) :
    (w.withTask t x).awaited? u =
      if u = t then x.wait.bind (Wait.await? t) else w.awaited? u := by
  simp only [awaited?, withTask, getElem?_written w.tasks t k x present]
  split
  · next here => rw [here, Option.bind_some]
  · rfl

theorem seat?_eq_some_iff {p : PromiseId} {l : LoopId} :
    w.seat? p = some l ↔ ∃ x, w.promises[p]? = some x ∧ x.loop = l ∧ l < w.loops.size := by
  simp only [seat?, Option.filter_eq_some_iff, Option.map_eq_some_iff, decide_eq_true_eq]
  constructor
  · rintro ⟨⟨x, present, loop⟩, inside⟩
    exact ⟨x, present, loop, inside⟩
  · rintro ⟨x, present, loop, inside⟩
    exact ⟨⟨x, present, loop⟩, inside⟩

theorem answers_withQueue (l : LoopId) (f : EventLoop Job → EventLoop Job) (m : LoopId) :
    (w.withQueue l f).answers m =
      ((w.loops[m]?).map fun c =>
        let q := if l = m then f c.queue else c.queue
        (q.microtasks ++ q.inbox).filterMap Job.answer?).getD [] := by
  simp only [answers, loops_withQueue]
  split
  · cases w.loops[m]? <;> rfl
  · rfl

/-- A job that is queued answers whom it answers, if its loop is there. -/
theorem mem_answers_post (l : LoopId) (job : Job) (m : LoopId) (x : Nat × Outcome) :
    x ∈ (w.post l job).answers m ↔
      x ∈ w.answers m ∨ m = l ∧ l < w.loops.size ∧ job.answer? = some x := by
  rw [post, answers_withQueue, answers]
  cases present : w.loops[m]? with
  | none =>
    have outside := Array.getElem?_eq_none_iff.mp present
    simp only [Option.map_none, Option.getD_none, List.not_mem_nil, false_or, false_iff]
    rintro ⟨rfl, inside, _⟩
    exact Nat.not_lt.mpr outside inside
  | some c =>
    have inside : m < w.loops.size := (Array.getElem?_eq_some_iff.mp present).1
    simp only [Option.map_some, Option.getD_some]
    by_cases here : l = m
    · subst here
      simp only [↓reduceIte, EventLoop.queueMicrotask, inside, true_and]
      split
      all_goals
        simp only [List.mem_filterMap, List.mem_append, List.mem_singleton]
        grind
    · simp [here, Ne.symm here]

/-- The next job of a loop is no longer queued. -/
theorem answers_next (l : LoopId) (job : Job) (v : World) (next : w.next? l = some (job, v))
    (m : LoopId) : w.answers m = (if m = l then job.answer?.toList else []) ++ v.answers m := by
  obtain ⟨c, rest, present, jobs, rfl⟩ := w.next?_eq_some l job v next
  rw [answers_withQueue, answers]
  by_cases here : l = m
  · subst here
    simp only [present, ↓reduceIte, Option.map_some, Option.getD_some, jobs, List.append_nil,
      List.filterMap_cons]
    cases job.answer? <;> rfl
  · simp [here, Ne.symm here]

theorem withAwait_self (channel : Nat) (c : Channel Outcome)
    (present : w.awaits[channel]? = some c) : w.withAwait channel c = w := by
  rw [withAwait, written_self w.awaits channel c present]

theorem awaits_withAwait (channel : Nat) (c d : Channel Outcome)
    (present : w.awaits[channel]? = some c) (n : Nat) :
    (w.withAwait channel d).awaits[n]? = if n = channel then some d else w.awaits[n]? :=
  getElem?_written w.awaits channel c d present n

end

/-- What may happen without anything happening to promises and to what waits for them. -/
structure Silent (w w' : World) : Prop where
  awaits : w'.awaits = w.awaits
  awaited : ∀ t, w'.awaited? t = w.awaited? t
  answers : ∀ l, w'.answers l = w.answers l
  promises : ∀ (p : PromiseId) (x : Promise Reaction), w.promises[p]? = some x →
    w'.promises[p]? = some x
  outcome : ∀ p, w'.outcome? p = w.outcome? p
  reactions : ∀ p, w'.reactions p = w.reactions p
  loops : w.loops.size ≤ w'.loops.size

namespace Silent

theorem of_same {w w' : World} (tasks : w'.tasks = w.tasks) (loops : w'.loops = w.loops)
    (promises : w'.promises = w.promises) (awaits : w'.awaits = w.awaits) : Silent w w' where
  awaits := awaits
  awaited t := by rw [awaited?, tasks, awaited?]
  answers l := by rw [World.answers, loops, World.answers]
  promises p x present := by rwa [promises]
  outcome p := by rw [outcome?, promises, outcome?]
  reactions p := by rw [World.reactions, promises, World.reactions]
  loops := Nat.le_of_eq (by rw [loops])

theorem refl (w : World) : Silent w w := .of_same rfl rfl rfl rfl

theorem trans {u v w : World} (first : Silent u v) (rest : Silent v w) : Silent u w where
  awaits := rest.awaits.trans first.awaits
  awaited t := (rest.awaited t).trans (first.awaited t)
  answers l := (rest.answers l).trans (first.answers l)
  promises p x present := rest.promises p x (first.promises p x present)
  outcome p := (rest.outcome p).trans (first.outcome p)
  reactions p := (rest.reactions p).trans (first.reactions p)
  loops := Nat.le_trans first.loops rest.loops

/-- A promise that has a seat keeps it. -/
theorem seat {w w' : World} (silent : Silent w w') {p : PromiseId} {l : LoopId}
    (seat : w.seat? p = some l) : w'.seat? p = some l := by
  obtain ⟨x, present, rfl, inside⟩ := w.seat?_eq_some_iff.mp seat
  exact w'.seat?_eq_some_iff.mpr
    ⟨x, silent.promises p x present, rfl, Nat.lt_of_lt_of_le inside silent.loops⟩

/-- Loops change, but not the answers on them. -/
theorem of_loops (w : World) (loops : Array LoopCell) (size : loops.size = w.loops.size)
    (same : ∀ l, World.answers { w with loops } l = w.answers l) : Silent w { w with loops } where
  awaits := rfl
  awaited _ := rfl
  answers := same
  promises _ _ present := present
  outcome _ := rfl
  reactions _ := rfl
  loops := Nat.le_of_eq size.symm

/-- A loop changes, but not the jobs that are to be run without delay. -/
theorem modifyLoop (w : World) (l : LoopId) (f : LoopCell → LoopCell)
    (same : ∀ c, (f c).queue.microtasks = c.queue.microtasks ∧
      (f c).queue.inbox = c.queue.inbox) : Silent w { w with loops := w.loops.modify l f } := by
  refine .of_loops w _ (by simp) fun m => ?_
  simp only [World.answers, Array.getElem?_modify]
  split
  · simp [Function.comp_def, same]
  · rfl

theorem post (w : World) (l : LoopId) (job : Job) (other : job.answer? = none) :
    Silent w (w.post l job) := by
  refine .of_loops w _ (by simp) fun m => ?_
  have queued := w.answers_withQueue l (·.queueMicrotask w.here job) m
  refine queued.trans ?_
  rw [World.answers]
  congr 2
  funext c
  split
  · rw [EventLoop.queueMicrotask]
    split <;> simp [other]
  · rfl

/-- A job is taken that answers nobody. -/
theorem next {w v : World} {l : LoopId} {job : Job} (next : w.next? l = some (job, v))
    (other : job.answer? = none) : Silent w v := by
  have answers := w.answers_next l job v next
  obtain ⟨q, rfl⟩ := w.next?_withQueue l job v next
  refine .of_loops w _ (by simp) fun m => ?_
  rw [answers m, other]
  simp only [Option.toList_none, ite_self, List.nil_append]
  rfl

theorem withTask (w : World) (t : TaskId) (k x : Task) (present : w.tasks[t]? = some k)
    (same : x.wait.bind (Wait.await? t) = k.wait.bind (Wait.await? t)) :
    Silent w (w.withTask t x) where
  awaits := rfl
  awaited u := by
    rw [awaited?_withTask w t k x present, same]
    split
    · next here => rw [here, awaited?_of_present w t k present]
    · rfl
  answers _ := rfl
  promises _ _ there := there
  outcome _ := rfl
  reactions _ := rfl
  loops := Nat.le_refl _

theorem withNewTask (w : World) (executors : Array Executor) (k : Task) (free : k.wait = none) :
    Silent w (w.withNewTask executors k) where
  awaits := rfl
  awaited u := by
    simp only [awaited?, World.withNewTask, getElem?_pushed]
    split
    · next here => simp [here, free]
    · rfl
  answers _ := rfl
  promises _ _ there := there
  outcome _ := rfl
  reactions _ := rfl
  loops := Nat.le_refl _

theorem newPromise (w : World) (l : LoopId) :
    Silent w { w with promises := w.promises.push (.create l) } where
  awaits := rfl
  awaited _ := rfl
  answers _ := rfl
  promises p x present := by
    have inside : p < w.promises.size := (Array.getElem?_eq_some_iff.mp present).1
    rw [getElem?_pushed, if_neg (Nat.ne_of_lt inside), present]
  outcome p := by
    simp only [outcome?, getElem?_pushed]
    split
    · next here => simp [here, Promise.create, Promise.outcome?]
    · rfl
  reactions p := by
    simp only [World.reactions, getElem?_pushed]
    split
    · next here => simp [here, Promise.create, Promise.reactions]
    · rfl
  loops := Nat.le_refl _

theorem sweep (w : World) : Silent w w.sweep := by
  unfold World.sweep
  split
  · exact .refl w
  · exact .of_same rfl rfl rfl rfl

end Silent

/-- Reactions poll no tasks. -/
theorem Reacts.calm {p : PromiseId} {w w' : World} (reacts : w.Reacts p w') : Calm w w' := by
  obtain ⟨x, y, jobs, _, reactions, rfl⟩ := reacts
  have written : Calm w (w.withPromise p y) := .of_same rfl rfl rfl
  refine written.trans ?_
  generalize w.withPromise p y = u
  induction jobs generalizing u with
  | nil => exact .refl u
  | cons job jobs ih =>
    obtain ⟨reaction, outcome, rfl⟩ := reactions job (.head jobs)
    have queued : Calm u (u.post x.loop (.react reaction outcome)) := .post u _ _ fun _ => rfl
    exact queued.trans (ih (fun job among => reactions job (.tail _ among)) _)

section

variable (w : World)

theorem mem_answers_posts (l : LoopId) (jobs : List Job) (m : LoopId) (y : Nat × Outcome) :
    y ∈ (w.posts l jobs).answers m ↔
      y ∈ w.answers m ∨ m = l ∧ l < w.loops.size ∧ ∃ job ∈ jobs, job.answer? = some y := by
  induction jobs generalizing w with
  | nil => simp [posts]
  | cons job jobs ih =>
    refine (ih (w.post l job)).trans ?_
    rw [mem_answers_post, size_post]
    simp only [List.mem_cons, exists_eq_or_imp]
    grind

/-- A promise comes to another state, and jobs are queued on its loop. -/
def reacted (p : PromiseId) (x : Promise Reaction) (state : PromiseState Reaction)
    (jobs : List Job) : World :=
  (w.withPromise p { x with state }).posts x.loop jobs

variable {w} {p : PromiseId} {x : Promise Reaction} (present : w.promises[p]? = some x)
  (state : PromiseState Reaction) (jobs : List Job)

theorem reacted_eq : w.reacted p x state jobs = { w with
    promises := w.promises.setIfInBounds p { x with state }
    loops := (w.reacted p x state jobs).loops } :=
  posts_eq _ x.loop jobs

theorem awaits_reacted : (w.reacted p x state jobs).awaits = w.awaits := by rw [reacted_eq]

theorem awaited?_reacted (t : TaskId) : (w.reacted p x state jobs).awaited? t = w.awaited? t := by
  rw [reacted_eq]
  rfl

theorem size_posts (l : LoopId) : (w.posts l jobs).loops.size = w.loops.size := by
  induction jobs generalizing w with
  | nil => rfl
  | cons job jobs ih => exact ih.trans (w.size_post l job)

include present

theorem promises_reacted (q : PromiseId) :
    (w.reacted p x state jobs).promises[q]? =
      if q = p then some { x with state } else w.promises[q]? := by
  rw [reacted, promises_posts, promises_withPromise w p x _ present]

theorem outcome?_reacted (q : PromiseId) : (w.reacted p x state jobs).outcome? q =
    if q = p then ({ x with state } : Promise Reaction).outcome? else w.outcome? q := by
  rw [outcome?, promises_reacted present, outcome?]
  split <;> rfl

theorem reactions_reacted (q : PromiseId) : (w.reacted p x state jobs).reactions q =
    if q = p then ({ x with state } : Promise Reaction).reactions else w.reactions q := by
  rw [reactions, promises_reacted present, reactions]
  split <;> rfl

theorem seat?_reacted (q : PromiseId) : (w.reacted p x state jobs).seat? q = w.seat? q := by
  have size : (w.reacted p x state jobs).loops.size = w.loops.size := size_posts jobs x.loop
  simp only [seat?, promises_reacted present, size]
  split
  · next here => rw [here, present]; rfl
  · rfl

theorem mem_answers_reacted (l : LoopId) (y : Nat × Outcome) :
    y ∈ (w.reacted p x state jobs).answers l ↔
      y ∈ w.answers l ∨ w.seat? p = some l ∧ ∃ job ∈ jobs, job.answer? = some y := by
  have queued := mem_answers_posts (w.withPromise p { x with state }) x.loop jobs l y
  refine queued.trans (or_congr Iff.rfl ?_)
  rw [seat?_eq_some_iff, present]
  simp only [Option.some.injEq, exists_eq_left', withPromise]
  grind

end

/-- A promise is settled. What waited with it is queued on its loop, if that is there. -/
structure Settles (p : PromiseId) (outcome : Outcome) (w w' : World) : Prop where
  calm : Calm w w'
  pending : w.outcome? p = none
  awaits : w'.awaits = w.awaits
  awaited : ∀ t, w'.awaited? t = w.awaited? t
  seat : ∀ q, w'.seat? q = w.seat? q
  outcomes : ∀ q, w'.outcome? q = if q = p then some outcome else w.outcome? q
  reactions : ∀ q, w'.reactions q = if q = p then [] else w.reactions q
  answers : ∀ l y, y ∈ w'.answers l ↔
    y ∈ w.answers l ∨ w.seat? p = some l ∧
      ∃ channel, .resume channel ∈ w.reactions p ∧ (channel, outcome) = y

theorem Settles.other {p q : PromiseId} {outcome former : Outcome} {w w' : World}
    (settles : w.Settles p outcome w') (known : w.outcome? q = some former) : q ≠ p := by
  rintro rfl
  rw [settles.pending] at known
  cases known

/-- A reaction is registered with a promise. If the promise is settled, the reaction is queued on its
loop, if that is there. -/
structure Registers (p : PromiseId) (reaction : Reaction) (w w' : World) : Prop where
  calm : Calm w w'
  awaits : w'.awaits = w.awaits
  awaited : ∀ t, w'.awaited? t = w.awaited? t
  seat : ∀ q, w'.seat? q = w.seat? q
  outcomes : ∀ q, w'.outcome? q = w.outcome? q
  reactions : ∀ q, w'.reactions q =
    if q = p ∧ w.outcome? p = none then w.reactions q ++ [reaction] else w.reactions q
  answers : ∀ l y, y ∈ w'.answers l ↔
    y ∈ w.answers l ∨ w.seat? p = some l ∧
      ∃ outcome, w.outcome? p = some outcome ∧ (Job.react reaction outcome).answer? = some y

/-- What may happen without anything happening to tasks and promises. -/
structure Still (w w' : World) : Prop where
  calm : Calm w w'
  silent : Silent w w'

namespace Still

theorem of_same {w w' : World} (tasks : w'.tasks = w.tasks) (loops : w'.loops = w.loops)
    (executors : w'.executors = w.executors) (promises : w'.promises = w.promises)
    (awaits : w'.awaits = w.awaits) : Still w w' :=
  ⟨.of_same tasks loops executors, .of_same tasks loops promises awaits⟩

theorem refl (w : World) : Still w w := ⟨.refl w, .refl w⟩

theorem trans {u v w : World} (first : Still u v) (rest : Still v w) : Still u w :=
  ⟨first.calm.trans rest.calm, first.silent.trans rest.silent⟩

theorem modifyLoop (w : World) (l : LoopId) (f : LoopCell → LoopCell)
    (same : ∀ c, (f c).queue.microtasks = c.queue.microtasks ∧
      (f c).queue.inbox = c.queue.inbox) : Still w { w with loops := w.loops.modify l f } :=
  ⟨.modifyLoop w l f fun c t => by rw [(same c).1, (same c).2], .modifyLoop w l f same⟩

theorem post (w : World) (l : LoopId) (job : Job) (plain : job.isPlain) : Still w (w.post l job) :=
  ⟨.post w l job (job.polls_of_plain plain), .post w l job (job.answer?_of_plain plain)⟩

theorem next {w v : World} {l : LoopId} {job : Job} (next : w.next? l = some (job, v))
    (plain : job.isPlain) : Still w v :=
  ⟨.next next (job.polls_of_plain plain), .next next (job.answer?_of_plain plain)⟩

theorem withTask (w : World) (t : TaskId) (k x : Task) (present : w.tasks[t]? = some k)
    (state : x.state = k.state) (executor : x.executor = k.executor)
    (same : x.wait.bind (Wait.await? t) = k.wait.bind (Wait.await? t)) :
    Still w (w.withTask t x) :=
  ⟨.withTask w t k x present state executor, .withTask w t k x present same⟩

theorem newPromise (w : World) (l : LoopId) :
    Still w { w with promises := w.promises.push (.create l) } :=
  ⟨.of_same rfl rfl rfl, .newPromise w l⟩

theorem sweep (w : World) : Still w w.sweep := ⟨.sweep w, .sweep w⟩

end Still

end World

namespace Act

open World

/-- To settle a promise that is settled does nothing. -/
theorem exec_settle_eq_ok (p : PromiseId) (outcome : Outcome) (w w' : World) (first : Bool)
    (done : exec (settle p outcome) w = (.ok first, w')) :
    (first = true ∧ w.Settles p outcome w') ∨ (first = false ∧ w' = w) := by
  have calm := (reacts_settle p outcome first w w' done).calm
  obtain ⟨x, present, _⟩ := exec_fetch_bind_eq_ok _ _ _ _ _ done
  rw [exec_settle _ p x present] at done
  cases state : x.state with
  | settled former =>
    rw [state] at done
    cases done
    exact .inr ⟨rfl, rfl⟩
  | pending reactions =>
    rw [state] at done
    obtain ⟨told, rfl⟩ := Prod.mk.inj done
    cases told
    have waiting : w.reactions p = reactions := by
      rw [World.reactions, present, Option.map_some, Option.getD_some, Promise.reactions, state]
    refine .inl ⟨rfl, calm, ?_, awaits_reacted _ _, awaited?_reacted _ _, seat?_reacted present _ _,
      outcome?_reacted present _ _, reactions_reacted present _ _, ?_⟩
    · rw [outcome?, present, Option.bind_some, Promise.outcome?, state]
    · intro l y
      refine (mem_answers_reacted present _ _ l y).trans (or_congr Iff.rfl (and_congr Iff.rfl ?_))
      rw [waiting]
      constructor
      · rintro ⟨job, among, answer⟩
        obtain ⟨reaction, registered, rfl⟩ := List.mem_map.mp among
        cases reaction with
        | resume channel => exact ⟨channel, registered, Option.some.inj answer⟩
        | log | line => cases answer
      · rintro ⟨channel, registered, rfl⟩
        exact ⟨_, List.mem_map_of_mem registered, rfl⟩

theorem exec_register_eq_ok (p : PromiseId) (reaction : Reaction) (w w' : World)
    (done : exec (register p reaction) w = (.ok (), w')) : w.Registers p reaction w' := by
  have calm := (reacts_register p reaction w w' done).calm
  obtain ⟨x, present, _⟩ := exec_fetch_bind_eq_ok _ _ _ _ _ done
  rw [exec_register _ p x present] at done
  have known : w.outcome? p = x.outcome? := by rw [outcome?, present, Option.bind_some]
  have waiting : w.reactions p = x.reactions := by
    rw [World.reactions, present, Option.map_some, Option.getD_some]
  -- A settled promise is written as it was, with a job for its loop.
  obtain ⟨state', jobs, rfl, outcome, reactions, answers⟩ : ∃ state' jobs,
      w' = w.reacted p x state' jobs ∧
      ({ x with state := state' } : Promise Reaction).outcome? = x.outcome? ∧
      ({ x with state := state' } : Promise Reaction).reactions =
        (if x.outcome? = none then x.reactions ++ [reaction] else x.reactions) ∧
      ∀ y, (∃ job ∈ jobs, job.answer? = some y) ↔
        ∃ outcome, x.outcome? = some outcome ∧ (Job.react reaction outcome).answer? = some y := by
    obtain ⟨loop, pending | outcome⟩ := x
    · cases done
      exact ⟨_, [], rfl, rfl, rfl, by simp [Promise.outcome?]⟩
    · cases done
      refine ⟨.settled outcome, [.react reaction outcome], ?_, rfl, rfl, by simp [Promise.outcome?]⟩
      rw [reacted, withPromise, written_self w.promises p _ present]
      rfl
  refine ⟨calm, awaits_reacted _ _, awaited?_reacted _ _, seat?_reacted present _ _, fun q => ?_,
    fun q => ?_, fun l y => ?_⟩
  · rw [outcome?_reacted present, outcome, ← known]
    split
    · next here => rw [here]
    · rfl
  · rw [reactions_reacted present, reactions, known]
    by_cases here : q = p
    · simp [here, waiting]
    · simp [here]
  · rw [mem_answers_reacted present, answers, known]

end Act

end Membrane
