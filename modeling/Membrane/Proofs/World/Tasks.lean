import Membrane.Proofs.World.Loop
/-!
Where the tasks stand: their states, the loops they are polled on, and the polls of them that are
queued there. Most of what happens in a world leaves all of this alone.
-/

set_option autoImplicit false

namespace Membrane

/-- Whether a job polls a task. -/
def Job.polls (t : TaskId) : Job → Bool
  | .poll u => u == t
  | _ => false

namespace World

def withTask (w : World) (t : TaskId) (x : Task) : World :=
  { w with tasks := w.tasks.setIfInBounds t x }

def taskState? (w : World) (t : TaskId) : Option TaskState := (w.tasks[t]?).map (·.state)

/-- The loop that a task is polled on. -/
def taskLoop? (w : World) (t : TaskId) : Option LoopId :=
  (w.tasks[t]?).bind fun x => w.executorLoop? x.executor

/-- How many polls of a task are queued on a loop. -/
def queuedPolls (w : World) (l : LoopId) (t : TaskId) : Nat :=
  ((w.loops[l]?).map fun c => (c.queue.microtasks ++ c.queue.inbox).countP (·.polls t)).getD 0

section

variable (w : World)

theorem taskState?_withTask (t : TaskId) (k x : Task) (present : w.tasks[t]? = some k)
    (u : TaskId) :
    (w.withTask t x).taskState? u = if u = t then some x.state else w.taskState? u := by
  simp only [taskState?, withTask, getElem?_written w.tasks t k x present]
  split <;> rfl

theorem taskLoop?_withTask (t : TaskId) (k x : Task) (present : w.tasks[t]? = some k)
    (same : x.executor = k.executor) (u : TaskId) : (w.withTask t x).taskLoop? u = w.taskLoop? u := by
  simp only [taskLoop?, withTask, getElem?_written w.tasks t k x present]
  by_cases here : u = t
  · simp [here, present, same, executorLoop?]
  · simp [here, executorLoop?]

@[simp] theorem queuedPolls_withTask (t : TaskId) (x : Task) (l : LoopId) (u : TaskId) :
    (w.withTask t x).queuedPolls l u = w.queuedPolls l u := rfl

theorem queuedPolls_post (l : LoopId) (inside : l < w.loops.size) (job : Job) (m : LoopId)
    (t : TaskId) :
    (w.post l job).queuedPolls m t =
      w.queuedPolls m t + if m = l ∧ job.polls t = true then 1 else 0 := by
  simp only [queuedPolls, post, loops_withQueue]
  by_cases same : l = m
  · subst same
    simp only [↓reduceIte, Array.getElem?_eq_getElem inside, Option.map_some, Option.getD_some,
      EventLoop.queueMicrotask, true_and]
    split <;> simp only [List.countP_append, List.countP_cons, List.countP_nil] <;> omega
  · simp [same, Ne.symm same]

@[simp] theorem taskState?_post (l : LoopId) (job : Job) (t : TaskId) :
    (w.post l job).taskState? t = w.taskState? t := rfl

@[simp] theorem taskLoop?_post (l : LoopId) (job : Job) (t : TaskId) :
    (w.post l job).taskLoop? t = w.taskLoop? t := rfl

@[simp] theorem size_withQueue (l : LoopId) (f : EventLoop Job → EventLoop Job) :
    (w.withQueue l f).loops.size = w.loops.size := by
  simp [withQueue]

@[simp] theorem size_post (l : LoopId) (job : Job) : (w.post l job).loops.size = w.loops.size :=
  size_withQueue w l _

@[simp] theorem size_withTask (t : TaskId) (x : Task) :
    (w.withTask t x).loops.size = w.loops.size := rfl

/-- A world with one more task, whose executor counts it. -/
def withNewTask (executors : Array Executor) (k : Task) : World :=
  { w with executors, tasks := w.tasks.push k }

theorem taskState?_withNewTask (executors : Array Executor) (k : Task) (u : TaskId) :
    (w.withNewTask executors k).taskState? u =
      if u = w.tasks.size then some k.state else w.taskState? u := by
  simp only [taskState?, withNewTask, getElem?_pushed]
  split <;> rfl

theorem taskLoop?_withNewTask (executors : Array Executor) (k : Task)
    (same : ∀ e, (executors[e]?).bind (·.loop) = w.executorLoop? e) (u : TaskId) :
    (w.withNewTask executors k).taskLoop? u =
      if u = w.tasks.size then w.executorLoop? k.executor else w.taskLoop? u := by
  have loops (e : ExecutorId) : (w.withNewTask executors k).executorLoop? e = w.executorLoop? e :=
    same e
  simp only [taskLoop?, loops]
  simp only [withNewTask, getElem?_pushed]
  split <;> rfl

@[simp] theorem queuedPolls_withNewTask (executors : Array Executor) (k : Task) (l : LoopId)
    (u : TaskId) : (w.withNewTask executors k).queuedPolls l u = w.queuedPolls l u := rfl

@[simp] theorem size_withNewTask (executors : Array Executor) (k : Task) :
    (w.withNewTask executors k).loops.size = w.loops.size := rfl

/-- The next job of a loop is no longer queued. -/
theorem queuedPolls_next (l : LoopId) (job : Job) (v : World) (next : w.next? l = some (job, v))
    (m : LoopId) (t : TaskId) :
    w.queuedPolls m t = v.queuedPolls m t + if m = l ∧ job.polls t = true then 1 else 0 := by
  obtain ⟨c, rest, present, jobs, rfl⟩ := w.next?_eq_some l job v next
  simp only [queuedPolls, loops_withQueue]
  by_cases here : l = m
  · subst here
    simp only [present, ↓reduceIte, Option.map_some, Option.getD_some, jobs, List.countP_cons,
      List.append_nil, true_and]
  · simp [here, Ne.symm here]

end

/-- What may happen without anything happening to the tasks. -/
structure Calm (w w' : World) : Prop where
  state : ∀ t, w'.taskState? t = w.taskState? t
  loop : ∀ t l, w.taskLoop? t = some l → w'.taskLoop? t = some l
  loops : w.loops.size ≤ w'.loops.size
  polls : ∀ l t, w'.queuedPolls l t = w.queuedPolls l t

namespace Calm

theorem refl (w : World) : Calm w w :=
  ⟨fun _ => rfl, fun _ _ same => same, Nat.le_refl _, fun _ _ => rfl⟩

theorem of_same {w w' : World} (tasks : w'.tasks = w.tasks) (loops : w'.loops = w.loops)
    (executors : w'.executors = w.executors) : Calm w w' where
  state t := by rw [taskState?, tasks, taskState?]
  loop t l same := by
    rw [← same]
    simp only [taskLoop?, executorLoop?, tasks, executors]
  loops := Nat.le_of_eq (by rw [loops])
  polls l t := by rw [queuedPolls, loops, queuedPolls]

theorem trans {u v w : World} (first : Calm u v) (rest : Calm v w) : Calm u w where
  state t := (rest.state t).trans (first.state t)
  loop t l same := rest.loop t l (first.loop t l same)
  loops := Nat.le_trans first.loops rest.loops
  polls l t := (rest.polls l t).trans (first.polls l t)

/-- The queue of a loop changes, but not the polls in it. -/
theorem modifyLoop (w : World) (l : LoopId) (f : LoopCell → LoopCell)
    (same : ∀ c t, ((f c).queue.microtasks ++ (f c).queue.inbox).countP (·.polls t) =
      (c.queue.microtasks ++ c.queue.inbox).countP (·.polls t)) :
    Calm w { w with loops := w.loops.modify l f } where
  state _ := rfl
  loop _ _ same := same
  loops := by simp
  polls m t := by
    simp only [queuedPolls, Array.getElem?_modify]
    by_cases here : l = m
    · cases present : w.loops[m]? with
      | none => simp [here]
      | some c => simpa only [here, ↓reduceIte, Option.map_some, Option.getD_some] using same c t
    · simp [here]

theorem withQueue (w : World) (l : LoopId) (f : EventLoop Job → EventLoop Job)
    (same : ∀ q t, ((f q).microtasks ++ (f q).inbox).countP (·.polls t) =
      (q.microtasks ++ q.inbox).countP (·.polls t)) : Calm w (w.withQueue l f) :=
  modifyLoop w l _ fun c => same c.queue

theorem post (w : World) (l : LoopId) (job : Job) (other : ∀ t, job.polls t = false) :
    Calm w (w.post l job) := by
  apply withQueue
  intro q t
  rw [EventLoop.queueMicrotask]
  split <;> simp [other]

/-- A job is taken that polls no task. -/
theorem next {w v : World} {l : LoopId} {job : Job} (next : w.next? l = some (job, v))
    (other : ∀ t, job.polls t = false) : Calm w v := by
  have polls := w.queuedPolls_next l job v next
  obtain ⟨q, rfl⟩ := w.next?_withQueue l job v next
  refine ⟨fun _ => rfl, fun _ _ same => same, by simp, fun m t => ?_⟩
  simp [polls, other]

theorem withTask (w : World) (t : TaskId) (k x : Task) (present : w.tasks[t]? = some k)
    (state : x.state = k.state) (executor : x.executor = k.executor) :
    Calm w (w.withTask t x) where
  state u := by
    rw [taskState?_withTask w t k x present]
    split
    · next here => rw [here, state, taskState?, present, Option.map_some]
    · rfl
  loop u l same := by rw [taskLoop?_withTask w t k x present executor, same]
  loops := Nat.le_refl _
  polls _ _ := rfl

theorem sweep (w : World) : Calm w w.sweep := by
  unfold World.sweep
  split
  · exact .refl w
  · exact .of_same rfl rfl rfl

end Calm

end World

end Membrane
