import Membrane.Proofs.Tasks.Frame
import Membrane.Proofs.Threads.Current
/-!
Which loop the executor of a context submits to, whatever threads attach themselves with whatever
loops and detach. A runtime keeps one executor for a thread, and the loop that it got first stays.
So a thread that attaches itself again, without having detached itself in between, gets a context
whose realm belongs to the new loop and whose executor submits to the former one.
-/

set_option autoImplicit false

namespace Membrane

/-- Whatever an executor is given goes to a loop: jobs and timers, the polls of a new task, and those
of a task of its that is woken. -/
structure World.Serves (w : World) (e : ExecutorId) (l : LoopId) : Prop where
  submits : ∀ moment job,
    (Act.submit (.executor e) moment job).exec w = (Act.submit (.loop l) moment job).exec w
  spawns : ∀ name steps, ∃ v : World, v.loops = w.loops ∧
    (Act.spawn e name steps).exec w = (.ok w.tasks.size, v.post l (.poll w.tasks.size))
  wakes : ∀ t k, w.tasks[t]? = some k → k.executor = e → k.state = .idle →
    (Act.wake t).exec w = (.ok (), (w.withTask t { k with state := .scheduled }).post l (.poll t))

namespace Act

open World

variable (w : World)

/-- To look at the clock of a loop changes nothing. -/
theorem world_clockTime (l : LoopId) : (exec (clockTime l) w).2 = w := by
  simp only [clockTime, loop, fetch, exec_bind, exec_get, goOn_ok]
  rcases w.loops[l]? with _ | ⟨queue, _ | _, asked⟩ <;> rfl

theorem exec_submit (e : ExecutorId) (l : LoopId) (loop : w.executorLoop? e = some l)
    (moment : Moment) (job : Job) :
    exec (submit (.executor e) moment job) w = exec (submit (.loop l) moment job) w := by
  have found := exec_loopOf w e l loop
  cases moment with
  | soon => simp only [submit, enqueue, exec_bind, found, goOn_ok]
  | after delay => simp only [submit, enqueueAfter, exec_bind, found, goOn_ok]
  | timeout delay => simp only [submit, exec_bind, found, goOn_ok]
  | deadline time =>
    have same := world_clockTime w l
    simp only [submit, enqueueAt, enqueueAfter, exec_bind, found, goOn_ok]
    rcases looked : exec (clockTime l) w with ⟨halt | t, v⟩
    · rfl
    · rw [looked] at same
      cases same
      simp only [goOn_ok, exec_bind, found]

theorem exec_spawn (e : ExecutorId) (l : LoopId) (loop : w.executorLoop? e = some l) (name : String)
    (steps : List TaskStep) :
    ∃ executors k, exec (spawn e name steps) w =
      (.ok w.tasks.size, (w.withNewTask executors k).post l (.poll w.tasks.size)) := by
  obtain ⟨x, present, installed⟩ := Option.bind_eq_some_iff.mp loop
  let executors := w.executors.setIfInBounds e { x with nextTask := x.nextTask + 1 }
  let k : Task := ⟨e, x.nextTask, name, .scheduled, none, steps, .create⟩
  have counted : (w.withNewTask executors k).executorLoop? e = some l := by
    simp only [executorLoop?, withNewTask, executors, getElem?_written w.executors e x _ present,
      ↓reduceIte, Option.bind_some, installed]
  have posted := exec_enqueue _ e l counted (.poll w.tasks.size)
  refine ⟨executors, k, ?_⟩
  simp only [withNewTask, executors, k] at posted ⊢
  simp only [spawn, executor, exec_bind, exec_fetch (fun w => w.executors[e]?) w x present, goOn_ok,
    exec_modify, exec_modifyGet, onHalt, exec_tryCatch, posted, exec_pure]

/-- An executor works for the loop that it is installed on. -/
theorem serves_of_executorLoop? (e : ExecutorId) (l : LoopId) (loop : w.executorLoop? e = some l) :
    w.Serves e l where
  submits := exec_submit w e l loop
  spawns name steps := by
    obtain ⟨executors, k, done⟩ := exec_spawn w e l loop name steps
    exact ⟨w.withNewTask executors k, rfl, done⟩
  wakes t k present own idle := exec_wake_of_idle w t k present idle l (own ▸ loop)

/-- The executor of the running thread: the one that its runtime has for it, or the next one. -/
def ownExecutor (w : World) : ExecutorId :=
  (w.runtime.executors.lookup w.here).getD w.executors.size

/-- A thread has attached itself: its realm belongs to the loop given, and its executor keeps the
loop that it has or gets that one. -/
structure Employs (w : World) (l : LoopId) (c : Context) (w' : World) : Prop where
  loop : c.loop = l
  fresh : w.realms[c.realm]? = none
  executor : c.executor = ownExecutor w
  loops : ∀ e, w'.executorLoop? e =
    if e = c.executor then some ((w.executorLoop? e).getD l) else w.executorLoop? e
  registry : ∀ t, w'.runtime.executors.lookup t =
    if t = w.here then some c.executor else w.runtime.executors.lookup t
  home : ∀ r, (w'.realms[r]?).map (·.loop) =
    if r = c.realm then some l else (w.realms[r]?).map (·.loop)

theorem executorLoop?_installed (w' : World) (e : ExecutorId) (x : Executor)
    (present : w.executors[e]? = some x) (l : LoopId)
    (written : w'.executors = w.executors.setIfInBounds e (x.install l).2) (k : ExecutorId) :
    w'.executorLoop? k =
      if k = e then some ((w.executorLoop? k).getD l) else w.executorLoop? k := by
  simp only [executorLoop?, written, getElem?_written w.executors e x _ present]
  by_cases same : k = e
  · subst same
    cases loop : x.loop <;> simp [present, Executor.install, loop]
  · simp [same]

/-- An executor that was just made is on no loop, as if it were not there. -/
theorem executorLoop?_made (name : String) (e : ExecutorId) :
    ({ w with executors := w.executors.push (.create name) } : World).executorLoop? e =
      w.executorLoop? e := by
  simp only [executorLoop?, getElem?_pushed]
  split
  · next last =>
    rw [last, Array.getElem?_size]
    rfl
  · rfl

/-- A thread that had no executor is entered with one. -/
theorem lookup_entered (entries : List (ThreadId × ExecutorId)) (thread : ThreadId) (e : ExecutorId)
    (vacant : entries.lookup thread = none) (t : ThreadId) :
    (entries ++ [(thread, e)]).lookup t = if t = thread then some e else entries.lookup t := by
  rw [List.lookup_append]
  by_cases same : t = thread
  · subst same
    simp [vacant]
  · have other : (t == thread) = false := beq_false_of_ne same
    simp [same, List.lookup_cons, other]

theorem employs_of_attach (l : LoopId) (registered : w.Registered) (c : Context) (w' : World)
    (done : exec (attach l) w = (.ok c, w')) : Employs w l c w' := by
  by_cases room : w.runtime.config.layout.hasRoom w.runtime.config.initialCapacity
  · simp only [attach, exec_bind, exec_get, goOn_ok, assertRoom, room, ↓reduceIte, exec_pure,
      newObject, onHeap, exec_modifyGet, exec_modify, currentExecutor] at done
    have home (g : ObjectId) (r : RealmId) :
        ((w.realms.push (w.newRealm l g))[r]?).map (·.loop) =
          if r = w.realms.size then some l else (w.realms[r]?).map (·.loop) := by
      rw [getElem?_pushed]
      split <;> rfl
    cases known : w.runtime.executors.lookup w.here with
    | some e =>
      obtain ⟨before, after, split, _⟩ := List.lookup_eq_some_iff.mp known
      have member : (w.here, e) ∈ w.runtime.executors := by
        rw [split]
        exact List.mem_append_right before List.mem_cons_self
      have present := Array.getElem?_eq_getElem (registered _ member)
      simp only [known, exec_pure, goOn_ok, install, executor, fetch, exec_bind, exec_get, present,
        exec_modify, exec_onRuntime, setCurrent] at done
      cases done
      have own : ownExecutor w = e := by rw [ownExecutor, known, Option.getD_some]
      refine ⟨rfl, Array.getElem?_size, own.symm, ?_, ?_, home _⟩
      · exact executorLoop?_installed w _ e _ present l rfl
      · intro t
        show w.runtime.executors.lookup t = _
        split
        · next mine => rw [mine, known]
        · rfl
    | none =>
      have made : (w.executors.push (Executor.create (w.threads[w.here]?.getD "")))[w.executors.size]? =
          some (Executor.create (w.threads[w.here]?.getD "")) := Array.getElem?_push_size
      simp only [known, newExecutor, exec_bind, exec_modifyGet, goOn_ok, exec_onRuntime, exec_pure,
        install, executor, fetch, exec_get, made, exec_modify, setCurrent] at done
      cases done
      have own : ownExecutor w = w.executors.size := by rw [ownExecutor, known, Option.getD_none]
      refine ⟨rfl, Array.getElem?_size, own.symm, ?_, ?_, home _⟩
      · intro e
        rw [← executorLoop?_made w (w.threads[w.here]?.getD "") e]
        exact executorLoop?_installed _ _ w.executors.size _ made l rfl e
      · exact lookup_entered w.runtime.executors w.here _ known
  · simp only [attach, exec_bind, exec_get, goOn_ok, assertRoom, room, Bool.false_eq_true,
      ↓reduceIte, exec_throw, goOn_error] at done
    cases done

end Act

namespace Threads

open Process

/-- The loop of the executor that a thread has in a runtime, as the history tells: the loop of the
first context that it was attached with since it last detached one of its own. -/
def installed? (r : RuntimeId) (t : ThreadId) : List Event → Option LoopId
  | [] => none
  | .attached m :: past =>
    if m.runtime = r ∧ m.owner = t then some ((installed? r t past).getD m.context.loop)
    else installed? r t past
  | .detached thread m :: past =>
    if m.runtime = r ∧ m.owner = t ∧ thread = t then none else installed? r t past

variable {past : List Event} {p : Process}

/-- The loop that a realm belongs to. -/
def realmLoop? (p : Process) (r : RealmId) : Option LoopId := (p.world.realms[r]?).map (·.loop)

/-- What holds of the executors of a process after every run. -/
structure Staffed (past : List Event) (p : Process) : Prop where
  vacant : ∀ (r : RuntimeId) (runtime : Runtime), p.runtimes[r]? = some runtime →
    ∀ t, installed? r t past = none → runtime.executors.lookup t = none
  staffed : ∀ (r : RuntimeId) (runtime : Runtime), p.runtimes[r]? = some runtime →
    ∀ t l, installed? r t past = some l →
      ∃ e, runtime.executors.lookup t = some e ∧ p.world.executorLoop? e = some l
  posts : ∀ later m before, past = later ++ .attached m :: before →
    p.world.executorLoop? m.context.executor =
        some ((installed? m.runtime m.owner before).getD m.context.loop) ∧
      realmLoop? p m.context.realm = some m.context.loop

/-- What was done keeps the loops of executors and of realms that have one. -/
structure KeepsLoops (p p' : Process) : Prop where
  executors : ∀ e l, p.world.executorLoop? e = some l → p'.world.executorLoop? e = some l
  realms : ∀ r l, realmLoop? p r = some l → realmLoop? p' r = some l

theorem Staffed.posts_kept {p' : Process} (staffed : Staffed past p) (kept : KeepsLoops p p')
    (later before : List Event) (m : Member) (split : past = later ++ .attached m :: before) :
    p'.world.executorLoop? m.context.executor =
        some ((installed? m.runtime m.owner before).getD m.context.loop) ∧
      realmLoop? p' m.context.realm = some m.context.loop := by
  obtain ⟨executor, realm⟩ := staffed.posts later m before split
  exact ⟨kept.executors _ _ executor, kept.realms _ _ realm⟩

theorem Staffed.of_same {p' : Process} (staffed : Staffed past p) (kept : KeepsLoops p p')
    (runtimes : p'.runtimes = p.runtimes) : Staffed past p' := by
  refine ⟨?_, ?_, fun later m before => staffed.posts_kept kept later before m⟩
  · rw [runtimes]
    exact staffed.vacant
  · rw [runtimes]
    intro r runtime there t l installed
    obtain ⟨e, listed, loop⟩ := staffed.staffed r runtime there t l installed
    exact ⟨e, listed, kept.executors e l loop⟩

/-- An act on a runtime may change who works for one thread, as its record tells, and nobody else. -/
theorem Staffed.changed {r : RuntimeId} {runtime : Runtime} {w' : World} {event : Event}
    (staffed : Staffed past p) (there : p.runtimes[r]? = some runtime)
    (kept : KeepsLoops p (p.updated r w')) (thread : ThreadId) (seat : Option ExecutorId)
    (told : Option LoopId)
    (registry : ∀ t, w'.runtime.executors.lookup t =
      if t = thread then seat else runtime.executors.lookup t)
    (record : ∀ s t, installed? s t (event :: past) =
      if s = r ∧ t = thread then told else installed? s t past)
    (vacant : told = none → seat = none)
    (manned : ∀ l, told = some l → ∃ e, seat = some e ∧ w'.executorLoop? e = some l)
    (posts : ∀ m, event = .attached m →
      w'.executorLoop? m.context.executor =
          some ((installed? m.runtime m.owner past).getD m.context.loop) ∧
        realmLoop? (p.updated r w') m.context.realm = some m.context.loop) :
    Staffed (event :: past) (p.updated r w') := by
  -- Every entry of a table is the one that may have changed, or was there before.
  have entry (s : RuntimeId) (after : Runtime) (found : (p.updated r w').runtimes[s]? = some after)
      (t : ThreadId) : ((s = r ∧ t = thread) ∧ after.executors.lookup t = seat) ∨
        (¬(s = r ∧ t = thread)) ∧ ∃ before, p.runtimes[s]? = some before ∧
          after.executors.lookup t = before.executors.lookup t := by
    rw [runtimes_updated there] at found
    by_cases same : s = r
    · rw [if_pos same] at found
      cases found
      rw [registry]
      by_cases own : t = thread
      · exact Or.inl ⟨⟨same, own⟩, if_pos own⟩
      · exact Or.inr ⟨fun both => own both.2, runtime, same ▸ there, if_neg own⟩
    · rw [if_neg same] at found
      exact Or.inr ⟨fun both => same both.1, after, found, rfl⟩
  refine ⟨fun s after found t unseated => ?_, fun s after found t l seated => ?_,
    fun later m before split => ?_⟩
  · rw [record] at unseated
    obtain ⟨own, seat⟩ | ⟨other, former, present, lookup⟩ := entry s after found t
    · rw [if_pos own] at unseated
      exact seat.trans (vacant unseated)
    · rw [if_neg other] at unseated
      exact lookup.trans (staffed.vacant s former present t unseated)
  · rw [record] at seated
    obtain ⟨own, seat⟩ | ⟨other, former, present, lookup⟩ := entry s after found t
    · rw [if_pos own] at seated
      obtain ⟨e, sits, loop⟩ := manned l seated
      exact ⟨e, seat.trans sits, loop⟩
    · rw [if_neg other] at seated
      obtain ⟨e, listed, loop⟩ := staffed.staffed s former present t l seated
      exact ⟨e, lookup.trans listed, kept.executors e l loop⟩
  · cases later with
    | nil =>
      cases split
      exact posts m rfl
    | cons e later =>
      cases split
      exact staffed.posts_kept kept later before m rfl

section Attached

variable {runtime : Runtime} {m : Member} {l : LoopId} {w' : World} (staffed : Staffed past p)
  (there : p.runtimes[m.runtime]? = some runtime)
  (employs : Act.Employs (p.view runtime m.owner) l m.context w')
include employs

theorem keepsLoops_attached : KeepsLoops p (p.updated m.runtime w') := by
  refine ⟨fun e a loop => ?_, fun r a home => ?_⟩
  · refine (employs.loops e).trans ?_
    rw [show (p.view runtime m.owner).executorLoop? e = some a from loop, Option.getD_some, ite_self]
  · refine (employs.home r).trans ?_
    have other : r ≠ m.context.realm := by
      rintro rfl
      rw [realmLoop?, show p.world.realms[m.context.realm]? = none from employs.fresh] at home
      cases home
    rw [if_neg other]
    exact home

include staffed there

/-- The executor of a thread that attached itself is on the loop that the thread had before, or on
the new one. -/
theorem executorLoop?_attached :
    w'.executorLoop? m.context.executor =
      some ((installed? m.runtime m.owner past).getD m.context.loop) := by
  have given := (employs.loops m.context.executor).trans (if_pos rfl)
  rw [given, employs.loop]
  have own : m.context.executor = (runtime.executors.lookup m.owner).getD p.world.executors.size :=
    employs.executor
  cases before : installed? m.runtime m.owner past with
  | none =>
    rw [staffed.vacant _ _ there _ before, Option.getD_none] at own
    have nowhere : (p.view runtime m.owner).executorLoop? m.context.executor = none := by
      rw [own, World.executorLoop?]
      show (p.world.executors[p.world.executors.size]?).bind _ = none
      rw [Array.getElem?_size, Option.bind_none]
    rw [nowhere]
  | some a =>
    obtain ⟨e, listed, loop⟩ := staffed.staffed _ _ there _ a before
    rw [listed, Option.getD_some] at own
    rw [own, show (p.view runtime m.owner).executorLoop? e = some a from loop]

theorem Staffed.attached : Staffed (.attached m :: past) (p.updated m.runtime w') := by
  have now := executorLoop?_attached staffed there employs
  refine staffed.changed there (keepsLoops_attached employs) m.owner (some m.context.executor)
    (some ((installed? m.runtime m.owner past).getD m.context.loop)) employs.registry (fun s t => ?_)
    nofun (fun l same => ⟨_, rfl, now.trans same⟩) fun n same => ?_
  · rw [installed?]
    by_cases own : m.runtime = s ∧ m.owner = t
    · obtain ⟨rfl, rfl⟩ := own
      rw [if_pos ⟨rfl, rfl⟩]
    · rw [if_neg own, if_neg fun both => own ⟨both.1.symm, both.2.symm⟩]
  · cases same
    refine ⟨now, (employs.home m.context.realm).trans ?_⟩
    rw [if_pos rfl, employs.loop]

end Attached

/-- Only the thread of a context that goes takes its executor out of the table of the runtime. -/
theorem lookup_executors_detached (w : World) (c : Context) (x : Realm) (t : ThreadId) :
    (w.detached c x).runtime.executors.lookup t =
      if t = w.here ∧ x.owner = w.here then none else w.runtime.executors.lookup t := by
  unfold World.detached World.retired Runtime.remove
  by_cases own : x.owner = w.here
  · have gone := lookup_filter (fun i => i != w.here) w.runtime.executors t
    by_cases same : t = w.here <;> simpa [own, same] using gone
  · simp [own]

theorem keepsLoops_detached (runtime : Runtime) (thread : ThreadId) (m : Member) (x : Realm) :
    KeepsLoops p (p.updated m.runtime ((p.view runtime thread).detached m.context x)) := by
  have executors : ((p.view runtime thread).detached m.context x).executors = p.world.executors := by
    unfold World.detached
    split <;> rfl
  have realms : ((p.view runtime thread).detached m.context x).realms = p.world.realms := by
    unfold World.detached
    split <;> rfl
  refine ⟨fun e l loop => ?_, fun r l home => ?_⟩
  · rw [← loop]
    exact congrArg (fun all : Array Executor => (all[e]?).bind (·.loop)) executors
  · rw [← home]
    exact congrArg (fun all : Array Realm => (all[r]?).map (·.loop)) realms

theorem Staffed.detached {runtime : Runtime} (staffed : Staffed past p) (thread : ThreadId)
    (m : Member) (there : p.runtimes[m.runtime]? = some runtime) (x : Realm)
    (owner : x.owner = m.owner) :
    Staffed (.detached thread m :: past)
      (p.updated m.runtime ((p.view runtime thread).detached m.context x)) := by
  have kept := keepsLoops_detached (p := p) runtime thread m x
  have registry : ∀ t, ((p.view runtime thread).detached m.context x).runtime.executors.lookup t =
      if t = thread ∧ m.owner = thread then none else runtime.executors.lookup t :=
    owner ▸ lookup_executors_detached (p.view runtime thread) m.context x
  by_cases own : m.owner = thread
  · refine staffed.changed there kept thread none none (fun t => ?_) (fun s t => ?_) (fun _ => rfl)
      nofun nofun
    · rw [registry]
      simp [own]
    · rw [installed?]
      simp [own, eq_comm]
  · refine staffed.changed there kept thread (runtime.executors.lookup thread)
      (installed? m.runtime thread past) (fun t => ?_) (fun s t => ?_)
      (staffed.vacant m.runtime runtime there thread) (fun l seated => ?_) nofun
    · rw [registry, if_neg fun both => own both.2]
      split
      · next same => rw [same]
      · rfl
    · rw [installed?, if_neg fun both => own (both.2.1.trans both.2.2.symm)]
      split
      · next same => rw [same.1, same.2]
      · rfl
    · obtain ⟨e, listed, loop⟩ := staffed.staffed m.runtime runtime there thread l seated
      exact ⟨e, listed, kept.executors e l loop⟩

/-- Only who was attached to a runtime has an executor there. -/
theorem exists_of_installed (r : RuntimeId) (t : ThreadId) (past : List Event) (l : LoopId)
    (installed : installed? r t past = some l) : ∃ m ∈ handedOut past, m.runtime = r := by
  induction past generalizing l with
  | nil => cases installed
  | cons e past ih =>
    cases e with
    | attached m =>
      rw [installed?] at installed
      split at installed
      · next own => exact ⟨m, List.mem_cons_self, own.1⟩
      · obtain ⟨n, member, same⟩ := ih l installed
        exact ⟨n, List.mem_cons_of_mem m member, same⟩
    | detached thread m =>
      rw [installed?] at installed
      split at installed
      · cases installed
      · exact ih l installed

theorem Staffed.newRuntime (staffed : Staffed past p) (tended : Tended past p) (config : Config) :
    Staffed past (p.newRuntime config).2 := by
  refine ⟨fun r after found t unseated => ?_, fun r after found t l seated => ?_, staffed.posts⟩
  · rw [runtimes_newRuntime] at found
    split at found
    · cases found
      rfl
    · exact staffed.vacant r after found t unseated
  · rw [runtimes_newRuntime] at found
    split at found
    · next last =>
      obtain ⟨m, member, same⟩ := exists_of_installed r t past l seated
      obtain ⟨runtime, there⟩ := tended.hosted m member
      have inside := (Array.getElem?_eq_some_iff.mp there).1
      exact absurd (same.trans last) (Nat.ne_of_lt inside)
    · exact staffed.staffed r after found t l seated

theorem Staffed.attach (staffed : Staffed past p) (tended : Tended past p) (thread : ThreadId)
    (r : RuntimeId) (l : LoopId) (there : r < p.runtimes.size) :
    Staffed (Event.ofAttach (p.attach thread r l).1 ++ past) (p.attach thread r l).2 := by
  have found := Array.getElem?_eq_getElem there
  have registered : (p.view p.runtimes[r] thread).Registered :=
    tended.sound.registered r _ found
  rcases Act.exec_attach (p.view p.runtimes[r] thread) l registered with full |
    ⟨_, _, _, _, _, done, _⟩
  · have refused : p.attach thread r l = (.error .noRoom, p.updated r (p.view p.runtimes[r] thread)) := by
      simp only [Process.attach, within_eq found, full]
      rfl
    rw [refused]
    exact staffed.of_same ⟨fun _ _ => id, fun _ _ => id⟩ (written_self _ r _ found)
  · have employs := Act.employs_of_attach _ l registered _ _ done
    rw [Process.attach, within_eq found, done]
    exact Staffed.attached staffed found employs (m := ⟨r, thread, _⟩)

theorem Engagement.staffed (run : Engagement past p) : Staffed past p := by
  induction run with
  | start =>
    refine ⟨fun r runtime found => ?_, fun r runtime found => ?_, fun later m before split => ?_⟩
    · simp [Process.create] at found
    · simp [Process.create] at found
    · simp at split
  | newRuntime config run staffed => exact staffed.newRuntime run.tended config
  | newLoop thread run staffed => exact staffed.of_same ⟨fun _ _ => id, fun _ _ => id⟩ rfl
  | attach thread r l run there staffed => exact staffed.attach run.tended thread r l there
  | detach thread m run held staffed =>
    obtain ⟨runtime, found⟩ := run.tended.hosted m held
    obtain ⟨x, present, owner⟩ := Option.map_eq_some_iff.mp (run.tended.housed m held)
    rw [run.tended.sound.detach_eq m found x present thread]
    exact staffed.detached thread m found x owner

/-- The context that a thread gets knows the loop that was given. -/
theorem attach_eq_ok (run : Engagement past p) (thread : ThreadId) (r : RuntimeId) (l : LoopId)
    (there : r < p.runtimes.size) (m : Member) (attached : (p.attach thread r l).1 = .ok m) :
    m.runtime = r ∧ m.owner = thread ∧ m.context.loop = l := by
  have found := Array.getElem?_eq_getElem there
  have registered : (p.view p.runtimes[r] thread).Registered :=
    run.tended.sound.registered r _ found
  rw [Process.attach, within_eq found] at attached
  rcases done : (Act.attach l).exec (p.view p.runtimes[r] thread) with ⟨halt | c, w'⟩
  · rw [done] at attached
    cases attached
  · rw [done] at attached
    cases attached
    exact ⟨rfl, rfl, (Act.employs_of_attach _ l registered c w' done).loop⟩

/-- A thread attaches itself to a runtime with a loop, after and before whatever other threads and
itself do. The realm of its context belongs to that loop ever after. The executor of the context goes
on to work for the loop that the thread got first since it last detached a context of its own, and
for the loop given only if there was none or it is the same. -/
theorem executor_serves (past : List Event) (p : Process) (run : Engagement past p)
    (thread : ThreadId) (r : RuntimeId) (l : LoopId) (there : r < p.runtimes.size) (m : Member)
    (attached : (p.attach thread r l).1 = .ok m) (later : List Event) (q : Process)
    (course : Engagement (later ++ .attached m :: past) q) :
    m.context.loop = l ∧ realmLoop? q m.context.realm = some l ∧
      (∀ t, World.Serves { q.world with here := t } m.context.executor
        ((installed? r thread past).getD l)) ∧
      (q.world.executorLoop? m.context.executor = some l ↔
        ∀ k, installed? r thread past = some k → k = l) := by
  obtain ⟨own, here, given⟩ : m.runtime = r ∧ m.owner = thread ∧ m.context.loop = l :=
    attach_eq_ok run thread r l there m attached
  obtain ⟨executor, home⟩ := course.staffed.posts later m past rfl
  rw [own, here, given] at executor
  rw [given] at home
  refine ⟨given, home, fun t => Act.serves_of_executorLoop? _ _ _ executor, ?_⟩
  rw [executor, Option.some.injEq]
  cases installed? r thread past with
  | none => simp
  | some k => simp

/-- A thread that was attached with its first loop. -/
def lodged : Process := (lodging.attach 0 0 0).2.newLoop 0

/-- The same thread, attached once more with its second loop. -/
def relodger : Member := ⟨0, 0, ⟨⟨1⟩, 1, 0, 1⟩⟩

theorem engagement_lodged : Engagement [.attached (lodger 0 0)] lodged := by
  have attached : (lodging.attach 0 0 0).1 = .ok (lodger 0 0) := by decide +kernel
  have run := run_lodging.engagement.attach 0 0 0 (by decide +kernel)
  rw [attached] at run
  exact run.newLoop 0

/-- What it submits with its new context goes to the first loop, which its new realm does not belong
to. -/
theorem executor_serves_of_relodger :
    let q := (lodged.attach 0 0 1).2
    realmLoop? q relodger.context.realm = some 1 ∧
      World.Serves { q.world with here := 0 } relodger.context.executor 0 ∧
      q.world.executorLoop? relodger.context.executor ≠ some 1 := by
  intro q
  have attached : (lodged.attach 0 0 1).1 = .ok relodger := by decide +kernel
  have there : 0 < lodged.runtimes.size := by decide +kernel
  have course := engagement_lodged.attach 0 0 1 there
  rw [attached] at course
  obtain ⟨_, home, serves, agrees⟩ := executor_serves _ lodged engagement_lodged 0 0 1 there relodger
    attached [] q course
  refine ⟨home, serves 0, fun same => ?_⟩
  have first : installed? 0 0 [.attached (lodger 0 0)] = some 0 := rfl
  exact absurd (agrees.mp same 0 first) (by decide)

end Threads

end Membrane
