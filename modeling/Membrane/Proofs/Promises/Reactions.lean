import Membrane.Proofs.Promises.Course
import Membrane.Proofs.Tasks.Work
/-!
Reactions of a promise are run once, in the order in which they were registered. Whatever a loop runs
on its thread is a course of each of its promises, and a loop goes on until nothing is queued. What a
course leaves unrun is queued.
-/

set_option autoImplicit false

namespace Membrane.PromiseRun

open Act World

variable {p : PromiseId} {l : LoopId}

/-- To register a reaction goes on with a course, whatever is queued by it. -/
theorem Course.andRegister {w u v : World} {first queue : Queue} {past : List Event}
    {reaction : Reaction} (before : Course p l w first past u queue)
    (own : u.owner? l = some u.here) (done : exec (Act.register p reaction) u = (.ok (), v)) :
    v.owner? l = some v.here ∧
      ∃ queue', Course p l w first (past ++ [.registered reaction]) v queue' := by
  have reacts := reacts_register p reaction u v done
  obtain ⟨jobs, queued⟩ := reacts.microtasks l
  exact ⟨by rw [reacts.owner?, reacts.here, own], _, before.register own done queued⟩

/-- To settle a promise goes on with a course, whatever is queued by it. -/
theorem Course.andSettle {w u v : World} {first queue : Queue} {past : List Event}
    {outcome : Outcome} {answer : Bool} (before : Course p l w first past u queue)
    (own : u.owner? l = some u.here) (done : exec (Act.settle p outcome) u = (.ok answer, v)) :
    v.owner? l = some v.here ∧
      ∃ queue', Course p l w first (past ++ [.settled outcome answer]) v queue' := by
  have reacts := reacts_settle p outcome answer u v done
  obtain ⟨jobs, queued⟩ := reacts.microtasks l
  exact ⟨by rw [reacts.owner?, reacts.here, own], _, before.settle own done queued⟩

/-- What happens on the thread of a loop is a course of a promise in which the loop takes no job. -/
structure Spans (p : PromiseId) (l : LoopId) (w w' : World) : Prop where
  here : w'.here = w.here
  owner : w'.owner? l = w.owner? l
  queued : ∃ more, w'.microtasks l = w.microtasks l ++ more
  course : w.owner? l = some w.here → ∀ queue, ∃ events queue',
    Course p l w queue events w' queue' ∧ ran events = []

namespace Spans

variable {w w' : World}

theorem own (spans : Spans p l w w') (own : w.owner? l = some w.here) :
    w'.owner? l = some w'.here := by
  rw [spans.owner, spans.here, own]

/-- The promise stays as it is, and jobs of others may be queued. -/
theorem quiet (here : w'.here = w.here) (owner : w'.owner? l = w.owner? l)
    (promise : ∀ x, w.promises[p]? = some x → w'.promises[p]? = some x)
    (queued : ∃ more, w'.microtasks l = w.microtasks l ++ more) : Spans p l w w' := by
  refine ⟨here, owner, queued, fun _ queue => ?_⟩
  obtain ⟨more, queued⟩ := queued
  exact ⟨_, _, .aside (.start w queue) owner promise queued, rfl⟩

theorem same (here : w'.here = w.here) (promises : w'.promises = w.promises)
    (loops : w'.loops = w.loops) : Spans p l w w' := by
  refine .quiet here ?_ (fun x present => by rwa [promises]) ⟨[], ?_⟩
  · rw [owner?, owner?, loops]
  · rw [World.microtasks, World.microtasks, loops, List.append_nil]

theorem post (k : LoopId) (job : Job) : Spans p l w (w.post k job) :=
  .quiet rfl (congrFun (w.owner?_post k job) l) (fun _ present => present) (w.microtasks_post k job l)

end Spans

instance : Lasting (Spans p l) where
  refl w := .same rfl rfl rfl
  trans first rest := by
    refine ⟨rest.here.trans first.here, rest.owner.trans first.owner, ?_, fun own queue => ?_⟩
    · obtain ⟨some, queued⟩ := first.queued
      obtain ⟨more, after⟩ := rest.queued
      exact ⟨some ++ more, by rw [after, queued, List.append_assoc]⟩
    · obtain ⟨past, between, before, none⟩ := first.course own queue
      obtain ⟨later, last, after, noMore⟩ := rest.course (first.own own) between
      exact ⟨past ++ later, last, before.trans after, by rw [ran_append, none, noMore]; rfl⟩
  aside same := .quiet same.here (congrFun same.owners l) (same.silent.promises p) (same.microtasks l)
  move _ _ := .same rfl rfl rfl
  sweep w := by
    refine .same w.here_sweep ?_ ?_ <;> · rw [World.sweep]; split <;> rfl

/-- What is done with another promise is none of this one's business. -/
theorem spans_of_reacts {q : PromiseId} {w w' : World} (reacts : w.Reacts q w') (other : p ≠ q) :
    Spans p l w w' := by
  refine .quiet reacts.here (congrFun reacts.owner? l) (fun x present => ?_) (reacts.microtasks l)
  rw [reacts.promises_of_ne p other, present]

/-- To register a reaction is part of a course, with whatever promise. -/
theorem spans_register {w w' : World} {q : PromiseId} {reaction : Reaction}
    (done : exec (Act.register q reaction) w = (.ok (), w')) : Spans p l w w' := by
  have reacts := reacts_register q reaction w w' done
  obtain rfl | other := eq_or_ne p q
  · refine ⟨reacts.here, congrFun reacts.owner? l, reacts.microtasks l, fun own queue => ?_⟩
    obtain ⟨_, queue', run⟩ := (Course.start w queue).andRegister own done
    exact ⟨_, queue', run, rfl⟩
  · exact spans_of_reacts reacts other

instance : Working (Spans p l) where
  realm _ _ _ := .same rfl rfl rfl
  wake {w w' t} done := by
    obtain ⟨k, _, ⟨_, m, _, rfl⟩ | ⟨_, rfl⟩ | ⟨_, _, rfl⟩⟩ := exec_wake_eq_ok t w w' done
    · have marked : Spans p l w (w.withTask t { k with state := .scheduled }) := .same rfl rfl rfl
      exact Lasting.trans marked (.post m _)
    · exact .same rfl rfl rfl
    · exact Lasting.refl _
  settle {w w' q outcome answer} done := by
    have reacts := reacts_settle q outcome answer w w' done
    obtain rfl | other := eq_or_ne p q
    · refine ⟨reacts.here, congrFun reacts.owner? l, reacts.microtasks l, fun own queue => ?_⟩
      obtain ⟨_, queue', run⟩ := (Course.start w queue).andSettle own done
      exact ⟨_, queue', run, rfl⟩
    · exact spans_of_reacts reacts other
  register _ done := spans_register done

instance : Heedless (Spans p l) where
  awaits _ _ := .same rfl rfl rfl
  rewrite _ _ _ := .same rfl rfl rfl
  register done := spans_register done

instance : Taskless (Spans p l) where
  task _ _ _ := .same rfl rfl rfl
  post _ m _ := .post m _

/-! Jobs -/

theorem spans_performJob (job : Job) : Keeps (Spans p l) (performJob job) := by
  by_cases poll : ∃ t, job = .poll t
  · obtain ⟨t, rfl⟩ := poll
    exact keeps_pollTask t
  · refine keeps_performJob job fun t => ?_
    cases job <;> simp_all [Job.polls]

/-- A loop takes and runs its next job. -/
theorem course_of_turn {w v u : World} {job : Job} (own : w.owner? l = some w.here)
    (next : w.next? l = some (job, v)) (run : exec (performJob job) v = (.ok (), u)) (queue : Queue)
    (jobs : queue.map (·.1) = w.microtasks l) :
    u.owner? l = some u.here ∧ (∃ more, w.microtasks l ++ w.inbox l ++ more = job :: u.microtasks l) ∧
      ∃ events queue', Course p l w queue events u queue' ∧ (ran events).Sublist [job] := by
  obtain ⟨taken, _, owner⟩ := next?_jobs next
  have here : v.here = w.here := by
    obtain ⟨q, rfl⟩ := w.next?_withQueue l job v next
    rfl
  have all : (queue ++ (w.inbox l).map (·, false)).map (·.1) = job :: v.microtasks l := by
    rw [List.map_append, jobs, map_fst_marked, taken]
  obtain ⟨⟨_, mark⟩, rest, head, rfl, _⟩ := List.map_eq_cons_iff.mp all
  have begun := Course.turn (p := p) (.start w queue) next head
  have still : v.owner? l = some v.here := by rw [owner, here, own]
  have inside : Spans p l v u := spans_performJob _ v u () run
  obtain ⟨more, queued⟩ := inside.queued
  obtain ⟨events, queue', body, none⟩ := inside.course still rest
  refine ⟨inside.own still, ⟨more, by rw [taken, queued, List.cons_append]⟩, _, queue',
    begun.trans body, ?_⟩
  rw [ran_append, none]
  cases mark <;> simp [ran]

/-- A loop runs jobs until none is left: first those that are queued, in their order. -/
theorem course_of_drains {w w' : World} {jobs : List Job} (drains : Drains l w jobs w')
    (own : w.owner? l = some w.here) (queue : Queue) (same : queue.map (·.1) = w.microtasks l) :
    w.microtasks l <+: jobs ∧
      ∃ events, Course p l w queue events w' [] ∧ (ran events).Sublist jobs := by
  induction drains generalizing queue with
  | @idle w c present none =>
    have empty : w.microtasks l = [] := by
      rw [microtasks_of_present w l c present, (w.next?_eq_none l c present none).1]
    rw [empty, List.map_eq_nil_iff] at same
    subst same
    exact ⟨by rw [empty], [], .start w [], List.nil_sublist []⟩
  | turn next run _ ih =>
    obtain ⟨still, ⟨more, taken⟩, past, between, before, one⟩ :=
      course_of_turn own next run queue same
    obtain ⟨first, later, after, others⟩ := ih still between (before.same_jobs same)
    refine ⟨?_, past ++ later, before.trans after, ?_⟩
    · refine List.IsPrefix.trans ?_ (List.cons_prefix_cons.mpr ⟨rfl, first⟩)
      exact ⟨_, (List.append_assoc _ _ _).symm.trans taken⟩
    · rw [ran_append]
      exact one.append others

theorem start_kept (w : World) (jobs : List Job) (fresh : w.promises[p]? = some (.create l)) :
    Kept p l [] w (jobs.map (·, false)) := by
  refine ⟨⟨_, fresh, rfl, rfl⟩, ?_, rfl⟩
  rw [mine_unmarked]
  rfl

/-- Reactions are registered with a promise and it is settled on the thread of its loop, in whatever
order and by whomever. Only the first attempt to settle it succeeds, and its outcome stays. The jobs
that are run for the promise are its reactions with this outcome, each in its turn and after that
attempt. Those that were not run are queued, so once nothing is queued all were run. A loop that runs
its microtasks runs first those that are queued, in their order, and goes on until nothing is queued.
Neither to register a reaction nor to settle the promise runs anything. -/
theorem reactions_run_once_in_order (p : PromiseId) (l : LoopId) (w u : World)
    (events : List Event) (queue : Queue) (fresh : w.promises[p]? = some (.create l))
    (course : Course p l w ((w.microtasks l).map (·, false)) events u queue) :
    (attempts events).map (·.2) = onlyFirst (attempts events).length ∧
    (∃ x, u.promises[p]? = some x ∧ x.state =
      match outcome? events with
      | none => .pending (registered events)
      | some outcome => .settled outcome) ∧
    (∀ past job later, events = past ++ .ran job :: later →
      ∃ reaction outcome, (registered past)[(ran past).length]? = some reaction ∧
        outcome? past = some outcome ∧ job = .react reaction outcome) ∧
    (queue.map (·.1) = u.microtasks l ∧ ran events ++ mine queue = due events) ∧
    (u.microtasks l = [] → ran events = due events) ∧
    (∀ n v, u.owner? l = some u.here → exec (checkpoint l) u = (.ok n, v) →
      ∃ jobs, Drains l u jobs v ∧ jobs.length = n ∧ u.microtasks l <+: jobs ∧ v.microtasks l = [] ∧
        ∃ more, Course p l w ((w.microtasks l).map (·, false)) (events ++ more) v [] ∧
          ran (events ++ more) = due (events ++ more) ∧ (ran more).Sublist jobs) ∧
    (∀ reaction v, exec (register p reaction) u = (.ok (), v) →
      v = { u with promises := v.promises, loops := v.loops }) ∧
    ∀ outcome answer v, exec (settle p outcome) u = (.ok answer, v) →
      v = { u with promises := v.promises, loops := v.loops } := by
  have start := start_kept w (w.microtasks l) fresh
  have kept := course.kept start
  have same := course.same_jobs (map_fst_marked (w.microtasks l) false)
  obtain ⟨x, present, _, state⟩ := kept.promise
  refine ⟨kept.answers, ⟨x, present, state⟩, ?_, ⟨same, kept.parts⟩, ?_, ?_,
    fun reaction v done => (reacts_register p reaction u v done).only,
    fun outcome answer v done => (reacts_settle p outcome answer u v done).only⟩
  · rintro past job later rfl
    obtain ⟨v, between, before⟩ := course.before (past ++ [.ran job]) later (by simp)
    have parts := (before.kept start).parts
    have run : (due (past ++ [.ran job]))[(ran past).length]? = some job := by
      rw [← parts, ran_append, List.append_assoc, List.getElem?_append_right (Nat.le_refl _),
        Nat.sub_self]
      rfl
    have still : due (past ++ [.ran job]) = due past := by
      simp [due, outcome?, attempts, registered]
    rw [still, due] at run
    cases known : outcome? past with
    | none => simp [known] at run
    | some outcome =>
      simp only [known, List.getElem?_map, Option.map_eq_some_iff] at run
      obtain ⟨reaction, there, rfl⟩ := run
      exact ⟨reaction, outcome, there, rfl, rfl⟩
  · intro empty
    rw [empty, List.map_eq_nil_iff] at same
    rw [← kept.parts, same]
    exact (List.append_nil _).symm
  · intro n v own done
    obtain ⟨jobs, drains, count⟩ := drains_of_checkpoint u l n v done
    obtain ⟨first, more, run, among⟩ := course_of_drains (p := p) drains own queue same
    have whole := course.trans run
    have left := whole.same_jobs (map_fst_marked (w.microtasks l) false)
    have parts := (whole.kept start).parts
    refine ⟨jobs, drains, count, first, left.symm, more, whole, ?_, among⟩
    exact (List.append_nil _).symm.trans parts

/-- The first of two reactions registers another one while it is run. -/
theorem reactions_run_once_in_order_of_three :
    let w : World := { World.create .default with
      loops := #[⟨.empty 0, .manual 0, []⟩], promises := #[.create 0] }
    let first : Reaction := .log 0 "first" (some "third")
    let second : Reaction := .line "second"
    let u₁ := (exec (register 0 first) w).2
    let u₂ := (exec (register 0 second) u₁).2
    let u₃ := (exec (settle 0 (.ok .null)) u₂).2
    let u := (exec (settle 0 (.error .undefined)) u₃).2
    let events : List Event := [.registered first, .registered second, .settled (.ok .null) true,
      .settled (.error .undefined) false]
    (exec (checkpoint 0) u).1.toOption = some 3 ∧
      (exec (checkpoint 0) u).2.log.map (·.2) = ["first: ok null", "second", "third"] ∧
      ∃ more v, Course 0 0 w ((w.microtasks 0).map (·, false)) (events ++ more) v [] ∧
        ran (events ++ more) = due (events ++ more) := by
  intro w first second u₁ u₂ u₃ u events
  have three : (exec (checkpoint 0) u).1.toOption = some 3 := by decide +kernel +revert
  have logged : (exec (checkpoint 0) u).2.log.map (·.2) = ["first: ok null", "second", "third"] := by
    clear three
    decide +kernel +revert
  have fresh : w.promises[0]? = some (.create 0) := rfl
  have own : w.owner? 0 = some w.here := rfl
  have did₁ : exec (register 0 first) w = (.ok (), u₁) := rfl
  have did₂ : exec (register 0 second) u₁ = (.ok (), u₂) := rfl
  have did₃ : exec (settle 0 (.ok .null)) u₂ = (.ok true, u₃) := rfl
  have did : exec (settle 0 (.error .undefined)) u₃ = (.ok false, u) := rfl
  refine ⟨three, logged, ?_⟩
  clear_value u u₃ u₂ u₁ w
  obtain ⟨own, _, course⟩ := (Course.start w ((w.microtasks 0).map (·, false))).andRegister own did₁
  obtain ⟨own, _, course⟩ := course.andRegister own did₂
  obtain ⟨own, _, course⟩ := course.andSettle own did₃
  obtain ⟨own, _, course⟩ := course.andSettle own did
  rcases ended : exec (checkpoint 0) u with ⟨halt | n, v⟩
  · simp [ended, Except.toOption] at three
  · obtain ⟨_, _, _, _, _, more, whole, all, _⟩ :=
      (reactions_run_once_in_order 0 0 w u events _ fresh course).2.2.2.2.2.1 n v own ended
    exact ⟨more, v, whole, all⟩

end Membrane.PromiseRun
