import Membrane.Proofs.World.Loop
import Membrane.Proofs.World.Promises
/-!
Courses of a promise. In whatever order reactions are registered and the promise is settled, between
the turns of its loop or in the middle of them, a reaction reaches the queue by one of two ways: in a
batch when the promise is settled, or by itself afterwards. Both lead to the end of one queue, so the
reactions that were taken from there and those that are left in it make up what was registered.
-/

set_option autoImplicit false

namespace Membrane.PromiseRun

open Act World

/-- What happens to a promise. -/
inductive Event where
  | registered (reaction : Reaction)
  /-- Somebody tries to settle it, and is told whether that did it. -/
  | settled (outcome : Outcome) (done : Bool)
  /-- The loop takes a job to run it that was queued for the promise. -/
  | ran (job : Job)

/-- The microtasks of a loop, each with whether it was queued for the promise. -/
abbrev Queue := List (Job × Bool)

/-- What happens to a promise and its loop on the way from one world to another. What a job does that
was taken follows as it happens, so it may register reactions and try to settle like anybody else. -/
inductive Course (p : PromiseId) (l : LoopId) : World → Queue → List Event → World → Queue → Prop
  | start (w : World) (queue : Queue) : Course p l w queue [] w queue
  /-- The owner of the loop registers a reaction. -/
  | register {w u v : World} {first queue : Queue} {past : List Event} {reaction : Reaction}
      {jobs : List Job} (before : Course p l w first past u queue)
      (own : u.owner? l = some u.here) (done : exec (Act.register p reaction) u = (.ok (), v))
      (queued : v.microtasks l = u.microtasks l ++ jobs) :
      Course p l w first (past ++ [.registered reaction]) v (queue ++ jobs.map (·, true))
  /-- The owner of the loop tries to settle the promise. -/
  | settle {w u v : World} {first queue : Queue} {past : List Event} {outcome : Outcome}
      {answer : Bool} {jobs : List Job} (before : Course p l w first past u queue)
      (own : u.owner? l = some u.here) (done : exec (Act.settle p outcome) u = (.ok answer, v))
      (queued : v.microtasks l = u.microtasks l ++ jobs) :
      Course p l w first (past ++ [.settled outcome answer]) v (queue ++ jobs.map (·, true))
  /-- Anything else happens, on any thread, and may queue jobs of its own. -/
  | aside {w u v : World} {first queue : Queue} {past : List Event} {jobs : List Job}
      (before : Course p l w first past u queue) (owner : v.owner? l = u.owner? l)
      (promise : ∀ x, u.promises[p]? = some x → v.promises[p]? = some x)
      (queued : v.microtasks l = u.microtasks l ++ jobs) :
      Course p l w first past v (queue ++ jobs.map (·, false))
  /-- The loop takes the next job. What other threads posted comes behind what is queued. -/
  | turn {w u v : World} {first queue rest : Queue} {past : List Event} {job : Job} {mine : Bool}
      (before : Course p l w first past u queue) (next : u.next? l = some (job, v))
      (head : queue ++ (u.inbox l).map (·, false) = (job, mine) :: rest) :
      Course p l w first (past ++ if mine then [.ran job] else []) v rest

/-- The reactions that were registered. -/
def registered (events : List Event) : List Reaction :=
  events.filterMap fun
    | .registered reaction => some reaction
    | _ => none

/-- The attempts to settle, with the answers. -/
def attempts (events : List Event) : List (Outcome × Bool) :=
  events.filterMap fun
    | .settled outcome done => some (outcome, done)
    | _ => none

/-- The jobs for the promise that were run. -/
def ran (events : List Event) : List Job :=
  events.filterMap fun
    | .ran job => some job
    | _ => none

/-- The outcome of the first attempt. -/
def outcome? (events : List Event) : Option Outcome := (attempts events).head?.map (·.1)

/-- What is to be run for the promise, once there is an outcome: its reactions as they were
registered. -/
def due (events : List Event) : List Job :=
  match outcome? events with
  | none => []
  | some outcome => (registered events).map (.react · outcome)

/-- The jobs in a queue that are for the promise. -/
def mine (queue : Queue) : List Job := (queue.filter (·.2)).map (·.1)

/-- The answers to so many attempts of which the first succeeds. -/
def onlyFirst : Nat → List Bool
  | 0 => []
  | n + 1 => true :: List.replicate n false

section

variable (past more : List Event) (queue others : Queue) (jobs : List Job)

@[simp] theorem registered_append : registered (past ++ more) = registered past ++ registered more :=
  List.filterMap_append

@[simp] theorem attempts_append : attempts (past ++ more) = attempts past ++ attempts more :=
  List.filterMap_append

@[simp] theorem ran_append : ran (past ++ more) = ran past ++ ran more := List.filterMap_append

@[simp] theorem mine_append : mine (queue ++ others) = mine queue ++ mine others := by
  rw [mine, List.filter_append, List.map_append, mine, mine]

@[simp] theorem mine_marked : mine (jobs.map (·, true)) = jobs := by
  induction jobs with
  | nil => rfl
  | cons job jobs ih => exact congrArg (job :: ·) ih

@[simp] theorem mine_unmarked : mine (jobs.map (·, false)) = [] := by
  induction jobs with
  | nil => rfl
  | cons job jobs ih => exact ih

@[simp] theorem map_fst_marked (mark : Bool) : (jobs.map (·, mark)).map Prod.fst = jobs := by
  rw [List.map_map]
  exact List.map_id jobs

theorem onlyFirst_succ (n : Nat) : onlyFirst (n + 1) = onlyFirst n ++ [n == 0] := by
  cases n with
  | zero => rfl
  | succ n => rw [onlyFirst, onlyFirst, List.replicate_succ']; rfl

end

/-- How a promise stands after a course, and what is queued for it. -/
structure Kept (p : PromiseId) (l : LoopId) (events : List Event) (u : World) (queue : Queue) :
    Prop where
  promise : ∃ x, u.promises[p]? = some x ∧ x.loop = l ∧ x.state =
    match outcome? events with
    | none => .pending (registered events)
    | some outcome => .settled outcome
  /-- What was run and what is queued make up what is to be run, in the same order. -/
  parts : ran events ++ mine queue = due events
  answers : (attempts events).map (·.2) = onlyFirst (attempts events).length

variable {p : PromiseId} {l : LoopId} {past : List Event} {u v : World} {queue : Queue}
  {jobs : List Job}

theorem Kept.aside (kept : Kept p l past u queue)
    (promise : ∀ x, u.promises[p]? = some x → v.promises[p]? = some x) :
    Kept p l past v (queue ++ jobs.map (·, false)) := by
  obtain ⟨x, present, loop, state⟩ := kept.promise
  refine ⟨⟨x, promise x present, loop, state⟩, ?_, kept.answers⟩
  rw [mine_append, mine_unmarked, List.append_nil, kept.parts]

/-- What is queued behind a queue is known from the whole. -/
theorem queued_eq {more : List Job} (queued : v.microtasks l = u.microtasks l ++ jobs)
    (same : v.microtasks l = u.microtasks l ++ more) : jobs = more :=
  List.append_cancel_left (queued.symm.trans same)

theorem Kept.waiting (kept : Kept p l past u queue) (none : outcome? past = none) :
    (∃ x, u.promises[p]? = some x ∧ x.loop = l ∧ x.state = .pending (registered past)) ∧
      ran past = [] ∧ mine queue = [] := by
  have promise := kept.promise
  have parts := kept.parts
  rw [none] at promise
  rw [due, none] at parts
  exact ⟨promise, List.append_eq_nil_iff.mp parts⟩

theorem Kept.sent (kept : Kept p l past u queue) {outcome : Outcome}
    (known : outcome? past = some outcome) :
    (∃ x, u.promises[p]? = some x ∧ x.loop = l ∧ x.state = .settled outcome) ∧
      ran past ++ mine queue = (registered past).map (.react · outcome) := by
  have promise := kept.promise
  have parts := kept.parts
  rw [known] at promise
  rw [due, known] at parts
  exact ⟨promise, parts⟩

/-- A reaction that is registered before there is an outcome waits with the promise, one that is
registered later is queued. -/
theorem Kept.register (kept : Kept p l past u queue) (own : u.owner? l = some u.here)
    {reaction : Reaction} (done : exec (Act.register p reaction) u = (.ok (), v))
    (queued : v.microtasks l = u.microtasks l ++ jobs) :
    Kept p l (past ++ [.registered reaction]) v (queue ++ jobs.map (·, true)) := by
  have still : outcome? (past ++ [.registered reaction]) = outcome? past := by
    simp [outcome?, attempts]
  have answers : (attempts (past ++ [.registered reaction])).map (·.2) =
      onlyFirst (attempts (past ++ [.registered reaction])).length := by
    simpa [attempts] using kept.answers
  cases known : outcome? past with
  | none =>
    obtain ⟨⟨x, present, loop, state⟩, noneRan, noneQueued⟩ := kept.waiting known
    simp only [exec_register u p x present, state, Prod.mk.injEq, true_and] at done
    subst done
    obtain rfl := queued_eq queued (List.append_nil _).symm
    refine ⟨⟨_, (promises_withPromise u p x _ present p).trans (if_pos rfl), loop, ?_⟩, ?_,
      answers⟩
    · rw [still, known, registered_append]
      rfl
    · rw [due, still, known, mine_append, mine_marked, noneQueued, ran_append, noneRan]
      rfl
  | some outcome =>
    obtain ⟨⟨x, present, loop, state⟩, parts⟩ := kept.sent known
    simp only [exec_register u p x present, state, loop, Prod.mk.injEq, true_and] at done
    subst done
    obtain rfl := queued_eq queued (u.microtasks_post_own l own _)
    refine ⟨⟨x, present, loop, ?_⟩, ?_, answers⟩
    · rw [still, known, state]
    · simp only [due, still, known, mine_append, mine_marked, ran_append, registered_append,
        List.map_append, ← parts]
      simp [ran, registered]

/-- The first attempt to settle sends off the reactions that wait; the others do nothing. -/
theorem Kept.settle (kept : Kept p l past u queue) (own : u.owner? l = some u.here)
    {outcome : Outcome} {answer : Bool}
    (done : exec (Act.settle p outcome) u = (.ok answer, v))
    (queued : v.microtasks l = u.microtasks l ++ jobs) :
    Kept p l (past ++ [.settled outcome answer]) v (queue ++ jobs.map (·, true)) := by
  have answers (told : answer = ((attempts past).length == 0)) :
      (attempts (past ++ [.settled outcome answer])).map (·.2) =
        onlyFirst (attempts (past ++ [.settled outcome answer])).length := by
    simp only [attempts_append, List.map_append, kept.answers, List.length_append]
    exact (congrArg (onlyFirst _ ++ [·]) told).trans (onlyFirst_succ _).symm
  cases tried : attempts past with
  | nil =>
    have first : outcome? (past ++ [.settled outcome answer]) = some outcome := by
      rw [outcome?, attempts_append, tried]
      rfl
    obtain ⟨⟨x, present, loop, state⟩, noneRan, noneQueued⟩ :=
      kept.waiting (by rw [outcome?, tried]; rfl)
    simp only [exec_settle u p x present, state, loop, Prod.mk.injEq, Except.ok.injEq] at done
    obtain ⟨told, rfl⟩ := done
    obtain rfl := queued_eq queued
      ((u.withPromise p ⟨l, .settled outcome⟩).microtasks_posts_own l own _)
    refine ⟨⟨⟨l, .settled outcome⟩, ?_, rfl, by rw [first]⟩, ?_,
      answers (by rw [tried, ← told]; rfl)⟩
    · rw [promises_posts, promises_withPromise u p x _ present, if_pos rfl]
    · simp only [due, first, mine_append, mine_marked, noneQueued, ran_append, noneRan,
        registered_append]
      simp [ran, registered]
  | cons attempt rest =>
    have known : outcome? past = some attempt.1 := by rw [outcome?, tried]; rfl
    have still : outcome? (past ++ [.settled outcome answer]) = some attempt.1 := by
      rw [outcome?, attempts_append, tried]
      rfl
    obtain ⟨⟨x, present, loop, state⟩, parts⟩ := kept.sent known
    simp only [exec_settle u p x present, state, Prod.mk.injEq, Except.ok.injEq] at done
    obtain ⟨told, rfl⟩ := done
    obtain rfl := queued_eq queued (List.append_nil _).symm
    refine ⟨⟨x, present, loop, by rw [still, state]⟩, ?_,
      answers (by rw [tried, ← told]; rfl)⟩
    simp only [due, still, mine_append, mine_marked, ran_append, registered_append, List.append_nil]
    simpa [ran, registered] using parts

/-- What is taken is the first of what is queued. -/
theorem next?_jobs {job : Job} (next : u.next? l = some (job, v)) :
    u.microtasks l ++ u.inbox l = job :: v.microtasks l ∧ v.promises = u.promises ∧
      v.owner? l = u.owner? l := by
  obtain ⟨c, rest, present, jobs, rfl⟩ := u.next?_eq_some l job v next
  have inbox : u.inbox l = c.queue.inbox := by
    rw [World.inbox, present]
    rfl
  refine ⟨?_, rfl, ?_⟩
  · rw [u.microtasks_of_present l c present, inbox, jobs, World.microtasks, loops_withQueue,
      if_pos rfl, present]
    rfl
  · rw [owner?, loops_withQueue, if_pos rfl, present, owner?, present]
    rfl

/-- A turn of the loop takes the first of the jobs that are queued for the promise, or none. -/
theorem Kept.turn (kept : Kept p l past u queue) {job : Job} {mark : Bool} {rest : Queue}
    (next : u.next? l = some (job, v))
    (head : queue ++ (u.inbox l).map (·, false) = (job, mark) :: rest) :
    Kept p l (past ++ if mark then [.ran job] else []) v rest := by
  obtain ⟨x, present, loop, state⟩ := kept.promise
  obtain ⟨_, promises, _⟩ := next?_jobs next
  have waits : mine queue = (if mark then [job] else []) ++ mine rest := by
    have marked := congrArg mine head
    rw [mine_append, mine_unmarked, List.append_nil] at marked
    rw [marked]
    cases mark <;> rfl
  have before := kept.parts
  rw [waits, ← List.append_assoc] at before
  cases mark with
  | true =>
    refine ⟨⟨x, by rw [promises, present], loop, ?_⟩, ?_, ?_⟩
    · simpa [outcome?, attempts, registered] using state
    · simpa [due, outcome?, attempts, registered, ran] using before
    · simpa [attempts] using kept.answers
  | false =>
    rw [if_neg Bool.false_ne_true, List.append_nil]
    refine ⟨⟨x, by rw [promises, present], loop, state⟩, ?_, kept.answers⟩
    rwa [if_neg Bool.false_ne_true, List.append_nil] at before

/-- The queue of a course is that of the loop. -/
theorem Course.same_jobs {w : World} {first : Queue} {events : List Event}
    (course : Course p l w first events u queue) (start : first.map (·.1) = w.microtasks l) :
    queue.map (·.1) = u.microtasks l := by
  induction course with
  | start => exact start
  | register _ _ _ queued ih | settle _ _ _ queued ih | aside _ _ _ queued ih =>
    rw [List.map_append, map_fst_marked, ih start, queued]
  | turn _ next head ih =>
    have firsts := congrArg (List.map Prod.fst) head
    rw [List.map_append, ih start, map_fst_marked, (next?_jobs next).1] at firsts
    exact (List.cons.inj firsts).2.symm

theorem Course.trans {w : World} {first between : Queue} {past later : List Event}
    (before : Course p l w first past u between) (rest : Course p l u between later v queue) :
    Course p l w first (past ++ later) v queue := by
  induction rest with
  | start => rwa [List.append_nil]
  | register _ own done queued ih =>
    rw [← List.append_assoc]
    exact .register (ih before) own done queued
  | settle _ own done queued ih =>
    rw [← List.append_assoc]
    exact .settle (ih before) own done queued
  | aside _ owner promise queued ih => exact .aside (ih before) owner promise queued
  | turn _ next head ih =>
    rw [← List.append_assoc]
    exact .turn (ih before) next head

/-- What happened first was a course by itself. -/
theorem Course.before {w : World} {first : Queue} {events : List Event}
    (course : Course p l w first events u queue) (past later : List Event)
    (parts : events = past ++ later) : ∃ v between, Course p l w first past v between := by
  have last {events : List Event} {event : Event} {later : List Event}
      (parts : events ++ [event] = past ++ later) :
      past = events ++ [event] ∨ ∃ rest, events = past ++ rest := by
    obtain rfl | ⟨rest, e, rfl⟩ := later.eq_nil_or_concat
    · exact .inl (by rw [parts, List.append_nil])
    · rw [List.concat_eq_append, ← List.append_assoc] at parts
      exact .inr ⟨rest, (List.append_inj' parts rfl).1⟩
  induction course generalizing later with
  | start =>
    obtain rfl := (List.append_eq_nil_iff.mp parts.symm).1
    exact ⟨_, _, .start _ _⟩
  | register rest own done queued ih =>
    obtain rfl | ⟨more, parts⟩ := last parts
    · exact ⟨_, _, .register rest own done queued⟩
    · exact ih more parts
  | settle rest own done queued ih =>
    obtain rfl | ⟨more, parts⟩ := last parts
    · exact ⟨_, _, .settle rest own done queued⟩
    · exact ih more parts
  | aside _ _ _ _ ih => exact ih later parts
  | @turn _ _ _ _ _ _ _ mark rest next head ih =>
    cases mark with
    | false => exact ih later (by rwa [if_neg Bool.false_ne_true, List.append_nil] at parts)
    | true =>
      obtain rfl | ⟨more, parts⟩ := last parts
      · exact ⟨_, _, .turn rest next head⟩
      · exact ih more parts

/-- A promise that is kept well is so after whatever happens. -/
theorem Course.kept {w : World} {first : Queue} {events : List Event}
    (course : Course p l w first events u queue) (start : Kept p l [] w first) :
    Kept p l events u queue := by
  induction course with
  | start => exact start
  | register _ own done queued ih => exact (ih start).register own done queued
  | settle _ own done queued ih => exact (ih start).settle own done queued
  | aside _ _ promise queued ih => exact (ih start).aside promise
  | turn _ next head ih => exact (ih start).turn next head

end Membrane.PromiseRun
