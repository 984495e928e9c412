import Membrane.Proofs.World.Update
/-!
Promises and the microtasks of a loop. To settle a promise or to register a reaction changes the
promise and queues jobs, and does nothing else.
-/

set_option autoImplicit false

namespace Membrane

namespace World

variable (w : World)

/-- The microtasks that are queued on a loop. -/
def microtasks (l : LoopId) : List Job := ((w.loops[l]?).map (·.queue.microtasks)).getD []

/-- The jobs that other threads posted to a loop. -/
def inbox (l : LoopId) : List Job := ((w.loops[l]?).map (·.queue.inbox)).getD []

def withPromise (p : PromiseId) (x : Promise Reaction) : World :=
  { w with promises := w.promises.setIfInBounds p x }

/-- The running thread queues jobs one after the other. -/
def posts (l : LoopId) (jobs : List Job) : World := jobs.foldl (·.post l ·) w

theorem microtasks_of_present (l : LoopId) (c : LoopCell) (present : w.loops[l]? = some c) :
    w.microtasks l = c.queue.microtasks := by
  rw [microtasks, present]
  rfl

theorem microtasks_withQueue (k : LoopId) (f : EventLoop Job → EventLoop Job)
    (adds : ∀ q, ∃ more, (f q).microtasks = q.microtasks ++ more) (l : LoopId) :
    ∃ more, (w.withQueue k f).microtasks l = w.microtasks l ++ more := by
  rw [microtasks, microtasks, loops_withQueue]
  cases w.loops[l]? with
  | none => exact ⟨[], by split <;> rfl⟩
  | some c =>
    split
    · exact adds c.queue
    · exact ⟨[], (List.append_nil _).symm⟩

theorem microtasks_post (k : LoopId) (job : Job) (l : LoopId) :
    ∃ more, (w.post k job).microtasks l = w.microtasks l ++ more := by
  refine w.microtasks_withQueue k _ (fun q => ?_) l
  rw [EventLoop.queueMicrotask]
  split
  · exact ⟨[job], rfl⟩
  · exact ⟨[], (List.append_nil _).symm⟩

/-- The owner of a loop queues a job behind the others. -/
theorem microtasks_post_own (l : LoopId) (own : w.owner? l = some w.here) (job : Job) :
    (w.post l job).microtasks l = w.microtasks l ++ [job] := by
  obtain ⟨c, present, owner⟩ := w.exists_loop l w.here own
  rw [microtasks, post, loops_withQueue, if_pos rfl, microtasks, present, Option.map_some,
    Option.map_some, EventLoop.queueMicrotask, if_pos owner.symm]
  rfl

theorem owner?_posts (l : LoopId) (jobs : List Job) : (w.posts l jobs).owner? = w.owner? := by
  induction jobs generalizing w with
  | nil => rfl
  | cons job jobs ih => exact (ih _).trans (w.owner?_post l job)

theorem promises_posts (l : LoopId) (jobs : List Job) :
    (w.posts l jobs).promises = w.promises := by
  induction jobs generalizing w with
  | nil => rfl
  | cons job jobs ih => exact ih _

theorem posts_eq (l : LoopId) (jobs : List Job) :
    w.posts l jobs = { w with loops := (w.posts l jobs).loops } := by
  induction jobs generalizing w with
  | nil => rfl
  | cons job jobs ih => exact ih _

theorem microtasks_posts (k : LoopId) (jobs : List Job) (l : LoopId) :
    ∃ more, (w.posts k jobs).microtasks l = w.microtasks l ++ more := by
  induction jobs generalizing w with
  | nil => exact ⟨[], (List.append_nil _).symm⟩
  | cons job jobs ih =>
    obtain ⟨first, same⟩ := w.microtasks_post k job l
    obtain ⟨rest, all⟩ := ih (w.post k job)
    exact ⟨first ++ rest, by rw [← List.append_assoc, ← same]; exact all⟩

theorem microtasks_posts_own (l : LoopId) (own : w.owner? l = some w.here) (jobs : List Job) :
    (w.posts l jobs).microtasks l = w.microtasks l ++ jobs := by
  induction jobs generalizing w with
  | nil => exact (List.append_nil _).symm
  | cons job jobs ih =>
    have still : (w.post l job).owner? l = some (w.post l job).here := by
      rw [owner?_post]
      exact own
    refine (ih (w.post l job) still).trans ?_
    rw [w.microtasks_post_own l own job, List.append_assoc, List.singleton_append]

theorem promises_withPromise (p : PromiseId) (x y : Promise Reaction)
    (present : w.promises[p]? = some x) (q : PromiseId) :
    (w.withPromise p y).promises[q]? = if q = p then some y else w.promises[q]? :=
  getElem?_written w.promises p x y present q

/-- A promise is written anew, and reactions are queued on its loop. -/
def Reacts (p : PromiseId) (w w' : World) : Prop :=
  ∃ (x y : Promise Reaction) (jobs : List Job), w.promises[p]? = some x ∧
    (∀ job ∈ jobs, ∃ reaction outcome, job = .react reaction outcome) ∧
    w' = (w.withPromise p y).posts x.loop jobs

namespace Reacts

variable {w} {p : PromiseId} {w' : World} (reacts : w.Reacts p w')

include reacts

/-- Nothing else happens, so no reaction is run. -/
theorem only : w' = { w with promises := w'.promises, loops := w'.loops } := by
  obtain ⟨x, y, jobs, _, _, rfl⟩ := reacts
  rw [posts_eq]
  rfl

theorem here : w'.here = w.here := by rw [reacts.only]

theorem owner? : w'.owner? = w.owner? := by
  obtain ⟨x, y, jobs, _, _, rfl⟩ := reacts
  exact owner?_posts _ x.loop jobs

theorem microtasks (l : LoopId) : ∃ more, w'.microtasks l = w.microtasks l ++ more := by
  obtain ⟨x, y, jobs, _, _, rfl⟩ := reacts
  exact microtasks_posts _ x.loop jobs l

theorem promises_of_ne (q : PromiseId) (other : q ≠ p) : w'.promises[q]? = w.promises[q]? := by
  obtain ⟨x, y, jobs, present, _, rfl⟩ := reacts
  rw [promises_posts, promises_withPromise w p x y present, if_neg other]

end Reacts

end World

namespace Act

open World

variable (w : World) (p : PromiseId) (x : Promise Reaction)

/-- To register a reaction is to keep it for later, or to queue it if the promise is settled. -/
theorem exec_register (present : w.promises[p]? = some x) (reaction : Reaction) :
    exec (register p reaction) w = (.ok (), match x.state with
      | .pending reactions =>
        w.withPromise p { x with state := .pending (reactions ++ [reaction]) }
      | .settled outcome => w.post x.loop (.react reaction outcome)) := by
  have found : exec (promise p) w = (.ok x, w) := exec_fetch _ w x present
  rw [register, exec_bind, found, goOn_ok]
  cases state : x.state with
  | pending reactions =>
    simp only [Promise.register, state]
    rfl
  | settled outcome =>
    simp only [Promise.register, state]
    rw [exec_bind, setPromise, exec_modify, goOn_ok, written_self w.promises p x present]
    rfl

/-- To settle a promise is to queue the reactions that wait, unless it is settled. -/
theorem exec_settle (present : w.promises[p]? = some x) (outcome : Outcome) :
    exec (settle p outcome) w = match x.state with
      | .pending reactions => (.ok true, (w.withPromise p { x with state := .settled outcome }).posts
          x.loop (reactions.map (.react · outcome)))
      | .settled _ => (.ok false, w) := by
  have found : exec (promise p) w = (.ok x, w) := exec_fetch _ w x present
  have queued (rs : List Reaction) (u : World) :
      exec (do
        rs.forM fun r => queueMicrotask x.loop (.react r outcome)
        return true) u = (.ok true, u.posts x.loop (rs.map (.react · outcome))) := by
    induction rs generalizing u with
    | nil => rfl
    | cons r rs ih => exact ih (u.post x.loop (.react r outcome))
  rw [settle, exec_bind, found, goOn_ok]
  cases state : x.state with
  | pending reactions =>
    simp only [Promise.settle?, state]
    rw [exec_bind, setPromise, exec_modify, goOn_ok]
    exact queued reactions _
  | settled former =>
    simp only [Promise.settle?, state]
    rfl

theorem reacts_register (reaction : Reaction) (w w' : World)
    (done : exec (register p reaction) w = (.ok (), w')) : w.Reacts p w' := by
  obtain ⟨x, present, _⟩ := exec_fetch_bind_eq_ok _ _ _ _ _ done
  rw [exec_register _ p x present] at done
  cases state : x.state with
  | pending reactions =>
    rw [state] at done
    cases done
    exact ⟨x, _, [], present, nofun, rfl⟩
  | settled outcome =>
    rw [state] at done
    cases done
    refine ⟨x, x, [.react reaction outcome], present, ?_, ?_⟩
    · rintro job (_ | ⟨_, ⟨⟩⟩)
      exact ⟨reaction, outcome, rfl⟩
    · rw [withPromise, written_self _ p x present]
      rfl

theorem reacts_settle (outcome : Outcome) (answer : Bool) (w w' : World)
    (done : exec (settle p outcome) w = (.ok answer, w')) : w.Reacts p w' := by
  obtain ⟨x, present, _⟩ := exec_fetch_bind_eq_ok _ _ _ _ _ done
  rw [exec_settle _ p x present] at done
  cases state : x.state with
  | pending reactions =>
    rw [state] at done
    cases done
    refine ⟨x, _, _, present, ?_, rfl⟩
    intro job among
    obtain ⟨reaction, _, rfl⟩ := List.mem_map.mp among
    exact ⟨reaction, outcome, rfl⟩
  | settled former =>
    rw [state] at done
    cases done
    refine ⟨x, x, [], present, nofun, ?_⟩
    rw [withPromise, written_self _ p x present]
    rfl

end Act

end Membrane
