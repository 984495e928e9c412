import Membrane.Proofs.World.Update
/-!
One turn of a loop: the next of its jobs is taken out and carried out. A run of microtasks is made of
such turns.
-/

set_option autoImplicit false

namespace Membrane

namespace World

variable (w : World)

/-- The next job of a loop, and the world without it. -/
def next? (l : LoopId) : Option (Job × World) :=
  (w.loops[l]?).bind fun c =>
    c.queue.drainInbox.next?.map fun (job, q) => (job, w.withQueue l fun _ => q)

/-- Two changes of a queue come to one. -/
theorem withQueue_withQueue (l : LoopId) (f g : EventLoop Job → EventLoop Job) :
    (w.withQueue l f).withQueue l g = w.withQueue l fun q => g (f q) := by
  have same : (w.loops.modify l fun c => { c with queue := f c.queue }).modify l
      (fun c => { c with queue := g c.queue }) =
      w.loops.modify l fun c => { c with queue := g (f c.queue) } := by
    refine Array.ext_getElem? fun j => ?_
    simp only [Array.getElem?_modify]
    by_cases here : l = j
    · simp only [here, ↓reduceIte, Option.map_map, Function.comp_def]
    · simp only [here, ↓reduceIte]
  simp only [withQueue, same]

/-- The next job is the first of the microtasks and of those on their way to them. -/
theorem next?_eq_some (l : LoopId) (job : Job) (w' : World) (next : w.next? l = some (job, w')) :
    ∃ c rest, w.loops[l]? = some c ∧ c.queue.microtasks ++ c.queue.inbox = job :: rest ∧
      w' = w.withQueue l fun _ => { c.queue with microtasks := rest, inbox := [] } := by
  obtain ⟨c, present, taken⟩ := Option.bind_eq_some_iff.mp next
  obtain ⟨⟨first, q⟩, head, same⟩ := Option.map_eq_some_iff.mp taken
  cases same
  cases jobs : c.queue.microtasks ++ c.queue.inbox with
  | nil => simp [EventLoop.next?, EventLoop.drainInbox, jobs] at head
  | cons first rest =>
    simp only [EventLoop.next?, EventLoop.drainInbox, jobs] at head
    cases head
    exact ⟨c, rest, present, jobs, rfl⟩

theorem next?_withQueue (l : LoopId) (job : Job) (w' : World) (next : w.next? l = some (job, w')) :
    ∃ q, w' = w.withQueue l fun _ => q := by
  obtain ⟨c, rest, _, _, rfl⟩ := w.next?_eq_some l job w' next
  exact ⟨_, rfl⟩

/-- A loop has no next job when nothing is queued on it. -/
theorem next?_eq_none (l : LoopId) (c : LoopCell) (present : w.loops[l]? = some c)
    (none : w.next? l = none) : c.queue.microtasks = [] ∧ c.queue.inbox = [] := by
  refine List.append_eq_nil_iff.mp ?_
  cases jobs : c.queue.microtasks ++ c.queue.inbox with
  | nil => rfl
  | cons first rest =>
    simp [World.next?, present, EventLoop.next?, EventLoop.drainInbox, jobs] at none

/-- To look for a job where none is changes nothing. -/
theorem withQueue_drainInbox (l : LoopId) (c : LoopCell) (present : w.loops[l]? = some c)
    (none : w.next? l = none) : (w.withQueue l fun _ => c.queue.drainInbox) = w := by
  obtain ⟨noMicrotasks, noInbox⟩ := w.next?_eq_none l c present none
  refine w.withQueue_of_kept l _ fun d there => ?_
  obtain rfl := Option.some.inj (present.symm.trans there)
  rcases c with ⟨⟨owner, microtasks, inbox, timers, submitted, guards, isShutdown⟩, clock, asked⟩
  simp only at noMicrotasks noInbox
  subst noMicrotasks noInbox
  rfl

/-- A job that is taken was posted, for the owner of the loop; what else was posted stays. -/
theorem posted_next (l : LoopId) (i : ThreadId) (owner : w.owner? l = some i) (job : Job)
    (w' : World) (next : w.next? l = some (job, w')) :
    w.posted.Perm ((i, job) :: w'.posted) ∧ w'.owner? = w.owner? ∧
      ∃ q, w' = w.withQueue l fun _ => q := by
  obtain ⟨c, rest, present, jobs, rfl⟩ := w.next?_eq_some l job w' next
  obtain rfl : c.queue.owner = i := by simpa [owner?, present] using owner
  refine ⟨?_, ?_, _, rfl⟩
  · refine List.Perm.symm (posted_withQueue w l _ c present [(c.queue.owner, job)] [] ?_)
    simp only [postedOn, List.append_nil, List.nil_append, jobs, List.map_cons,
      List.singleton_append, List.Perm.refl]
  · refine owner?_withQueue w l _ fun d there => ?_
    rw [present, Option.some.injEq] at there
    rw [← there]

end World

namespace Act

open World

variable (w : World)

/-- Running microtasks is running the next one and then the others. -/
theorem exec_drain_succ (l : LoopId) (fuel : Nat) (c : LoopCell) (present : w.loops[l]? = some c) :
    exec ((restless l).drain (fuel + 1)) w =
      match w.next? l with
      | none => (.ok (some 0), w.withQueue l fun _ => c.queue.drainInbox)
      | some (job, v) =>
        goOn (exec (performJob job) v) fun _ => do
          return (← (restless l).drain fuel).map (· + 1) := by
  have drained : (w.withQueue l fun _ => c.queue.drainInbox).loops[l]? =
      some { c with queue := c.queue.drainInbox } := by
    rw [loops_withQueue, if_pos rfl, present, Option.map_some]
  rw [World.next?, present, Option.bind_some]
  cases taken : c.queue.drainInbox.next? with
  | none =>
    simp only [Seat.drain, restless, seat, exec_bind, exec_loop w l c present, goOn_ok, exec_pure,
      exec_onQueue, exec_loop _ l _ drained, taken, Option.map_none]
  | some next =>
    simp only [Seat.drain, restless, seat, exec_bind, exec_loop w l c present, goOn_ok, exec_pure,
      exec_onQueue, exec_loop _ l _ drained, taken, withQueue_withQueue, Option.map_some]

/-- A loop that is about to wait runs its microtasks as one that never waits. -/
theorem drain_seat (l : LoopId) (park : Option Time → Act Bool) (fuel : Nat) :
    (seat l park).drain fuel = (restless l).drain fuel := by
  induction fuel with
  | zero => rfl
  | succ fuel ih =>
    simp only [Seat.drain, ih]
    rfl

/-- A turn of a loop is its next job. -/
theorem exec_turn (l : LoopId) (job : Job) (w' : World) (next : w.next? l = some (job, w')) :
    exec ((restless l).drain 1) w = goOn (exec (performJob job) w') fun _ => pure none := by
  obtain ⟨c, present, _⟩ := Option.bind_eq_some_iff.mp next
  rw [exec_drain_succ w l 0 c present, next]
  rfl

theorem exec_turn_idle (l : LoopId) (i : ThreadId) (owner : w.owner? l = some i)
    (idle : w.next? l = none) : exec ((restless l).drain 1) w = (.ok (some 0), w) := by
  obtain ⟨c, present, _⟩ := w.exists_loop l i owner
  rw [exec_drain_succ w l 0 c present, idle]
  exact congrArg (Except.ok (some 0), ·) (w.withQueue_drainInbox l c present idle)

/-- A loop runs jobs one after the other until none is left. -/
inductive Drains (l : LoopId) : World → List Job → World → Prop
  | idle {w : World} {c : LoopCell} (present : w.loops[l]? = some c) (none : w.next? l = none) :
      Drains l w [] w
  | turn {w v u w' : World} {job : Job} {jobs : List Job} (next : w.next? l = some (job, v))
      (ran : exec (performJob job) v = (.ok (), u)) (rest : Drains l u jobs w') :
      Drains l w (job :: jobs) w'

/-- A loop that looks for microtasks finds none, or runs one and looks for others. -/
theorem exec_drain_eq_ok (l : LoopId) (fuel : Nat) (count : Option Nat) (w' : World)
    (done : exec ((restless l).drain (fuel + 1)) w = (.ok count, w')) :
    ∃ c, w.loops[l]? = some c ∧
      ((w.next? l = none ∧ count = some 0 ∧ w' = w) ∨
        ∃ job v u others, w.next? l = some (job, v) ∧ exec (performJob job) v = (.ok (), u) ∧
          exec ((restless l).drain fuel) u = (.ok others, w') ∧ count = others.map (· + 1)) := by
  obtain ⟨_, _, found, _⟩ := exec_bind_eq_ok _ _ _ _ _ done
  obtain ⟨c, _, looked, _⟩ := exec_bind_eq_ok _ _ _ _ _ found
  have present := (exec_fetch_eq_ok _ _ _ _ looked).1
  refine ⟨c, present, ?_⟩
  rw [exec_drain_succ w l fuel c present] at done
  cases next : w.next? l with
  | none =>
    rw [next, w.withQueue_drainInbox l c present next] at done
    cases done
    exact .inl ⟨rfl, rfl, rfl⟩
  | some taken =>
    obtain ⟨job, v⟩ := taken
    rw [next] at done
    rcases ran : exec (performJob job) v with ⟨halt | _, u⟩
    · simp [ran] at done
    · simp only [ran, goOn_ok] at done
      obtain ⟨others, x, drained, last⟩ := exec_bind_eq_ok _ _ _ _ _ done
      cases last
      exact .inr ⟨job, v, u, others, rfl, ran, drained, rfl⟩

theorem drains_of_drain (l : LoopId) (fuel n : Nat) (w' : World)
    (done : exec ((restless l).drain fuel) w = (.ok (some n), w')) :
    ∃ jobs, Drains l w jobs w' ∧ jobs.length = n := by
  induction fuel generalizing w n with
  | zero => cases done
  | succ fuel ih =>
    obtain ⟨c, present, ⟨none, count, rfl⟩ | ⟨job, v, u, others, next, ran, drained, count⟩⟩ :=
      exec_drain_eq_ok w l fuel (some n) w' done
    · cases count
      exact ⟨[], .idle present none, rfl⟩
    · obtain ⟨k, rfl, rfl⟩ := Option.map_eq_some_iff.mp count.symm
      obtain ⟨jobs, rest, length⟩ := ih u k drained
      exact ⟨job :: jobs, .turn next ran rest, congrArg (· + 1) length⟩

/-- Where the microtasks of a loop come to an end, they were run one after the other. -/
theorem drains_of_checkpoint (l : LoopId) (n : Nat) (w' : World)
    (done : exec (checkpoint l) w = (.ok n, w')) : ∃ jobs, Drains l w jobs w' ∧ jobs.length = n := by
  obtain ⟨count, u, drained, ended⟩ := exec_bind_eq_ok _ _ _ _ _ done
  cases count with
  | none => cases ended
  | some k =>
    cases ended
    exact drains_of_drain w l jobLimit n w' drained

end Act

end Membrane
