import Membrane.Proofs.Awaits.Actions
import Membrane.Proofs.Tasks.Jobs
/-!
Courses of tasks that wait for promises. Promises are settled and tasks begin to wait for them in
whatever order, answers are sent, tasks are woken and polled, and in between anything happens that
leaves tasks and promises alone. A poll looks first for what its task waits for, and what it does then
is a course of its own.
-/

set_option autoImplicit false

namespace Membrane

/-- Whether a poll of a task is going on. -/
def World.IsPolled (w : World) (t : TaskId) : Prop :=
  w.taskState? t = some .running ∨ w.taskState? t = some .notified

namespace AwaitRun

open Act World

/-- What a task is told of a promise, and the worlds before it looks for the outcome and after it was
told. -/
structure Delivery where
  before : World
  result : Except Fault Guest.Value
  after : World

/-- A task that waits finds this outcome, and is told what the outcome comes to. -/
def Delivery.Brings (d : Delivery) (a : Await) (outcome : Outcome) : Prop :=
  ∃ u, exec (lookFor a.task a.channel) d.before = (.ok (.value outcome), u) ∧
    exec (awaitResult a.ref.realm outcome) u = (.ok d.result, d.after)

/-- What happens to tasks that wait for promises. -/
inductive Event where
  /-- A task begins to wait for a promise. The reactions of the promise have a loop to be queued on, or
  none. -/
  | began (await : Await) (seat : Option LoopId)
  | settled (promise : PromiseId) (outcome : Outcome)
  /-- A task that waits gets the outcome of its promise. -/
  | completed (await : Await) (outcome : Outcome) (delivery : Delivery)
  /-- A task that waits is told that its promise is gone. -/
  | lost (await : Await)

/-- What a poll does first: it looks for the outcome of the promise that its task waits for, if it
waits for one. -/
inductive Looks (t : TaskId) : World → List Event → World → Prop
  | free {w : World} (free : w.awaited? t = none) : Looks t w [] w
  | pending {w w' : World} {a : Await} (waits : w.awaited? t = some a)
      (looked : exec (lookFor t a.channel) w = (.ok .pending, w')) : Looks t w [] w'
  | found {w u v w' : World} {a : Await} {outcome : Outcome} {result : Except Fault Guest.Value}
      {r : StepEnd} (waits : w.awaited? t = some a)
      (looked : exec (lookFor t a.channel) w = (.ok (.value outcome), u))
      (told : exec (awaitResult a.ref.realm outcome) u = (.ok result, v))
      (ended : exec (endAwait t a.ref result) v = (.ok r, w')) :
      Looks t w [.completed a outcome ⟨w, result, v⟩] w'
  | lost {w u w' : World} {a : Await} {r : StepEnd} (waits : w.awaited? t = some a)
      (looked : exec (lookFor t a.channel) w = (.ok .closed, u))
      (ended : exec (loseAwait t a.ref) u = (.ok r, w')) : Looks t w [.lost a] w'

/-- What happens to the tasks that wait for promises, on the way from one world to another. -/
inductive Course : World → List Event → World → Prop
  | start (w : World) : Course w [] w
  /-- Anything else happens. -/
  | still {w u v : World} {past : List Event} (before : Course w past u) (still : Still u v) :
      Course w past v
  /-- Anybody may wake a task at any time. -/
  | wake {w u v : World} {past : List Event} {t : TaskId} (before : Course w past u)
      (woken : exec (wake t) u = (.ok (), v)) : Course w past v
  /-- A task is made, on a loop that is there. -/
  | spawn {w u v : World} {past : List Event} {e : ExecutorId} {l : LoopId} {name : String}
      {steps : List TaskStep} {t : TaskId} (before : Course w past u)
      (installed : u.executorLoop? e = some l) (inside : l < u.loops.size)
      (spawned : exec (spawn e name steps) u = (.ok t, v)) : Course w past v
  /-- Somebody settles a promise that was pending. -/
  | settle {w u v : World} {past : List Event} {p : PromiseId} {outcome : Outcome}
      (before : Course w past u) (settled : exec (settle p outcome) u = (.ok true, v)) :
      Course w (past ++ [.settled p outcome]) v
  /-- Somebody else wants to know of a promise. -/
  | register {w u v : World} {past : List Event} {p : PromiseId} {reaction : Reaction}
      (before : Course w past u) (other : reaction.resumes = false)
      (done : exec (register p reaction) u = (.ok (), v)) : Course w past v
  /-- A loop runs a job that answers a task. -/
  | answer {w u v x : World} {past : List Event} {l : LoopId} {channel : Nat} {outcome : Outcome}
      (before : Course w past u)
      (next : u.next? l = some (.react (.resume channel) outcome, v))
      (ran : exec (react (.resume channel) outcome) v = (.ok (), x)) : Course w past x
  /-- A task that is polled begins to wait for the promise of a reference. -/
  | await {w u v : World} {past : List Event} {t : TaskId} {p : PromiseId} {ref : Guest.Ref}
      {r : StepEnd} (before : Course w past u) (polled : u.IsPolled t) (free : u.awaited? t = none)
      (found : exec (promiseOf ref) u = (.ok (.ok p), u))
      (began : exec (beginAwait t p ref) u = (.ok r, v)) :
      Course w (past ++ [.began ⟨t, p, u.awaits.size, ref⟩ (u.seat? p)]) v
  /-- A loop runs a poll that was queued. It leaves a task that waits for a promise to be woken. -/
  | poll {w u v x y z : World} {past seen inner : List Event} {l : LoopId} {t : TaskId} {k : Task}
      {state : TaskState} {r : StepEnd} {waiter : Option TaskId} (before : Course w past u)
      (next : u.next? l = some (.poll t, v)) (present : v.tasks[t]? = some k)
      (starts : k.state.start? = some state)
      (looks : Looks t (v.withTask t { k with state }) seen x) (body : Course x inner y)
      (answered : r ≠ .go) (waits : r = .wait true ∨ y.awaited? t = none)
      (ended : exec (endPoll t r) y = (.ok waiter, z)) : Course w (past ++ (seen ++ inner)) z
  /-- A poll is run of a task that is not scheduled. -/
  | stale {w u v : World} {past : List Event} {l : LoopId} {t : TaskId} {k : Task}
      (before : Course w past u) (next : u.next? l = some (.poll t, v))
      (present : v.tasks[t]? = some k) (idle : k.state.start? = none) : Course w past v

theorem Course.trans {u v w : World} {past later : List Event} (first : Course u past v)
    (rest : Course v later w) : Course u (past ++ later) w := by
  induction rest with
  | start => simpa using first
  | still _ still ih => exact .still (ih first) still
  | wake _ woken ih => exact .wake (ih first) woken
  | spawn _ installed inside spawned ih => exact .spawn (ih first) installed inside spawned
  | settle _ settled ih =>
    rw [← List.append_assoc]
    exact .settle (ih first) settled
  | register _ other done ih => exact .register (ih first) other done
  | answer _ next ran ih => exact .answer (ih first) next ran
  | await _ polled free found began ih =>
    rw [← List.append_assoc]
    exact .await (ih first) polled free found began
  | poll _ next present starts looks body answered waits ended ih =>
    rw [← List.append_assoc]
    exact .poll (ih first) next present starts looks body answered waits ended
  | stale _ next present idle ih => exact .stale (ih first) next present idle

/-! As courses of tasks -/

theorem Looks.follows {t : TaskId} {w w' : World} {seen : List Event} (looks : Looks t w seen w') :
    TaskRun.Follows w w' := by
  have looking (channel : Nat) : Keeps TaskRun.Follows (lookFor t channel) := .onAwait channel _
  have ending (ref : Guest.Ref) (result : Except Fault Guest.Value) :
      Keeps TaskRun.Follows (endAwait t ref result) :=
    .bind (.setWait none rfl) fun _ => .bind (.release _ _) fun _ => .bind (.logAwaited t result)
      fun _ => .pure _
  have losing (ref : Guest.Ref) : Keeps TaskRun.Follows (loseAwait t ref) :=
    .bind (.onHeap _) fun _ => ending ref _
  cases looks with
  | free => exact Lasting.refl w
  | pending _ looked => exact looking _ w w' _ looked
  | found _ looked told ended =>
    exact Lasting.trans (looking _ _ _ _ looked)
      (Lasting.trans (keeps_awaitResult _ _ _ _ _ told) (ending _ _ _ _ _ ended))
  | lost _ looked ended =>
    exact Lasting.trans (looking _ _ _ _ looked) (losing _ _ _ _ ended)

theorem Course.follows {w u : World} {events : List Event} (course : Course w events u) :
    TaskRun.Follows w u := by
  induction course with
  | start => exact Lasting.refl _
  | still _ still ih => exact Lasting.trans ih (.of_calm still.calm)
  | wake _ woken ih => exact Lasting.trans ih (Working.wake woken)
  | spawn _ installed inside spawned ih =>
    obtain ⟨past, before⟩ := ih
    exact ⟨_, .spawn before installed inside spawned⟩
  | settle _ settled ih => exact Lasting.trans ih (Working.settle settled)
  | register _ _ done ih => exact Lasting.trans ih (Heedless.register done)
  | answer _ next ran ih =>
    have taken : TaskRun.Follows _ _ := .of_calm (.next next fun _ => rfl)
    exact Lasting.trans ih (Lasting.trans taken
      (keeps_performJob (.react (.resume _) _) (fun _ => rfl) _ _ () ran))
  | await _ _ _ _ began ih => exact Lasting.trans ih (keeps_beginAwait _ _ _ _ _ _ began)
  | poll _ next present starts looks _ answered _ ended ih inside =>
    obtain ⟨past, before⟩ := ih
    obtain ⟨inner, body⟩ : TaskRun.Follows _ _ := Lasting.trans looks.follows inside
    exact ⟨_, .poll before next present starts body answered ended⟩
  | stale _ next present idle ih =>
    obtain ⟨past, before⟩ := ih
    exact ⟨_, .stale before next present idle⟩

end AwaitRun

end Membrane
