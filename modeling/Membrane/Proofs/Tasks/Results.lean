import Membrane.Proofs.Tasks.Polls
/-!
The channels on which tasks answer. A poll that completes its task sends the result, and a task that is
let go closes its channel. Whoever waits there is to be woken. Nothing else is done to the channels but
that handles are let go.
-/

set_option autoImplicit false

namespace Membrane

namespace Channel

variable {α : Type}

/-- Who is to be woken when the value is sent or the sender goes away. -/
def listener? (c : Channel α) : Option TaskId := if c.isWaiting then c.waiter else none

theorem send?_eq_listener (c : Channel α) (a : α) :
    c.send? a = if c.isWaiting then some (c.listener?, c.answer a) else none := by
  cases state : c.state <;> simp [send?, listener?, answer, isWaiting, state]

theorem closeSender_eq_listener (c : Channel α) : c.closeSender = (c.listener?, c.shut) := by
  cases state : c.state <;> simp [closeSender, listener?, shut, isWaiting, state]

end Channel

namespace World

/-- The channel on which a task answers. -/
def result? (w : World) (t : TaskId) : Option (Channel String) := (w.tasks[t]?).map (·.result)

theorem result?_of_present {w : World} {t : TaskId} {k : Task} (present : w.tasks[t]? = some k) :
    w.result? t = some k.result := by
  rw [result?, present, Option.map_some]

theorem result?_withTask (w : World) (t : TaskId) (k x : Task) (present : w.tasks[t]? = some k)
    (u : TaskId) : (w.withTask t x).result? u = if u = t then some x.result else w.result? u := by
  simp only [result?, withTask, getElem?_written w.tasks t k x present]
  split <;> rfl

theorem result?_withTask_of_same (w : World) (t : TaskId) (k x : Task)
    (present : w.tasks[t]? = some k) (same : x.result = k.result) (u : TaskId) :
    (w.withTask t x).result? u = w.result? u := by
  rw [result?_withTask w t k x present]
  split
  · next here => rw [here, same, result?_of_present present]
  · rfl

theorem result?_withNewTask (w : World) (executors : Array Executor) (k : Task) (u : TaskId) :
    (w.withNewTask executors k).result? u =
      if u = w.tasks.size then some k.result else w.result? u := by
  simp only [result?, withNewTask, getElem?_pushed]
  split <;> rfl

/-- Nothing happens to the tasks at all. -/
def SameTasks (u v : World) : Prop := v.tasks = u.tasks

instance : IsPreorder World SameTasks where
  refl _ := rfl
  trans _ _ _ first rest := Eq.trans rest first

/-- Nothing is done to the channels but that handles may be let go. -/
def Discards (u v : World) : Prop :=
  ∀ j, v.result? j = u.result? j ∨ v.result? j = (u.result? j).map Channel.abandon

theorem Discards.of_same {u v : World} (same : ∀ j, v.result? j = u.result? j) : Discards u v :=
  fun j => .inl (same j)

instance : IsPreorder World Discards where
  refl _ := .of_same fun _ => rfl
  trans u v w first rest j := by
    rcases first j with kept | abandoned <;> rcases rest j with still | now
    · exact .inl (still.trans kept)
    · exact .inr (now.trans (by rw [kept]))
    · exact .inr (still.trans abandoned)
    · refine .inr (now.trans ?_)
      rw [abandoned, Option.map_map]
      rfl

theorem SameTasks.discards {u v : World} (same : SameTasks u v) : Discards u v :=
  .of_same fun j => by rw [result?, same, result?]

/-- A task's channel is settled, and handles may be let go before. Who waits there is to be woken. -/
def SettlesResult (t : TaskId) (f : Channel String → Channel String) (waiter : Option TaskId)
    (u v : World) : Prop :=
  ∃ (x : World) (c : Channel String), Discards u x ∧ x.result? t = some c ∧ waiter = c.listener? ∧
    ∀ j, v.result? j = if j = t then some (f c) else x.result? j

theorem SettlesResult.after {t : TaskId} {f : Channel String → Channel String}
    {waiter : Option TaskId} {u v w : World} (settles : SettlesResult t f waiter v w)
    (before : Discards u v) : SettlesResult t f waiter u w := by
  obtain ⟨x, c, discards, rest⟩ := settles
  exact ⟨x, c, trans_of Discards before discards, rest⟩

end World

namespace Act

open World

variable {α : Type}

theorem exec_onResult_eq_ok (t : TaskId) (f : Channel String → α × Channel String) (w w' : World)
    (a : α) (done : exec (onResult t f) w = (.ok a, w')) :
    ∃ k, w.tasks[t]? = some k ∧ a = (f k.result).1 ∧
      w' = w.withTask t { k with result := (f k.result).2 } := by
  obtain ⟨k, present, rest⟩ := exec_task_bind_eq_ok _ _ _ _ _ done
  cases rest
  exact ⟨k, present, rfl, rfl⟩

/-! What leaves tasks as they are -/

theorem Keeps.discards {act : Act α} (same : Keeps SameTasks act) : Keeps Discards act :=
  fun w w' a done => (same w w' a done).discards

theorem sameTasks_modify (f : World → World) (same : ∀ w, (f w).tasks = w.tasks) :
    Keeps SameTasks (modify f : Act Unit) := by
  rintro w w' a done
  cases done
  exact same w

theorem sameTasks_scheduleFinalizer (r : RealmId) (h : Handle) :
    Keeps SameTasks (scheduleFinalizer r h) := by
  refine .bind ?_ fun first => ?_
  · intro w w' a done
    obtain ⟨x, _, _, rfl⟩ := exec_onRealm_eq_ok w r _ w' a done
    rfl
  · split
    · exact .bind (.fetch _) fun _ => sameTasks_modify _ fun _ => rfl
    · exact .pure ()

theorem sameTasks_dropRef (ref : Guest.Ref) : Keeps SameTasks (dropRef ref) := by
  refine .bind (.fetch _) fun x => ?_
  split
  · exact sameTasks_scheduleFinalizer _ _
  · exact .pure ()

theorem sameTasks_dropToken (t : TokenId) : Keeps SameTasks (dropToken t) := by
  refine .bind (.fetch _) fun x => .bind (sameTasks_modify _ fun _ => rfl) fun _ => ?_
  split
  · exact sameTasks_scheduleFinalizer _ _
  · exact .pure ()

theorem sameTasks_dropReceive (id : ReceiveId) : Keeps SameTasks (dropReceive id) := by
  have cleared : Keeps SameTasks (setReceive id none) := sameTasks_modify _ fun _ => rfl
  refine .bind (.fetch _) fun x => ?_
  split
  · exact .pure ()
  · refine .bind cleared fun _ => ?_
    split
    · exact sameTasks_dropRef _
    · exact .pure ()
  · have abandoned (reply : ReplyId) : Keeps SameTasks (onReply reply fun c => ((), c.abandon)) :=
      .bind (.fetch _) fun _ => .bind (sameTasks_modify _ fun _ => rfl) fun _ => .pure _
    exact .bind cleared fun _ => .bind (abandoned _) fun _ => sameTasks_modify _ fun _ => rfl

/-! What lets go of handles -/

theorem discards_dropJoin (t : TaskId) : Keeps Discards (dropJoin t) := by
  intro w w' a done
  obtain ⟨k, present, -, rfl⟩ := exec_onResult_eq_ok t _ w w' a done
  intro j
  rw [result?_withTask w t k _ present]
  split
  · next here => exact .inr (by rw [here, result?_of_present present, Option.map_some])
  · exact .inl rfl

theorem discards_dropStep (step : TaskStep) : Keeps Discards (dropStep step) := by
  cases step with
  | join t => exact discards_dropJoin t
  | await ref => exact (sameTasks_dropRef ref).discards
  | receive t => exact (sameTasks_dropToken t).discards
  | log | sleep | yield | pending | panic | finish => exact .pure ()

theorem discards_dropWait (wait : Wait) : Keeps Discards (dropWait wait) := by
  cases wait with
  | sleeping | yielded => exact .pure ()
  | joining t => exact discards_dropJoin t
  | awaiting p channel ref =>
    have abandoned : Keeps SameTasks (onAwait channel fun c => ((), c.abandon)) :=
      .bind (.fetch _) fun _ => .bind (sameTasks_modify _ fun _ => rfl) fun _ => .pure _
    exact .bind abandoned.discards fun _ => (sameTasks_dropRef ref).discards
  | receiving token receive name =>
    exact .bind (sameTasks_dropReceive receive).discards fun _ => (sameTasks_dropToken token).discards

/-- A task is written anew with the channel that it had. -/
theorem discards_withTask {w : World} {t : TaskId} {k x : Task} (present : w.tasks[t]? = some k)
    (same : x.result = k.result) : Discards w (w.withTask t x) :=
  .of_same (result?_withTask_of_same w t k x present same)

/-- Handles are let go, and then the task's channel is settled. -/
theorem settlesResult_of_onResult (t : TaskId) (f : Channel String → Option TaskId × Channel String)
    (g : Channel String → Channel String) (same : ∀ c, f c = (c.listener?, g c)) (w u w' : World)
    (waiter : Option TaskId) (before : Discards w u)
    (done : exec (onResult t f) u = (.ok waiter, w')) : SettlesResult t g waiter w w' := by
  obtain ⟨k, present, rfl, rfl⟩ := exec_onResult_eq_ok t f u w' waiter done
  refine ⟨u, k.result, before, result?_of_present present, by rw [same], fun j => ?_⟩
  rw [result?_withTask u t k _ present, same]

theorem settlesResult_completion (t : TaskId) (result : String) (w w' : World)
    (waiter : Option TaskId) (done : exec (completion t result) w = (.ok waiter, w')) :
    SettlesResult t (·.answer result) waiter w w' := by
  obtain ⟨_, v, sends, marked⟩ := exec_bind_eq_ok _ _ _ _ _ done
  obtain ⟨k, present, clears⟩ := exec_task_bind_eq_ok _ _ _ _ _ sends
  obtain ⟨_, x, cleared, drops⟩ := exec_bind_eq_ok _ _ _ _ _ clears
  cases cleared
  obtain ⟨_, x, dropped, sent⟩ := exec_bind_eq_ok _ _ _ _ _ drops
  have first : Discards w (w.withTask t { k with wait := none, steps := [] }) :=
    discards_withTask present rfl
  have before : Discards w x :=
    trans_of Discards first (Keeps.forM _ discards_dropStep _ _ x _ dropped)
  obtain ⟨y, c, discards, found, rfl, after⟩ := by
    refine settlesResult_of_onResult t _ (·.answer result) (fun c => ?_) w x v _ before sent
    rw [Channel.send?_eq_listener]
    cases waiting : c.isWaiting with
    | true => rfl
    | false => simp [Channel.listener?, waiting, Channel.answer_of_not_waiting]
  -- The task is marked as completed, which its channel does not see.
  obtain ⟨k, present, written⟩ := exec_task_bind_eq_ok _ _ _ _ _ marked
  cases written
  refine ⟨y, c, discards, found, rfl, fun j => ?_⟩
  exact (result?_withTask_of_same v t k { k with state := .completed } present rfl j).trans (after j)

theorem settlesResult_abandonment (t : TaskId) (w w' : World) (waiter : Option TaskId)
    (done : exec (abandonment t) w = (.ok waiter, w')) : SettlesResult t (·.shut) waiter w w' := by
  obtain ⟨k, present, clears⟩ := exec_task_bind_eq_ok _ _ _ _ _ done
  obtain ⟨_, x, cleared, drops⟩ := exec_bind_eq_ok _ _ _ _ _ clears
  cases cleared
  have rest (y : World) (before : Discards w y)
      (done : exec (k.steps.forM dropStep >>= fun _ => onResult t (·.closeSender)) y =
        (.ok waiter, w')) : SettlesResult t (·.shut) waiter w w' := by
    obtain ⟨_, z, dropped, closed⟩ := exec_bind_eq_ok _ _ _ _ _ done
    have steps : Discards y z := Keeps.forM _ discards_dropStep _ y z _ dropped
    exact settlesResult_of_onResult t _ (·.shut) Channel.closeSender_eq_listener w z w' waiter
      (trans_of Discards before steps) closed
  have cleared : Discards w (w.withTask t { k with wait := none, steps := [] }) :=
    discards_withTask present rfl
  split at drops
  · next wait waiting =>
    obtain ⟨_, y, dropped, last⟩ := exec_bind_eq_ok _ _ _ _ _ drops
    exact rest y (trans_of Discards cleared (discards_dropWait wait _ y _ dropped)) last
  · exact rest _ cleared drops

/-- A wake leaves the channels alone. -/
theorem result?_of_wake (t : TaskId) (w w' : World) (done : exec (wake t) w = (.ok (), w'))
    (j : TaskId) : w'.result? j = w.result? j := by
  obtain ⟨k, present, ⟨-, l, -, rfl⟩ | ⟨-, rfl⟩ | ⟨-, -, rfl⟩⟩ := exec_wake_eq_ok t w w' done
  · exact result?_withTask_of_same w t k { k with state := .scheduled } present rfl j
  · exact result?_withTask_of_same w t k { k with state := .notified } present rfl j
  · rfl

/-- A wake is remembered in the state of the task, and in no other state. -/
theorem taskState?_of_wake (t : TaskId) (w w' : World) (done : exec (wake t) w = (.ok (), w')) :
    ∃ state, w.taskState? t = some state ∧
      ∀ u, w'.taskState? u = if u = t then some state.wake.1 else w.taskState? u := by
  obtain ⟨k, present, change⟩ := exec_wake_eq_ok t w w' done
  refine ⟨k.state, TaskRun.taskState?_of_present present, fun u => ?_⟩
  rcases change with ⟨idle, l, -, rfl⟩ | ⟨running, rfl⟩ | ⟨notIdle, notRunning, rfl⟩
  · rw [idle, taskState?_post, taskState?_withTask w t k _ present]
    rfl
  · rw [running, taskState?_withTask w t k _ present]
    rfl
  · have same : k.state.wake.1 = k.state := by
      cases state : k.state <;> simp_all [TaskState.wake]
    rw [same]
    split
    · next here => rw [here, TaskRun.taskState?_of_present present]
    · rfl

/-- A poll that does not complete its task leaves it scheduled if it was woken meanwhile, else idle.
An idle task that nothing can wake is let go. -/
theorem results_of_suspend (t : TaskId) (wakeable : Bool) (w w' : World) (waiter : Option TaskId)
    (done : exec (endPoll t (.wait wakeable)) w = (.ok waiter, w')) :
    (w'.taskState? t = some .scheduled ∧ waiter = none ∧ Discards w w') ∨
      w'.taskState? t = some .idle ∧ (wakeable = true → waiter = none ∧ Discards w w') ∧
        (wakeable = false → SettlesResult t (·.shut) waiter w w') := by
  obtain ⟨k, present, rest⟩ := exec_task_bind_eq_ok _ _ _ _ _ done
  obtain ⟨_, v, written, ending⟩ := exec_bind_eq_ok _ _ _ _ _ rest
  cases written
  have still (state : TaskState) : Discards w (w.withTask t { k with state }) :=
    discards_withTask present rfl
  have comesTo (state : TaskState) : (w.withTask t { k with state }).taskState? t = some state := by
    rw [taskState?_withTask w t k _ present, if_pos rfl]
  cases state : k.state with
  | running =>
    rw [state] at ending
    refine .inr ?_
    cases wakeable with
    | true =>
      cases ending
      exact ⟨comesTo .idle, fun _ => ⟨rfl, still .idle⟩, nofun⟩
    | false =>
      have calm := Keeps.abandonment t (R := Calm) _ w' waiter ending
      have settles := settlesResult_abandonment t _ w' waiter ending
      exact ⟨(calm.state t).trans (comesTo .idle), nofun, fun _ => settles.after (still .idle)⟩
  | idle | scheduled | notified | completed =>
    rw [state] at ending
    obtain ⟨_, x, queued, last⟩ := exec_bind_eq_ok _ _ _ _ _ ending
    cases last
    obtain ⟨l, -, rfl⟩ := exec_enqueue_eq_ok _ _ _ _ queued
    exact .inl ⟨comesTo .scheduled, rfl, still .scheduled⟩

/-- The end of a poll is seen in the state of its task, and in no other state. -/
theorem taskState?_of_endPoll (t : TaskId) (r : StepEnd) (answered : r ≠ .go) (w w' : World)
    (waiter : Option TaskId) (done : exec (endPoll t r) w = (.ok waiter, w')) :
    w.taskState? t ≠ none ∧ ∃ now, (r.isFinish = true → now = .completed) ∧
      ∀ u, w'.taskState? u = if u = t then some now else w.taskState? u := by
  rcases exec_endPoll_eq_ok t r answered w w' waiter done with
    ⟨-, u, k, calm, present, rfl⟩ | ⟨pending, k, present, change⟩
  · have before := (calm.state t).symm.trans (TaskRun.taskState?_of_present present)
    refine ⟨by simp [before], .completed, fun _ => rfl, fun j => ?_⟩
    rw [taskState?_withTask u t k _ present, calm.state]
  · have before := TaskRun.taskState?_of_present present
    have state (now : TaskState) := taskState?_withTask w t k { k with state := now } present
    have unfinished (now : TaskState) (finish : r.isFinish = true) : now = .completed := by
      rw [pending] at finish
      cases finish
    rcases change with ⟨-, calm⟩ | ⟨-, l, -, rfl⟩
    · exact ⟨by simp [before], .idle, unfinished _, fun j => (calm.state j).trans (state .idle j)⟩
    · exact ⟨by simp [before], .scheduled, unfinished _, state .scheduled⟩

/-- A new task is scheduled, and its channel is new. -/
theorem results_of_spawn (e : ExecutorId) (name : String) (steps : List TaskStep) (w w' : World)
    (t : TaskId) (done : exec (spawn e name steps) w = (.ok t, w')) :
    w.taskState? t = none ∧
      (∀ u, w'.taskState? u = if u = t then some .scheduled else w.taskState? u) ∧
      ∀ u, w'.result? u = if u = t then some .create else w.result? u := by
  obtain ⟨rfl, k, l, executors, state, -, result, -, -, -, rfl⟩ :=
    exec_spawn_eq_ok e name steps w w' t done
  refine ⟨by simp [taskState?], fun u => ?_, fun u => ?_⟩
  · rw [taskState?_post, taskState?_withNewTask, state]
  · exact (result?_withNewTask w executors k u).trans (by rw [result])

end Act

end Membrane
