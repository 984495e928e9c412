import Membrane.Proofs.Awaits.Jobs
import Membrane.Proofs.Awaits.Kept
import Membrane.Proofs.Crossing.RoundTrip
/-!
What becomes of tasks that wait for promises. Each gets the outcome of its promise, once, and not
before the promise is settled; when the loop has run its microtasks, nobody waits for a promise that
is settled. Only the copy of an object or a function costs a reference.
-/

set_option autoImplicit false

namespace Membrane

namespace Act

open World RefTable

variable {g : Host.Value}

/-- Only who owns a realm adopts strings and objects in it. -/
theorem owner_of_adopt (r : RealmId) (x : Realm) (v : Host.Value) (w w' : World)
    (result : Except Fault Guest.Value) (present : w.realms[r]? = some x)
    (kept : (∃ s, v = .string s) ∨ ∃ o, v = .object o)
    (done : exec (adopt r v) w = (.ok result, w')) : x.owner = w.here := by
  obtain ⟨raw, u, lowered, _⟩ := exec_bind_eq_ok _ _ _ _ _ done
  rcases kept with ⟨s, rfl⟩ | ⟨o, rfl⟩
  · obtain ⟨h, v, retained, _⟩ := exec_bind_eq_ok _ _ _ _ _ lowered
    exact owner_of_asserted w r x present _ v h retained
  · obtain ⟨_, _, read, lowered⟩ := exec_bind_eq_ok _ _ _ _ _ lowered
    cases read
    obtain ⟨h, v, retained, _⟩ := exec_bind_eq_ok _ _ _ _ _ lowered
    exact owner_of_asserted w r x present _ v h retained

/-- A value that is adopted comes to the guest's copy of it. -/
theorem exec_adopt_eq_ok (r : RealmId) (x : Realm) (v : Host.Value) (w w' : World)
    (result : Except Fault Guest.Value) (present : w.realms[r]? = some x)
    (sound : x.table.Sound g) (room : x.table.RoomFor 1)
    (done : exec (adopt r v) w = (.ok result, w')) :
    ∃ a y, result = .ok a ∧ w' = w.withRealm r y ∧ Copies w.heap r y.table a v ∧
      Gains g x.table a.handles y.table := by
  have unchanged : w = w.withRealm r x := (w.withRealm_self r x present).symm
  have owned (owner : x.owner = w.here) := exec_adopt w x present owner sound room v
  cases v with
  | undefined =>
    cases done
    exact ⟨_, x, rfl, unchanged, .undefined, sound.gains_nothing⟩
  | null =>
    cases done
    exact ⟨_, x, rfl, unchanged, .null, sound.gains_nothing⟩
  | bool b =>
    cases b <;>
    · cases done
      exact ⟨_, x, rfl, unchanged, .bool _, sound.gains_nothing⟩
  | number n =>
    cases done
    exact ⟨_, x, rfl, unchanged, .number n, sound.gains_nothing⟩
  | string s =>
    obtain ⟨a, y, adopted, _, copies, gains⟩ :=
      owned (owner_of_adopt r x _ w w' result present (.inl ⟨s, rfl⟩) done)
    cases adopted.symm.trans done
    exact ⟨a, y, rfl, rfl, copies, gains⟩
  | object o =>
    obtain ⟨a, y, adopted, _, copies, gains⟩ :=
      owned (owner_of_adopt r x _ w w' result present (.inr ⟨o, rfl⟩) done)
    cases adopted.symm.trans done
    exact ⟨a, y, rfl, rfl, copies, gains⟩

/-! What waiting costs -/

/-- To look for an outcome touches no realm. -/
theorem realms_of_lookFor (t : TaskId) (channel : Nat) (receipt : Receipt Outcome) (w w' : World)
    (looked : exec (lookFor t channel) w = (.ok receipt, w')) :
    w'.realms = w.realms ∧ w'.heap = w.heap := by
  obtain ⟨_, _, _, rfl⟩ := exec_onAwait_eq_ok _ _ _ _ _ looked
  exact ⟨rfl, rfl⟩

/-- A task that goes on waiting for a promise has touched no realm. -/
theorem exec_resumeWait_awaiting (t : TaskId) (p : PromiseId) (channel : Nat) (ref : Guest.Ref)
    (wakeable : Bool) (w w' : World)
    (done : exec (resumeWait t (.awaiting p channel ref)) w = (.ok (.wait wakeable), w')) :
    wakeable = true ∧ w'.realms = w.realms := by
  rw [resumeWait_awaiting] at done
  obtain ⟨receipt, u, looked, rest⟩ := exec_bind_eq_ok _ _ _ _ _ done
  cases receipt with
  | pending =>
    cases rest
    exact ⟨rfl, (realms_of_lookFor t channel _ w _ looked).1⟩
  | value outcome =>
    obtain ⟨result, v, _, ended⟩ := exec_bind_eq_ok _ _ _ _ _ rest
    cases (exec_endAwait_eq_ok t ref result v w' _ ended).1
  | closed =>
    obtain ⟨e, v, _, ended⟩ := exec_bind_eq_ok _ _ _ _ _ rest
    cases (exec_endAwait_eq_ok t ref _ v w' _ ended).1
  | exhausted => cases rest

/-- A task that begins to wait for a promise touches no realm. -/
theorem exec_beginStep_await (t : TaskId) (ref : Guest.Ref) (wakeable : Bool) (w w' : World)
    (done : exec (beginStep t (.await ref)) w = (.ok (.wait wakeable), w')) :
    wakeable = true ∧ w'.realms = w.realms := by
  rw [beginStep_await] at done
  obtain ⟨result, u, taken, begun⟩ := exec_bind_eq_ok _ _ _ _ _ done
  cases result with
  | error e =>
    obtain ⟨_, _, _, rest⟩ := exec_bind_eq_ok _ _ _ _ _ begun
    cases rest
  | ok p =>
    obtain ⟨rfl, _⟩ := exec_takePromise_eq_ok ref w u p taken
    obtain ⟨waits, _, realms⟩ := exec_beginAwait_eq_ok t p ref u w' _ begun
    cases waits
    exact ⟨rfl, realms⟩

theorem realms_of_wakeAny (waiter : Option TaskId) (w w' : World)
    (done : exec (wakeAny waiter) w = (.ok (), w')) : w'.realms = w.realms := by
  cases waiter with
  | none =>
    cases done
    rfl
  | some t =>
    obtain ⟨k, _, ⟨_, l, _, rfl⟩ | ⟨_, rfl⟩ | ⟨_, _, rfl⟩⟩ := exec_wake_eq_ok t w w' done <;> rfl

/-- An answer that is sent touches no realm. -/
theorem realms_of_react_resume (channel : Nat) (outcome : Outcome) (w w' : World)
    (done : exec (react (.resume channel) outcome) w = (.ok (), w')) : w'.realms = w.realms := by
  obtain ⟨c, _, ⟨_, woken⟩ | ⟨_, rfl⟩⟩ := exec_react_resume_eq_ok channel outcome w w' done
  · rw [realms_of_wakeAny c.waiter _ w' woken]
    rfl
  · rfl

end Act

namespace AwaitRun

open Act World RefTable

/-- What a delivery makes of an outcome. -/
structure Delivery.Conveys (d : Delivery) (a : Await) (outcome : Outcome) : Prop where
  brings : d.Brings a outcome
  /-- A rejection comes with the reason itself. -/
  rejected : ∀ reason, outcome = .error reason →
    d.result = .error (.hostException reason) ∧ d.after.realms = d.before.realms
  /-- A value comes as the guest's copy. No count of references changes, but that a copy which is a
  reference has one. -/
  fulfilled : ∀ v x g, outcome = .ok v → d.before.realms[a.ref.realm]? = some x →
    x.table.Sound g → x.table.RoomFor 1 →
    ∃ b y, d.result = .ok b ∧ Copies d.before.heap a.ref.realm y.table b v ∧
      (∀ r, d.after.realms[r]? = if r = a.ref.realm then some y else d.before.realms[r]?) ∧
      ∀ h, y.table.count h = x.table.count h + b.handles.count h

theorem Delivery.Brings.conveys {d : Delivery} {a : Await} {outcome : Outcome}
    (brings : d.Brings a outcome) : d.Conveys a outcome where
  brings := brings
  rejected reason rejects := by
    obtain ⟨u, looked, told⟩ := brings
    subst rejects
    obtain ⟨same, rfl⟩ := Prod.mk.inj told
    exact ⟨(Except.ok.inj same).symm, (realms_of_lookFor _ _ _ _ _ looked).1⟩
  fulfilled v x g fulfils present sound room := by
    obtain ⟨u, looked, told⟩ := brings
    subst fulfils
    obtain ⟨realms, heap⟩ := realms_of_lookFor _ _ _ _ _ looked
    rw [← realms] at present
    obtain ⟨b, y, same, after, copies, gains⟩ :=
      exec_adopt_eq_ok a.ref.realm x v u d.after d.result present sound room told
    refine ⟨b, y, same, heap ▸ copies, fun r => ?_, gains.count sound⟩
    rw [after, ← realms]
    exact u.realms_withRealm a.ref.realm x y present r

/-- Where nothing has happened yet, everything is as it should be. -/
theorem kept_start (w : World) (noTasks : w.tasks = #[]) (noAnswers : ∀ l, w.answers l = [])
    (noReactions : ∀ p channel, .resume channel ∉ w.reactions p) : Kept w [] w where
  fresh := by simp [Begun]
  distinct := by simp [Begun]
  waits := by simp [awaited?, noTasks, Begun]
  registered p channel among := (noReactions p channel among).elim
  queued l channel outcome among := by
    rw [noAnswers] at among
    cases among
  stands := by simp
  known _ _ known := .inl known
  outcomes := by simp
  order := by simp
  none_lost := by simp

/-- Whoever waits for a promise that is settled has an answer queued, or is to be polled. -/
theorem Kept.underway {start w : World} {past : List Event} {a : Await} {l : LoopId}
    {outcome : Outcome} (kept : Kept start past w) (among : .began a (some l) ∈ past)
    (undone : ¬Completed past a) (settled : w.outcome? a.promise = some outcome) :
    (a.channel, outcome) ∈ w.answers l ∨ w.IsDue a.task := by
  cases (kept.stands a (some l) among undone).phase with
  | waiting _ _ queued => exact .inl (queued l outcome rfl settled)
  | answered _ _ _ due => exact .inr due

/-- Between two polls a task that is to be polled has a poll queued. -/
theorem queuedPolls_of_isDue {w : World} {past : List TaskRun.Event} {t : TaskId}
    (sound : TaskRun.Sound past w) (idle : (TaskRun.tally past t).polling = false)
    (due : w.IsDue t) : ∃ l, w.taskLoop? t = some l ∧ w.queuedPolls l t = 1 := by
  rcases due with scheduled | notified
  · obtain ⟨l, loop, _⟩ := sound.seated t (by simp [scheduled])
    exact ⟨l, loop, by simp [sound.queued, scheduled, loop]⟩
  · have agrees := sound.agrees t
    rw [notified] at agrees
    simp [agrees.1] at idle

/-- Tasks wait for promises, and promises are settled, in whatever order. A task that waits gets the
outcome of its promise after that is settled, and gets it once: a copy of the value, or the reason it
was rejected with. It is never told that the promise is gone. As long as a task was not told, it waits;
if its promise is settled, the answer is queued or the task is to be polled, so no task is left that
waits for a settled promise when the loop has run its microtasks. Until it is told the outcome, no
realm is touched. -/
theorem awaits_complete_once (w u : World) (events : List Event) (course : Course w events u)
    (noTasks : w.tasks = #[]) (noPolls : ∀ l t, w.queuedPolls l t = 0)
    (noAnswers : ∀ l, w.answers l = [])
    (noReactions : ∀ p channel, .resume channel ∉ w.reactions p) :
    (∀ past a outcome delivery later, events = past ++ .completed a outcome delivery :: later →
      Begun past a ∧
      (w.outcome? a.promise = some outcome ∨ .settled a.promise outcome ∈ past) ∧
      ¬Completed past a ∧ ¬Completed later a ∧
      u.outcome? a.promise = some outcome ∧ delivery.Conveys a outcome) ∧
    (∀ a, .lost a ∉ events) ∧
    (∀ t a, u.awaited? t = some a ↔ a.task = t ∧ Begun events a ∧ ¬Completed events a) ∧
    (∀ a l outcome, .began a (some l) ∈ events → ¬Completed events a →
      u.outcome? a.promise = some outcome → (a.channel, outcome) ∈ u.answers l ∨
        ∃ m, u.taskLoop? a.task = some m ∧ u.queuedPolls m a.task = 1) ∧
    (∀ l n v, exec (checkpoint l) u = (.ok n, v) → ∃ more, Course w (events ++ more) v ∧
      ∀ a outcome, .began a (some l) ∈ events ++ more → v.outcome? a.promise = some outcome →
        v.taskLoop? a.task = some l → Completed (events ++ more) a) ∧
    (∀ t ref wakeable v v', exec (beginStep t (.await ref)) v = (.ok (.wait wakeable), v') →
      wakeable = true ∧ v'.realms = v.realms) ∧
    (∀ t p channel ref wakeable v v',
      exec (resumeWait t (.awaiting p channel ref)) v = (.ok (.wait wakeable), v') →
      wakeable = true ∧ v'.realms = v.realms) ∧
    ∀ channel outcome v v', exec (react (.resume channel) outcome) v = (.ok (), v') →
      v'.realms = v.realms := by
  have first := kept_start w noTasks noAnswers noReactions
  have everything {events : List Event} {u : World} (course : Course w events u) :
      Kept w events u := course.kept [] first
  have kept := everything course
  have underway {events : List Event} {u : World} (course : Course w events u) (a : Await)
      (l : LoopId) (outcome : Outcome) (among : .began a (some l) ∈ events)
      (undone : ¬Completed events a) (settled : u.outcome? a.promise = some outcome) :
      (a.channel, outcome) ∈ u.answers l ∨
        ∃ m, u.taskLoop? a.task = some m ∧ u.queuedPolls m a.task = 1 := by
    refine ((everything course).underway among undone settled).imp_right fun due => ?_
    obtain ⟨polls, tasks⟩ := course.follows
    obtain ⟨sound, idle⟩ := tasks.sound [] (TaskRun.start_sound w noTasks noPolls)
    exact queuedPolls_of_isDue sound (idle _) due
  refine ⟨?_, kept.none_lost, kept.waits, underway course, ?_, exec_beginStep_await,
    exec_resumeWait_awaiting, realms_of_react_resume⟩
  · rintro past a outcome delivery later rfl
    have order := kept.order past a outcome delivery ⟨later, by simp⟩
    refine ⟨order.begun, order.settled, order.once, ?_, kept.outcomes a outcome delivery (by simp),
      order.brought.conveys⟩
    rintro ⟨outcome', delivery', among⟩
    obtain ⟨between, rest, rfl⟩ := List.append_of_mem among
    have again := kept.order (past ++ .completed a outcome delivery :: between) a outcome' delivery'
      ⟨rest, by simp⟩
    exact again.once ⟨outcome, delivery, by simp⟩
  · intro l n v done
    obtain ⟨⟨more, run⟩, noAnswer, noPoll⟩ := follows_checkpoint l n u v done
    have whole := course.trans run
    refine ⟨more, whole, fun a outcome among settled seat => ?_⟩
    by_contra undone
    rcases underway whole a l outcome among undone settled with answer | ⟨m, loop, queued⟩
    · rw [noAnswer] at answer
      cases answer
    · obtain rfl := Option.some.inj (seat.symm.trans loop)
      rw [noPoll] at queued
      cases queued

/-- Two tasks on one loop wait for a promise of another, one from before it is rejected and one from
then on. -/
theorem awaits_complete_once_of_two :
    let w : World := { World.create .default with
      loops := #[⟨.empty 0, .manual 0, []⟩, ⟨.empty 0, .manual 0, []⟩]
      executors := #[⟨"main", some 0, 0⟩], promises := #[.create 1]
      heap := ⟨#[⟨some Host.Object.promiseClass, .promise 0, []⟩]⟩
      realms := #[.create ⟨0⟩ 0 0 (.negotiate true) .dense 0] }
    let ref : Guest.Ref := ⟨0, .globalObject⟩
    let reason : Host.Value := .string "no"
    let awaits : List Await := [⟨0, 0, 0, ref⟩, ⟨1, 0, 1, ref⟩]
    let u₁ := (exec (spawn 0 "early" [.await ref]) w).2
    let u₂ := (exec (checkpoint 0) u₁).2
    let u₃ := (exec (settle 0 (.error reason)) u₂).2
    let u₄ := (exec (spawn 0 "late" [.await ref]) u₃).2
    let u₅ := (exec (checkpoint 0) u₄).2
    let u₆ := (exec (checkpoint 1) u₅).2
    let v := (exec (checkpoint 0) u₆).2
    ∃ events, Course w events v ∧ ∀ a ∈ awaits,
      ∃ delivery, .completed a (.error reason) delivery ∈ events ∧
        delivery.result = .error (.hostException reason) := by
  intro w ref reason awaits u₁ u₂ u₃ u₄ u₅ u₆ v
  obtain ⟨did₁, did₂, did₃, did₄, did₅, did₆, did, early, late, inside, waiting, told, known⟩ :
      (exec (spawn 0 "early" [.await ref]) w).1.toOption = some 0 ∧
      (exec (checkpoint 0) u₁).1.toOption = some 1 ∧
      (exec (settle 0 (.error reason)) u₂).1.toOption = some true ∧
      (exec (spawn 0 "late" [.await ref]) u₃).1.toOption = some 1 ∧
      (exec (checkpoint 0) u₄).1.toOption = some 1 ∧
      (exec (checkpoint 1) u₅).1.toOption = some 2 ∧
      (exec (checkpoint 0) u₆).1.toOption = some 2 ∧
      w.executorLoop? 0 = some 0 ∧ u₃.executorLoop? 0 = some 0 ∧ 0 < u₃.loops.size ∧
      (∀ a ∈ awaits, u₅.awaited? a.task = some a) ∧
      (∀ a ∈ awaits, v.awaited? a.task = none) ∧
      ∀ a ∈ awaits, v.outcome? a.promise = some (.error reason) := by
    decide +kernel +revert
  have noPolls (l : LoopId) (t : TaskId) : w.queuedPolls l t = 0 := by
    rcases l with _ | _ | l <;> rfl
  have noAnswers (l : LoopId) : w.answers l = [] := by rcases l with _ | _ | l <;> rfl
  have noReactions (p : PromiseId) (channel : Nat) : .resume channel ∉ w.reactions p := by
    rcases p with _ | p <;> exact List.not_mem_nil
  have noTasks : w.tasks = #[] := rfl
  have first : 0 < w.loops.size := by simp [w]
  have ran₁ : exec (spawn 0 "early" [.await ref]) w = (.ok 0, u₁) := exec_eq_of_toOption _ w _ did₁
  have ran₂ : exec (checkpoint 0) u₁ = (.ok 1, u₂) := exec_eq_of_toOption _ u₁ _ did₂
  have ran₃ : exec (settle 0 (.error reason)) u₂ = (.ok true, u₃) := exec_eq_of_toOption _ u₂ _ did₃
  have ran₄ : exec (spawn 0 "late" [.await ref]) u₃ = (.ok 1, u₄) := exec_eq_of_toOption _ u₃ _ did₄
  have ran₅ : exec (checkpoint 0) u₄ = (.ok 1, u₅) := exec_eq_of_toOption _ u₄ _ did₅
  have ran₆ : exec (checkpoint 1) u₅ = (.ok 2, u₆) := exec_eq_of_toOption _ u₅ _ did₆
  have ran : exec (checkpoint 0) u₆ = (.ok 2, v) := exec_eq_of_toOption _ u₆ _ did
  clear_value v u₆ u₅ u₄ u₃ u₂ u₁ w
  have begins : Course w [] u₁ := .spawn (.start w) early first ran₁
  obtain ⟨⟨_, run₂⟩, _⟩ := follows_checkpoint 0 1 u₁ u₂ ran₂
  obtain ⟨⟨_, run₅⟩, _⟩ := follows_checkpoint 0 1 u₄ u₅ ran₅
  have course := (Course.spawn (.settle (begins.trans run₂) ran₃) late inside ran₄).trans run₅
  obtain ⟨more, rest⟩ : Follows u₅ v :=
    (follows_checkpoint 1 2 u₅ u₆ ran₆).1.trans (follows_checkpoint 0 2 u₆ v ran).1
  have whole := course.trans rest
  obtain ⟨_, _, awaited, _⟩ :=
    awaits_complete_once w u₅ _ course noTasks noPolls noAnswers noReactions
  obtain ⟨once, _, left, _⟩ := awaits_complete_once w v _ whole noTasks noPolls noAnswers noReactions
  refine ⟨_, whole, fun a listed => ?_⟩
  obtain ⟨_, begun, _⟩ := (awaited a.task a).mp (waiting a listed)
  obtain ⟨outcome, delivery, among⟩ : Completed _ a := by
    by_contra undone
    have still := (left a.task a).mpr ⟨rfl, (begun_append _ more a).mpr (.inl begun), undone⟩
    rw [told a listed] at still
    cases still
  obtain ⟨past, later, split⟩ := List.append_of_mem among
  obtain ⟨_, _, _, _, settled, conveys⟩ := once past a outcome delivery later split
  obtain rfl := Option.some.inj (settled.symm.trans (known a listed))
  exact ⟨delivery, among, (conveys.rejected reason rfl).1⟩

end AwaitRun

end Membrane
