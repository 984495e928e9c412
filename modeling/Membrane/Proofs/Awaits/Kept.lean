import Membrane.Proofs.Awaits.Course
/-!
How everything stands after a course of tasks that wait for promises. Whoever waits for a promise
that is pending stands among its reactions, whoever waits for a settled one has an answer queued or is
to be polled, and nobody else is mentioned anywhere.
-/

set_option autoImplicit false

namespace Membrane.AwaitRun

open Act World

/-- Whether a task began to wait. -/
def Begun (past : List Event) (a : Await) : Prop := ∃ seat, .began a seat ∈ past

/-- Whether a task that waited got its outcome. -/
def Completed (past : List Event) (a : Await) : Prop :=
  ∃ outcome delivery, .completed a outcome delivery ∈ past

section

variable (past more : List Event) (a b : Await)

@[simp] theorem begun_append : Begun (past ++ more) a ↔ Begun past a ∨ Begun more a := by
  simp only [Begun, List.mem_append, exists_or]

@[simp] theorem completed_append :
    Completed (past ++ more) a ↔ Completed past a ∨ Completed more a := by
  simp only [Completed, List.mem_append, exists_or]

@[simp] theorem begun_began (seat : Option LoopId) : Begun [.began b seat] a ↔ a = b := by
  simp [Begun]

@[simp] theorem completed_began (seat : Option LoopId) : ¬Completed [.began b seat] a := by
  simp [Completed]

@[simp] theorem begun_settled (p : PromiseId) (outcome : Outcome) :
    ¬Begun [.settled p outcome] a := by
  simp [Begun]

@[simp] theorem completed_settled (p : PromiseId) (outcome : Outcome) :
    ¬Completed [.settled p outcome] a := by
  simp [Completed]

@[simp] theorem begun_completed (outcome : Outcome) (delivery : Delivery) :
    ¬Begun [.completed b outcome delivery] a := by
  simp [Begun]

@[simp] theorem completed_completed (outcome : Outcome) (delivery : Delivery) :
    Completed [.completed b outcome delivery] a ↔ a = b := by
  simp [Completed]

end

/-- How far a task is that waits for a promise. -/
inductive Phase (w : World) (seat : Option LoopId) (a : Await) : Prop
  /-- The channel is empty, and the task is to be woken by whoever fills it. -/
  | waiting (channel : w.awaits[a.channel]? = some ⟨.waiting, some a.task⟩)
      (registered : w.outcome? a.promise = none → .resume a.channel ∈ w.reactions a.promise)
      (queued : ∀ l outcome, seat = some l → w.outcome? a.promise = some outcome →
        (a.channel, outcome) ∈ w.answers l)
  /-- The outcome is in the channel, and the task is to be polled. -/
  | answered (outcome : Outcome) (channel : w.awaits[a.channel]? = some ⟨.sent outcome, none⟩)
      (settled : w.outcome? a.promise = some outcome) (due : w.IsDue a.task)

/-- A task stands where it waits for a promise. -/
structure Stands (w : World) (seat : Option LoopId) (a : Await) : Prop where
  unfinished : w.taskState? a.task ≠ some .completed
  seated : ∀ l, seat = some l → w.seat? a.promise = some l
  phase : Phase w seat a

/-- What is so when a task gets an outcome. -/
structure InOrder (start : World) (past : List Event) (a : Await) (outcome : Outcome)
    (delivery : Delivery) : Prop where
  begun : Begun past a
  settled : start.outcome? a.promise = some outcome ∨ .settled a.promise outcome ∈ past
  once : ¬Completed past a
  brought : delivery.Brings a outcome

/-- What is so at any time. -/
structure Kept (start : World) (past : List Event) (w : World) : Prop where
  fresh : ∀ a, Begun past a → a.channel < w.awaits.size
  distinct : ∀ a b, Begun past a → Begun past b → a.channel = b.channel → a = b
  waits : ∀ t a, w.awaited? t = some a ↔ a.task = t ∧ Begun past a ∧ ¬Completed past a
  registered : ∀ p channel, .resume channel ∈ w.reactions p →
    ∃ a, Begun past a ∧ a.channel = channel ∧ a.promise = p
  queued : ∀ l channel outcome, (channel, outcome) ∈ w.answers l →
    ∃ a, Begun past a ∧ a.channel = channel ∧ w.outcome? a.promise = some outcome
  stands : ∀ a seat, .began a seat ∈ past → ¬Completed past a → Stands w seat a
  known : ∀ p outcome, w.outcome? p = some outcome →
    start.outcome? p = some outcome ∨ .settled p outcome ∈ past
  outcomes : ∀ a outcome delivery, .completed a outcome delivery ∈ past →
    w.outcome? a.promise = some outcome
  order : ∀ before a outcome delivery, before ++ [.completed a outcome delivery] <+: past →
    InOrder start before a outcome delivery
  none_lost : ∀ a, .lost a ∉ past

/-- What begins to be so in a prefix of a history that goes on with something else. -/
theorem prefix_of_concat {before past : List Event} {e f : Event}
    (part : before ++ [e] <+: past ++ [f]) (other : e ≠ f) : before ++ [e] <+: past := by
  rcases List.prefix_concat_iff.mp part with same | earlier
  · obtain ⟨_, last⟩ := List.append_inj' same rfl
    exact (other (List.cons.inj last).1).elim
  · exact earlier

variable {start u v w : World} {past : List Event} {seat : Option LoopId} {a b : Await}

/-- What stands stays where nothing is taken from it. -/
theorem Stands.later (stands : Stands u seat a) (unfinished : v.taskState? a.task ≠ some .completed)
    (due : ∀ outcome, u.awaits[a.channel]? = some ⟨.sent outcome, none⟩ →
      u.IsDue a.task → v.IsDue a.task)
    (seats : ∀ q l, u.seat? q = some l → v.seat? q = some l)
    (channel : v.awaits[a.channel]? = u.awaits[a.channel]?)
    (outcomes : ∀ q, v.outcome? q = u.outcome? q)
    (reactions : ∀ q, .resume a.channel ∈ u.reactions q → .resume a.channel ∈ v.reactions q)
    (answers : ∀ l outcome, (a.channel, outcome) ∈ u.answers l → (a.channel, outcome) ∈ v.answers l) :
    Stands v seat a where
  unfinished := unfinished
  seated l here := seats _ _ (stands.seated l here)
  phase := by
    cases stands.phase with
    | waiting held registered queued =>
      refine .waiting (channel.trans held) (fun none => ?_) fun l outcome here settled => ?_
      · exact reactions _ (registered (by rwa [outcomes] at none))
      · exact answers l outcome (queued l outcome here (by rwa [outcomes] at settled))
    | answered outcome held settled ready =>
      exact .answered outcome (channel.trans held) ((outcomes _).trans settled)
        (due outcome held ready)

/-- Whoever waits for a promise that is settled gets an answer queued. Whoever waits for another one
is not disturbed. -/
theorem Stands.settle {p : PromiseId} {outcome : Outcome} (stands : Stands u seat a)
    (settles : u.Settles p outcome v) : Stands v seat a where
  unfinished := by
    rw [settles.calm.state]
    exact stands.unfinished
  seated l here := by rw [settles.seat, stands.seated l here]
  phase := by
    cases stands.phase with
    | waiting held registered queued =>
      refine .waiting (by rw [settles.awaits, held]) (fun none => ?_) fun l found here known => ?_
      · rw [settles.outcomes] at none
        have apart : a.promise ≠ p := by
          intro same
          simp [same] at none
        rw [settles.reactions, if_neg apart]
        exact registered (by rwa [if_neg apart] at none)
      · rw [settles.answers]
        rw [settles.outcomes] at known
        split at known
        · next same =>
          cases known
          have waiting := registered (by rw [same, settles.pending])
          rw [same] at waiting
          exact .inr ⟨same ▸ stands.seated l here, a.channel, waiting, rfl⟩
        · exact .inl (queued l found here known)
    | answered found held settled due =>
      refine .answered found (by rw [settles.awaits, held]) ?_ ?_
      · rw [settles.outcomes, if_neg (settles.other settled), settled]
      · simpa [IsDue, settles.calm.state] using due

/-- An answer goes to whoever waits on its channel. -/
theorem Stands.reply {outcome : Outcome} (stands : Stands u seat a)
    (replies : u.Replies a.channel outcome v) (settled : u.outcome? a.promise = some outcome) :
    Stands v seat a where
  unfinished := (replies.onward a.task).unfinished stands.unfinished
  seated l here := replies.seat _ l (stands.seated l here)
  phase := by
    cases stands.phase with
    | waiting held =>
      obtain ⟨sent, due⟩ := replies.sent a.task held stands.unfinished
      exact .answered outcome sent ((replies.outcomes _).trans settled) due
    | answered found held known due =>
      exact .answered found (replies.once found none held) ((replies.outcomes _).trans known)
        ((replies.onward _).due due)

/-- Whoever begins to wait is registered with the promise, or gets an answer queued at once. -/
theorem stands_of_begins (begins : u.Begins a v)
    (unfinished : u.taskState? a.task ≠ some .completed) : Stands v (u.seat? a.promise) a where
  unfinished := by rwa [begins.states]
  seated l here := by rw [begins.seat, here]
  phase := by
    refine .waiting (by rw [begins.awaits, if_pos rfl]) (fun none => ?_)
      fun l outcome here settled => ?_
    · rw [begins.outcomes] at none
      rw [begins.reactions, if_pos ⟨rfl, none⟩]
      exact List.mem_append_right _ (.head _)
    · rw [begins.outcomes] at settled
      exact (begins.answers l _).mpr (.inr ⟨here, outcome, settled, rfl⟩)

namespace Kept

variable (kept : Kept start past w)

include kept

theorem awaited (begun : Begun past a) (undone : ¬Completed past a) :
    w.awaited? a.task = some a :=
  (kept.waits a.task a).mpr ⟨rfl, begun, undone⟩

theorem begun_of_awaited {t : TaskId} (waits : w.awaited? t = some a) :
    a.task = t ∧ (∃ seat, .began a seat ∈ past) ∧ ¬Completed past a :=
  (kept.waits t a).mp waits

theorem begun_of_completed (completed : Completed past a) : Begun past a := by
  obtain ⟨outcome, delivery, among⟩ := completed
  obtain ⟨before, later, rfl⟩ := List.append_of_mem among
  have order := kept.order before a outcome delivery ⟨later, by simp⟩
  exact (begun_append _ _ a).mpr (.inl order.begun)

/-- Nothing happens to promises, and tasks that wait go on, or their channels are empty. -/
theorem silent (silent : w.Silent v)
    (onward : ∀ t a, w.awaited? t = some a → v.taskState? t ≠ some .completed ∧
      ∀ outcome, w.awaits[a.channel]? = some ⟨.sent outcome, none⟩ → w.IsDue t → v.IsDue t) :
    Kept start past v where
  fresh a begun := by
    rw [silent.awaits]
    exact kept.fresh a begun
  distinct := kept.distinct
  waits t a := by
    rw [silent.awaited]
    exact kept.waits t a
  registered p channel := by
    rw [silent.reactions]
    exact kept.registered p channel
  queued l channel outcome := by
    simp only [silent.answers, silent.outcome]
    exact kept.queued l channel outcome
  stands a seat among undone := by
    obtain ⟨unfinished, due⟩ := onward a.task a (kept.awaited ⟨seat, among⟩ undone)
    refine (kept.stands a seat among undone).later unfinished due (fun _ _ => silent.seat) ?_
      silent.outcome (fun q => ?_) fun l outcome => ?_
    · rw [silent.awaits]
    · rw [silent.reactions]
      exact id
    · rw [silent.answers]
      exact id
  known p outcome := by
    rw [silent.outcome]
    exact kept.known p outcome
  outcomes a outcome delivery among := by
    rw [silent.outcome]
    exact kept.outcomes a outcome delivery among
  order := kept.order
  none_lost := kept.none_lost

/-- Nothing happens to promises, and all tasks go on that wait. -/
theorem onward (silent : w.Silent v) (onward : ∀ t, w.awaited? t ≠ none → w.Onward t v) :
    Kept start past v := by
  refine kept.silent silent fun t a waits => ?_
  obtain ⟨rfl, ⟨seat, among⟩, undone⟩ := kept.begun_of_awaited waits
  have goes := onward a.task (by simp [waits])
  exact ⟨goes.unfinished (kept.stands a seat among undone).unfinished, fun _ _ => goes.due⟩

/-- A promise is settled: whoever stands among its reactions gets an answer queued. -/
theorem settle {p : PromiseId} {outcome : Outcome} (settles : w.Settles p outcome v) :
    Kept start (past ++ [.settled p outcome]) v := by
  refine {
    fresh := by simpa [settles.awaits] using kept.fresh
    distinct := by simpa using kept.distinct
    waits := by simpa [settles.awaited] using kept.waits
    registered := fun q channel among => ?_
    queued := fun l channel found among => ?_
    stands := fun a seat among undone =>
      (kept.stands a seat (by simpa using among) (by simpa using undone)).settle settles
    known := fun q found known => ?_
    outcomes := fun a found delivery among => ?_
    order := fun before a found delivery part =>
      kept.order before a found delivery (prefix_of_concat part (by simp))
    none_lost := by simpa using kept.none_lost }
  · rw [settles.reactions] at among
    split at among
    · cases among
    · simpa using kept.registered q channel among
  · rcases (settles.answers l _).mp among with former | ⟨_, channel', waiting, same⟩
    · obtain ⟨a, begun, rfl, settled⟩ := kept.queued l channel found former
      refine ⟨a, by simpa using begun, rfl, ?_⟩
      rw [settles.outcomes, if_neg (settles.other settled), settled]
    · cases same
      obtain ⟨a, begun, rfl, rfl⟩ := kept.registered p channel waiting
      exact ⟨a, by simpa using begun, rfl, by rw [settles.outcomes, if_pos rfl]⟩
  · rw [settles.outcomes] at known
    split at known
    · next here =>
      cases known
      exact .inr (by simp [here])
    · exact (kept.known q found known).imp_right (List.mem_append_left _)
  · have former : .completed a found delivery ∈ past := by simpa using among
    have known := kept.outcomes a found delivery former
    rw [settles.outcomes, if_neg (settles.other known), known]

/-- Somebody else registers a reaction. -/
theorem register {p : PromiseId} {reaction : Reaction} (registers : w.Registers p reaction v)
    (other : reaction.resumes = false) : Kept start past v := by
  have reactions (q : PromiseId) (channel : Nat) :
      .resume channel ∈ v.reactions q ↔ .resume channel ∈ w.reactions q := by
    have apart : Reaction.resume channel ≠ reaction := by
      rintro rfl
      cases other
    rw [registers.reactions]
    split <;> simp [apart]
  have answers (l : LoopId) (y : Nat × Outcome) : y ∈ v.answers l ↔ y ∈ w.answers l := by
    rw [registers.answers, or_iff_left]
    rintro ⟨_, outcome, _, answer⟩
    rw [Job.answer?_of_plain _ (Job.react_isPlain reaction other outcome)] at answer
    cases answer
  have state (t : TaskId) : w.Onward t v := .of_state (registers.calm.state t)
  exact {
    fresh := by simpa [registers.awaits] using kept.fresh
    distinct := kept.distinct
    waits := by simpa [registers.awaited] using kept.waits
    registered := fun q channel among => kept.registered q channel ((reactions q channel).mp among)
    queued := fun l channel outcome among => by
      simp only [registers.outcomes]
      exact kept.queued l channel outcome ((answers l _).mp among)
    stands := fun a seat among undone => by
      have stands := kept.stands a seat among undone
      exact stands.later ((state _).unfinished stands.unfinished) (fun _ _ => (state _).due)
        (fun q l here => by rw [registers.seat, here]) (by rw [registers.awaits]) registers.outcomes
        (fun q => (reactions q _).mpr) fun l outcome => (answers l _).mpr
    known := by simpa [registers.outcomes] using kept.known
    outcomes := by simpa [registers.outcomes] using kept.outcomes
    order := kept.order
    none_lost := kept.none_lost }

/-- An answer that was queued is carried out. -/
theorem reply {channel : Nat} {outcome : Outcome} (replies : w.Replies channel outcome v) :
    Kept start past v := by
  obtain ⟨l, among⟩ := replies.queued
  obtain ⟨c, begunC, rfl, settled⟩ := kept.queued l channel outcome among
  exact {
    fresh := by simpa [replies.size] using kept.fresh
    distinct := kept.distinct
    waits := by simpa [replies.awaited] using kept.waits
    registered := by simpa [replies.reactions] using kept.registered
    queued := fun m channel found among => by
      simp only [replies.outcomes]
      exact kept.queued m channel found (replies.fewer m _ among)
    stands := fun a seat among undone => by
      have stands := kept.stands a seat among undone
      by_cases here : a.channel = c.channel
      · obtain rfl := kept.distinct a c ⟨seat, among⟩ begunC here
        exact stands.reply replies settled
      · have onward := replies.onward a.task
        exact stands.later (onward.unfinished stands.unfinished) (fun _ _ => onward.due) replies.seat
          (replies.awaits _ here) replies.outcomes (fun q => by rw [replies.reactions]; exact id)
          fun l found => replies.others l _ here
    known := by simpa [replies.outcomes] using kept.known
    outcomes := by simpa [replies.outcomes] using kept.outcomes
    order := kept.order
    none_lost := kept.none_lost }

/-- A task begins to wait. -/
theorem begins (begins : w.Begins a v) (free : w.awaited? a.task = none)
    (unfinished : w.taskState? a.task ≠ some .completed) :
    Kept start (past ++ [.began a (w.seat? a.promise)]) v := by
  -- The channel is new, so nothing that was begun before waits on it.
  have apart {b : Await} (begun : Begun past b) : b.channel ≠ a.channel := by
    have inside := kept.fresh b begun
    rw [begins.fresh]
    exact Nat.ne_of_lt inside
  have new : ¬Begun past a := fun begun => apart begun rfl
  have undone : ¬Completed past a := fun completed => new (kept.begun_of_completed completed)
  have reactions (q : PromiseId) (r : Reaction) (among : r ∈ w.reactions q) : r ∈ v.reactions q := by
    rw [begins.reactions]
    split
    · exact List.mem_append_left _ among
    · exact among
  refine {
    fresh := fun b begun => ?_
    distinct := fun b c begunB begunC same => ?_
    waits := fun t b => ?_
    registered := fun q channel among => ?_
    queued := fun l channel outcome among => ?_
    stands := fun b seat among waiting => ?_
    known := by simpa [begins.outcomes] using kept.known
    outcomes := by simpa [begins.outcomes] using kept.outcomes
    order := fun before b outcome delivery part =>
      kept.order before b outcome delivery (prefix_of_concat part (by simp))
    none_lost := by simpa using kept.none_lost }
  · rw [begins.size]
    rcases (begun_append _ _ b).mp begun with former | now
    · exact Nat.lt_succ_of_lt (kept.fresh b former)
    · rw [(begun_began b a _).mp now, begins.fresh]
      exact Nat.lt_succ_self _
  · rw [begun_append, begun_began] at begunB begunC
    rcases begunB with begunB | rfl <;> rcases begunC with begunC | rfl
    · exact kept.distinct b c begunB begunC same
    · exact (apart begunB same).elim
    · exact (apart begunC same.symm).elim
    · rfl
  · rw [begins.awaited]
    simp only [begun_append, begun_began, completed_append, completed_began, or_false]
    split
    · next here =>
      subst here
      constructor
      · rintro ⟨⟩
        exact ⟨rfl, .inr rfl, undone⟩
      · rintro ⟨same, begun | rfl, waiting⟩
        · have already := kept.awaited begun waiting
          rw [same, free] at already
          cases already
        · rfl
    · next other =>
      refine (kept.waits t b).trans ⟨fun ⟨same, begun, waiting⟩ => ⟨same, .inl begun, waiting⟩, ?_⟩
      rintro ⟨same, begun | rfl, waiting⟩
      · exact ⟨same, begun, waiting⟩
      · exact (other same.symm).elim
  · simp only [begun_append, begun_began]
    have former (there : .resume channel ∈ w.reactions q) :
        ∃ b, (Begun past b ∨ b = a) ∧ b.channel = channel ∧ b.promise = q := by
      obtain ⟨b, begun, same⟩ := kept.registered q channel there
      exact ⟨b, .inl begun, same⟩
    rw [begins.reactions] at among
    split at among
    · next here =>
      rcases List.mem_append.mp among with there | now
      · exact former there
      · cases List.mem_singleton.mp now
        exact ⟨a, .inr rfl, rfl, here.1.symm⟩
    · exact former among
  · simp only [begun_append, begun_began, begins.outcomes]
    rcases (begins.answers l _).mp among with there | ⟨_, found, settled, same⟩
    · obtain ⟨b, begun, known⟩ := kept.queued l channel outcome there
      exact ⟨b, .inl begun, known⟩
    · cases same
      exact ⟨a, .inr rfl, rfl, settled⟩
  · rcases List.mem_append.mp among with there | now
    · have stands := kept.stands b seat there (by simpa using waiting)
      have other := apart ⟨seat, there⟩
      have state (t : TaskId) : w.Onward t v := .of_state (begins.states t)
      refine stands.later ((state _).unfinished stands.unfinished) (fun _ _ => (state _).due)
        (fun q l here => by rw [begins.seat, here]) (by rw [begins.awaits, if_neg other])
        begins.outcomes (fun q => reactions q _) fun l outcome among => ?_
      exact (begins.answers l _).mpr (.inl among)
    · cases List.mem_singleton.mp now
      exact stands_of_begins begins unfinished

/-- A task gets its outcome and waits no longer. -/
theorem ends {c : Channel Outcome} {outcome : Outcome} {delivery : Delivery}
    (ends : w.Ends a v) (waits : w.awaited? a.task = some a)
    (channel : w.awaits[a.channel]? = some c) (sent : c.state = .sent outcome)
    (brought : delivery.Brings a outcome) :
    Kept start (past ++ [.completed a outcome delivery]) v := by
  obtain ⟨_, ⟨seat, among⟩, undone⟩ := kept.begun_of_awaited waits
  have begun : Begun past a := ⟨seat, among⟩
  have settled : w.outcome? a.promise = some outcome := by
    cases (kept.stands a seat among undone).phase with
    | waiting held =>
      obtain rfl := Option.some.inj (channel.symm.trans held)
      cases sent
    | answered found held settled =>
      obtain rfl := Option.some.inj (channel.symm.trans held)
      cases sent
      exact settled
  -- There is nothing else that the task waits for.
  have apart {b : Await} (begunB : Begun past b) (waiting : ¬Completed past b) (other : b ≠ a) :
      b.task ≠ a.task := by
    intro same
    have here := kept.awaited begunB waiting
    rw [same, waits] at here
    exact other (Option.some.inj here).symm
  refine {
    fresh := by simpa [ends.size] using kept.fresh
    distinct := by simpa using kept.distinct
    waits := fun t b => ?_
    registered := by simpa [ends.reactions] using kept.registered
    queued := by simpa [ends.answers, ends.outcomes] using kept.queued
    stands := fun b seat among waiting => ?_
    known := by simpa [ends.outcomes] using kept.known
    outcomes := fun b found delivery' among => ?_
    order := fun before b found delivery' part => ?_
    none_lost := by simpa using kept.none_lost }
  · rw [ends.awaited]
    simp only [begun_append, begun_completed, or_false, completed_append, completed_completed, not_or]
    split
    · next here =>
      subst here
      refine ⟨nofun, fun ⟨same, begunB, waiting, other⟩ => ?_⟩
      exact (apart begunB waiting other same).elim
    · next elsewhere =>
      refine (kept.waits t b).trans ⟨fun ⟨same, begunB, waiting⟩ => ⟨same, begunB, waiting, ?_⟩,
        fun ⟨same, begunB, waiting, _⟩ => ⟨same, begunB, waiting⟩⟩
      rintro rfl
      exact elsewhere same.symm
  · simp only [completed_append, completed_completed, not_or] at waiting
    have there : .began b seat ∈ past := by simpa using among
    have stands := kept.stands b seat there waiting.1
    have elsewhere := ends.onward b.task (apart ⟨seat, there⟩ waiting.1 waiting.2)
    have other : b.channel ≠ a.channel := fun same =>
      waiting.2 (kept.distinct b a ⟨seat, there⟩ begun same)
    exact stands.later (elsewhere.unfinished stands.unfinished) (fun _ _ => elsewhere.due) ends.seat
      (by rw [ends.awaits, if_neg other]) ends.outcomes (fun q => by rw [ends.reactions]; exact id)
      fun l found => by rw [ends.answers]; exact id
  · rw [ends.outcomes]
    rcases List.mem_append.mp among with former | now
    · exact kept.outcomes b found delivery' former
    · cases List.mem_singleton.mp now
      exact settled
  · rcases List.prefix_concat_iff.mp part with same | earlier
    · obtain ⟨rfl, last⟩ := List.append_inj' same rfl
      cases (List.cons.inj last).1
      exact ⟨begun, kept.known _ _ settled, undone, brought⟩
    · exact kept.order before b found delivery' earlier

/-- A poll that was queued begins, and looks for what its task waits for. The outcome is there if the
promise is settled and the answer was sent; it is never that the promise is gone. -/
theorem looks {x : World} {seen : List Event} {l : LoopId} {t : TaskId} {k : Task}
    {state : TaskState} (next : w.next? l = some (.poll t, v)) (present : v.tasks[t]? = some k)
    (starts : k.state.start? = some state) (looks : Looks t (v.withTask t { k with state }) seen x) :
    Kept start (past ++ seen) x := by
  obtain rfl : state = .running := by
    cases former : k.state <;> simp_all [TaskState.start?]
  have silent : w.Silent (v.withTask t { k with state := .running }) :=
    .trans (.next next rfl) (silent_state present .running)
  have running : (v.withTask t { k with state := .running }).taskState? t = some .running := by
    rw [taskState?_withTask v t k _ present, if_pos rfl]
  have elsewhere (s : TaskId) (other : s ≠ t) :
      w.Onward s (v.withTask t { k with state := .running }) := by
    refine .of_state ?_
    rw [taskState?_withTask v t k _ present, if_neg other]
    obtain ⟨q, rfl⟩ := w.next?_withQueue l _ v next
    rfl
  generalize v.withTask t { k with state := .running } = u at *
  -- What the channel holds that the task looks at.
  have phase {a : Await} (waits : u.awaited? t = some a) :
      a.task = t ∧ w.awaited? t = some a ∧
        (u.awaits[a.channel]? = some ⟨.waiting, some t⟩ ∨
          ∃ outcome, u.awaits[a.channel]? = some ⟨.sent outcome, none⟩) := by
    rw [silent.awaited] at waits
    obtain ⟨rfl, ⟨seat, among⟩, undone⟩ := kept.begun_of_awaited waits
    refine ⟨rfl, waits, ?_⟩
    rw [silent.awaits]
    cases (kept.stands a seat among undone).phase with
    | waiting held => exact .inl held
    | answered outcome held => exact .inr ⟨outcome, held⟩
  cases looks with
  | free free =>
    rw [List.append_nil]
    refine kept.onward silent fun s waits => elsewhere s ?_
    rintro rfl
    rw [silent.awaited] at free
    exact waits free
  | @pending _ a waits looked =>
    obtain ⟨rfl, waited, held | ⟨outcome, held⟩⟩ := phase waits
    · obtain ⟨c, _, _, rfl⟩ := exec_lookFor_pending _ _ _ _ looked
      rw [withAwait_self u a.channel _ held, List.append_nil]
      refine kept.silent silent fun s b waiting => ?_
      by_cases here : s = a.task
      · subst here
        obtain rfl := Option.some.inj (waited.symm.trans waiting)
        refine ⟨by simp [running], fun outcome sent => ?_⟩
        rw [silent.awaits, sent] at held
        cases held
      · obtain ⟨rfl, ⟨seat, among⟩, undone⟩ := kept.begun_of_awaited waiting
        have goes := elsewhere b.task here
        exact ⟨goes.unfinished (kept.stands b seat among undone).unfinished, fun _ _ => goes.due⟩
    · obtain ⟨c, there, waiting, _⟩ := exec_lookFor_pending _ _ _ _ looked
      obtain rfl := Option.some.inj (there.symm.trans held)
      cases waiting
  | @found _ _ _ a outcome result _ waits looked told ended =>
    obtain ⟨rfl, waited, _⟩ := phase waits
    obtain ⟨⟨c, there, sent⟩, ends⟩ := ends_of_found a outcome result _ _ _ _ _ looked told ended
    rw [silent.awaits] at there
    exact kept.ends (ends.after silent elsewhere) waited there sent ⟨_, looked, told⟩
  | @lost _ _ a _ waits looked _ =>
    obtain ⟨c, there, closed⟩ := exec_lookFor_closed _ _ _ _ looked
    obtain ⟨_, _, held | ⟨outcome, held⟩⟩ := phase waits <;>
    · obtain rfl := Option.some.inj (there.symm.trans held)
      cases closed

end Kept

/-- Whatever happens keeps everything as it should be. -/
theorem Course.kept {start w u : World} {events : List Event} (course : Course w events u)
    (past : List Event) (kept : Kept start past w) : Kept start (past ++ events) u := by
  induction course generalizing past with
  | start => simpa using kept
  | still _ still ih =>
    exact (ih past kept).onward still.silent fun t _ => .of_state (still.calm.state t)
  | wake _ woken ih =>
    obtain ⟨silent, onward, _⟩ := exec_wake_onward _ _ _ woken
    exact (ih past kept).onward silent fun t _ => onward t
  | spawn _ _ _ spawned ih =>
    obtain ⟨silent, onward⟩ := exec_spawn_onward _ _ _ _ _ _ spawned
    exact (ih past kept).onward silent fun t _ => onward t
  | settle _ settled ih =>
    rw [← List.append_assoc]
    rcases exec_settle_eq_ok _ _ _ _ _ settled with ⟨_, settles⟩ | ⟨never, _⟩
    · exact (ih past kept).settle settles
    · cases never
  | register _ other done ih =>
    exact (ih past kept).register (exec_register_eq_ok _ _ _ _ done) other
  | answer _ next ran ih => exact (ih past kept).reply (replies_of_turn _ _ _ _ _ _ next ran)
  | await _ polled free _ began ih =>
    rw [← List.append_assoc]
    obtain ⟨_, begins, _⟩ := exec_beginAwait_eq_ok _ _ _ _ _ _ began
    refine (ih past kept).begins begins free ?_
    rcases polled with state | state <;> simp [state]
  | poll _ next present starts looks _ answered waits ended ih inside =>
    rw [← List.append_assoc, ← List.append_assoc]
    have during := inside _ ((ih past kept).looks next present starts looks)
    exact during.onward (silent_endPoll _ _ _ _ _ waits ended)
      (onward_endPoll _ _ answered _ _ _ waits ended)
  | stale _ next present idle ih =>
    refine (ih past kept).onward (.next next rfl) fun t _ => .of_state ?_
    obtain ⟨q, rfl⟩ := World.next?_withQueue _ _ _ _ next
    rfl

end Membrane.AwaitRun
