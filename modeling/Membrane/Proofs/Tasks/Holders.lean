import Mathlib.Data.Finset.Card
import Mathlib.Data.Finset.Dedup
import Membrane.Proofs.Tasks.Results
/-!
Who holds a task. A poll that is queued or going on holds it, and so does each waker that a poll made,
as long as a clone of it is left. A task that nobody holds is let go. How often a task is held is
counted up and down as holders come and go; the count is right at all times.
-/

set_option autoImplicit false

namespace Membrane.JoinRun

open Act World

/-- A waker of a task. Each poll of the task makes one, and its clones are the same. -/
structure Waker where
  task : TaskId
  poll : Nat
deriving DecidableEq

/-- What happens to tasks and to the handles for their results. -/
inductive Event where
  | spawned (t : TaskId)
  | woken (t : TaskId)
  | began (t : TaskId)
  /-- A poll ends, with the result if the task is done. -/
  | ended (t : TaskId) (result : Option String)
  /-- A task that is not done is let go. -/
  | dropped (t : TaskId)
  /-- The handle of a task is asked for its result, by a task that waits or without waiting. -/
  | asked (t : TaskId) (asker : Option TaskId) (answer : Receipt String)
deriving DecidableEq

/-- What counts for the polls of the tasks. -/
def Event.poll? : Event → Option TaskRun.Event
  | .spawned t => some (.spawned t)
  | .woken t => some (.woken t)
  | .began t => some (.began t)
  | .ended t result => some (.ended t result.isSome)
  | .dropped _ | .asked .. => none

/-- A world with those who hold its tasks. -/
structure Scene where
  world : World
  /-- How often each task is held. -/
  holds : TaskId → Nat
  /-- The clones of wakers, each with the task on whose channel it was left, if it was. -/
  wakers : List (Waker × Option TaskId)
  /-- The wakers of the polls that are going on, the innermost first. -/
  polls : List Waker

namespace Scene

def start (w : World) : Scene := ⟨w, fun _ => 0, [], []⟩

/-- The clones of wakers, those of the polls that are going on among them. -/
def clones (σ : Scene) : List Waker := σ.polls ++ σ.wakers.map (·.1)

/-- The world changes. A task that is scheduled anew is held by the poll that is queued. A waker that
a channel no longer needs is in somebody's hands again. -/
def goTo (σ : Scene) (v : World) : Scene where
  world := v
  holds t := σ.holds t +
    if σ.world.taskState? t ≠ some .scheduled ∧ v.taskState? t = some .scheduled then 1 else 0
  wakers := σ.wakers.map fun e =>
    (e.1, e.2.filter fun j => (v.result? j).any (·.waiter.isSome))
  polls := σ.polls

/-- A task is held once less. -/
def unhold (σ : Scene) (t : TaskId) : Scene :=
  { σ with holds := Function.update σ.holds t (σ.holds t - 1) }

/-- A clone of a waker went. With the last one the waker holds its task no longer. -/
def release (σ : Scene) (a : Waker) : Scene := if a ∈ σ.clones then σ else σ.unhold a.task

/-- A poll begins, which makes a waker. -/
def enter (σ : Scene) (a : Waker) : Scene :=
  { σ with polls := a :: σ.polls, holds := Function.update σ.holds a.task (σ.holds a.task + 1) }

/-- A poll is over: its own waker goes, and then its hold on the task. -/
def leave (σ : Scene) (a : Waker) (rest : List Waker) : Scene :=
  ({ σ with polls := rest }.release a).unhold a.task

/-- A clone goes that was in somebody's hands. -/
def giveUp (σ : Scene) (a : Waker) : Scene :=
  { σ with wakers := σ.wakers.erase (a, none) }.release a

/-- A clone is left on a channel, and what was left there before is in somebody's hands again. -/
def leaveOn (σ : Scene) (j : TaskId) (a : Waker) : Scene :=
  { σ with wakers := (a, some j) :: σ.wakers.map fun e => (e.1, e.2.filter (· != j)) }

/-- A task is not done and nobody holds it. -/
def IsLost (σ : Scene) (t : TaskId) : Prop :=
  σ.holds t = 0 ∧ σ.world.taskState? t ≠ some .completed

instance (σ : Scene) (t : TaskId) : Decidable (σ.IsLost t) := inferInstanceAs (Decidable (_ ∧ _))

/-- That a task is let go if it is lost. -/
def losses (σ : Scene) (t : TaskId) : List Event := if σ.IsLost t then [.dropped t] else []

end Scene

/-- That somebody is woken. -/
def wakes (waiter : Option TaskId) : List Event := (waiter.map Event.woken).toList

/-- A task that is lost is let go, and who waits for its result is woken. -/
inductive LetGo (t : TaskId) (σ : Scene) : List Event → Scene → Prop
  | kept (kept : ¬σ.IsLost t) : LetGo t σ [] σ
  | dropped {v x : World} {waiter : Option TaskId} (lost : σ.IsLost t)
      (abandoned : exec (abandonment t) σ.world = (.ok waiter, v))
      (woken : exec (wakeAny waiter) v = (.ok (), x)) :
      LetGo t σ (.dropped t :: wakes waiter) ((σ.goTo v).goTo x)

/-- What happens next. Polls of tasks do what they like between their beginning and their end, and so
does anybody else with wakers and handles. -/
inductive Step : Scene → List Event → Scene → Prop
  | calm {σ : Scene} {v : World} (calm : Calm σ.world v) (discards : Discards σ.world v) :
      Step σ [] (σ.goTo v)
  | spawn {σ : Scene} {v : World} {e : ExecutorId} {l : LoopId} {name : String}
      {steps : List TaskStep} {t : TaskId} (installed : σ.world.executorLoop? e = some l)
      (inside : l < σ.world.loops.size)
      (spawned : exec (spawn e name steps) σ.world = (.ok t, v)) :
      Step σ [.spawned t] (σ.goTo v)
  /-- Whoever has a waker may use it, clone it and give it up. -/
  | wake {σ : Scene} {v : World} {a : Waker} (known : a ∈ σ.clones)
      (woken : exec (wake a.task) σ.world = (.ok (), v)) : Step σ [.woken a.task] (σ.goTo v)
  | clone {σ : Scene} {a : Waker} (known : a ∈ σ.clones) :
      Step σ [] { σ with wakers := (a, none) :: σ.wakers }
  | giveUp {σ τ : Scene} {a : Waker} {events : List Event} (there : (a, none) ∈ σ.wakers)
      (after : LetGo a.task (σ.giveUp a) events τ) : Step σ events τ
  /-- A loop runs a poll that was queued. -/
  | begin {σ : Scene} {v : World} {l : LoopId} {k : Task} {state : TaskState} {a : Waker}
      (next : σ.world.next? l = some (.poll a.task, v)) (present : v.tasks[a.task]? = some k)
      (starts : k.state.start? = some state) (fresh : a ∉ σ.clones) :
      Step σ [.began a.task] ((σ.goTo (v.withTask a.task { k with state })).enter a)
  | finish {σ : Scene} {v x : World} {a : Waker} {rest : List Waker} {result : String}
      {waiter : Option TaskId} (top : σ.polls = a :: rest)
      (ended : exec (endPoll a.task (.finish result)) σ.world = (.ok waiter, v))
      (woken : exec (wakeAny waiter) v = (.ok (), x)) :
      Step σ (.ended a.task (some result) :: wakes waiter) (((σ.goTo v).leave a rest).goTo x)
  /-- A poll ends that does not complete its task. -/
  | suspend {σ : Scene} {v x : World} {a : Waker} {rest : List Waker} {waiter : Option TaskId}
      (top : σ.polls = a :: rest)
      (ended : exec (endPoll a.task (.wait (decide (0 < (σ.leave a rest).holds a.task)))) σ.world =
        (.ok waiter, v))
      (woken : exec (wakeAny waiter) v = (.ok (), x)) :
      Step σ (.ended a.task none :: ((σ.goTo v).leave a rest).losses a.task ++ wakes waiter)
        (((σ.goTo v).leave a rest).goTo x)
  /-- A poll is run of a task that is not scheduled. -/
  | stale {σ τ : Scene} {v : World} {l : LoopId} {t : TaskId} {k : Task} {events : List Event}
      (next : σ.world.next? l = some (.poll t, v)) (present : v.tasks[t]? = some k)
      (idle : k.state.start? = none) (after : LetGo t ((σ.goTo v).unhold t) events τ) :
      Step σ events τ
  /-- Whoever has the handle of a task may ask for its result. -/
  | ask {σ : Scene} {v : World} {j : TaskId} {answer : Receipt String}
      (kept : (σ.world.result? j).map (·.state) ≠ some .abandoned)
      (asked : exec (onResult j (·.tryTake)) σ.world = (.ok answer, v)) :
      Step σ [.asked j none answer] (σ.goTo v)
  /-- A task waits for the result of another one. -/
  | await {σ : Scene} {v : World} {j : TaskId} {a : Waker} {answer : Receipt String}
      (kept : (σ.world.result? j).map (·.state) ≠ some .abandoned) (known : a ∈ σ.clones)
      (asked : exec (onResult j (·.poll (some a.task))) σ.world = (.ok answer, v)) :
      Step σ [.asked j (some a.task) answer]
        (if answer = .pending then (σ.goTo v).leaveOn j a else σ.goTo v)

/-- What happens on the way from one scene to another. -/
inductive Run : Scene → List Event → Scene → Prop
  | start (σ : Scene) : Run σ [] σ
  | step {σ τ υ : Scene} {past new : List Event} (before : Run σ past τ) (step : Step τ new υ) :
      Run σ (past ++ new) υ

/-! Counting -/

/-- How many wakers of a task there are, clones not counted. -/
def families (clones : List Waker) (t : TaskId) : Nat :=
  (clones.toFinset.filter (·.task = t)).card

theorem families_cons (a : Waker) (clones : List Waker) (t : TaskId) :
    families (a :: clones) t =
      families clones t + if a.task = t ∧ a ∉ clones then 1 else 0 := by
  by_cases known : a ∈ clones
  · simp [families, List.toFinset_cons, Finset.insert_eq_of_mem (List.mem_toFinset.mpr known), known]
  · by_cases own : a.task = t
    · have fresh : a ∉ clones.toFinset.filter (·.task = t) := by simp [known]
      rw [families, List.toFinset_cons, Finset.filter_insert, if_pos own,
        Finset.card_insert_of_notMem fresh, if_pos ⟨own, known⟩, families]
    · rw [families, List.toFinset_cons, Finset.filter_insert, if_neg own, if_neg fun h => own h.1,
        families, Nat.add_zero]

theorem families_perm {clones others : List Waker} (perm : clones.Perm others) (t : TaskId) :
    families clones t = families others t := by
  rw [families, families, List.toFinset_eq_of_perm _ _ perm]

theorem families_eq_zero_iff (clones : List Waker) (t : TaskId) :
    families clones t = 0 ↔ ∀ a ∈ clones, a.task ≠ t := by
  simp [families, Finset.filter_eq_empty_iff]

/-- How many polls of a task have to be queued. -/
def pollsDue (w : World) (t : TaskId) : Nat := if w.taskState? t = some .scheduled then 1 else 0

namespace Scene

/-- How often a task has to be held. -/
def due (σ : Scene) (t : TaskId) : Nat :=
  pollsDue σ.world t + σ.polls.countP (·.task = t) + families σ.clones t

variable (σ : Scene)

@[simp] theorem world_goTo (v : World) : (σ.goTo v).world = v := rfl

@[simp] theorem polls_goTo (v : World) : (σ.goTo v).polls = σ.polls := rfl

/-- The clones stay, wherever they are. -/
theorem map_wakers_goTo (v : World) : (σ.goTo v).wakers.map (·.1) = σ.wakers.map (·.1) := by
  simp [goTo, Function.comp_def]

@[simp] theorem clones_goTo (v : World) : (σ.goTo v).clones = σ.clones := by
  rw [clones, map_wakers_goTo, polls_goTo, clones]

theorem holds_goTo_of_same (v : World) (t : TaskId)
    (same : v.taskState? t = σ.world.taskState? t) : (σ.goTo v).holds t = σ.holds t := by
  have kept : ¬(σ.world.taskState? t ≠ some .scheduled ∧ v.taskState? t = some .scheduled) :=
    fun h => h.1 (same ▸ h.2)
  simp only [goTo, kept, ↓reduceIte, Nat.add_zero]

theorem holds_goTo_of_unscheduled (v : World) (t : TaskId)
    (unscheduled : σ.world.taskState? t ≠ some .scheduled) :
    (σ.goTo v).holds t = σ.holds t + pollsDue v t := by
  simp only [goTo, pollsDue, unscheduled, ne_eq, not_false_eq_true, true_and]

theorem holds_goTo_of_unscheduled_now (v : World) (t : TaskId)
    (unscheduled : v.taskState? t ≠ some .scheduled) : (σ.goTo v).holds t = σ.holds t := by
  have kept : ¬(σ.world.taskState? t ≠ some .scheduled ∧ v.taskState? t = some .scheduled) :=
    fun h => unscheduled h.2
  simp only [goTo, kept, ↓reduceIte, Nat.add_zero]

theorem holds_unhold (t u : TaskId) :
    (σ.unhold t).holds u = σ.holds u - if t = u then 1 else 0 := by
  by_cases own : t = u
  · subst own
    simp [unhold]
  · simp [unhold, own, Ne.symm own]

theorem holds_release (a : Waker) (u : TaskId) :
    (σ.release a).holds u = σ.holds u - if a.task = u ∧ a ∉ σ.clones then 1 else 0 := by
  by_cases known : a ∈ σ.clones
  · simp [release, known]
  · simp [release, known, holds_unhold]

@[simp] theorem world_release (a : Waker) : (σ.release a).world = σ.world := by
  unfold release
  split <;> rfl

@[simp] theorem polls_release (a : Waker) : (σ.release a).polls = σ.polls := by
  unfold release
  split <;> rfl

@[simp] theorem wakers_release (a : Waker) : (σ.release a).wakers = σ.wakers := by
  unfold release
  split <;> rfl

/-! What is left when a poll is over, or a clone is given up -/

section

variable (a : Waker) (rest : List Waker)

@[simp] theorem world_leave : (σ.leave a rest).world = σ.world :=
  world_release { σ with polls := rest } a

@[simp] theorem polls_leave : (σ.leave a rest).polls = rest :=
  polls_release { σ with polls := rest } a

@[simp] theorem wakers_leave : (σ.leave a rest).wakers = σ.wakers :=
  wakers_release { σ with polls := rest } a

theorem holds_leave (u : TaskId) : (σ.leave a rest).holds u = σ.holds u -
    (if a.task = u ∧ a ∉ { σ with polls := rest }.clones then 1 else 0) -
    if a.task = u then 1 else 0 := by
  rw [leave, holds_unhold, holds_release]

/-- The holds that are left do not depend on what the world comes to, if no poll is queued. -/
theorem holds_leave_goTo (v : World) (t : TaskId) (unscheduled : v.taskState? t ≠ some .scheduled) :
    ((σ.goTo v).leave a rest).holds t = (σ.leave a rest).holds t := by
  have same : { σ.goTo v with polls := rest }.clones = { σ with polls := rest }.clones :=
    congrArg (rest ++ ·) (σ.map_wakers_goTo v)
  rw [holds_leave, holds_leave, same, holds_goTo_of_unscheduled_now σ v t unscheduled]

@[simp] theorem world_giveUp : (σ.giveUp a).world = σ.world := world_release _ a

@[simp] theorem polls_giveUp : (σ.giveUp a).polls = σ.polls := polls_release _ a

@[simp] theorem wakers_giveUp : (σ.giveUp a).wakers = σ.wakers.erase (a, none) := wakers_release _ a

end

theorem mem_clones_of_wakers {b : Waker} (there : b ∈ σ.wakers.map (·.1)) : b ∈ σ.clones :=
  List.mem_append_right _ there

theorem clones_leaveOn (j : TaskId) (a : Waker) :
    (σ.leaveOn j a).clones.Perm (a :: σ.clones) := by
  have same : (σ.leaveOn j a).clones = σ.polls ++ a :: σ.wakers.map (·.1) := by
    simp [clones, leaveOn, Function.comp_def]
  rw [same]
  exact List.perm_middle

theorem clones_erase (e : Waker × Option TaskId) (there : e ∈ σ.wakers) :
    σ.clones.Perm (e.1 :: { σ with wakers := σ.wakers.erase e }.clones) := by
  refine .trans ?_ List.perm_middle
  exact ((List.perm_cons_erase there).map Prod.fst).append_left σ.polls

theorem due_pos_of_clone (a : Waker) (there : a ∈ σ.clones) : 0 < σ.due a.task := by
  have some : families σ.clones a.task ≠ 0 := fun none =>
    (families_eq_zero_iff _ _).mp none a there rfl
  unfold due
  omega

end Scene

/-- The tasks are held as often as they have to be, and those that are lost are let go. -/
structure Held (past : List Event) (σ : Scene) : Prop where
  right : ∀ t, σ.holds t = σ.due t
  known : ∀ a ∈ σ.clones, σ.world.taskState? a.task ≠ none
  gone : ∀ t, .dropped t ∈ past ↔ σ.world.taskState? t ≠ none ∧ σ.IsLost t

namespace Held

variable {past new : List Event} {σ τ : Scene} {v : World} {a : Waker}

theorem pos_of_clone (held : Held past σ) (there : a ∈ σ.clones) : 0 < σ.holds a.task := by
  rw [held.right]
  exact σ.due_pos_of_clone a there

theorem not_dropped_of_clone (held : Held past σ) (there : a ∈ σ.clones) :
    .dropped a.task ∉ past := fun gone =>
  absurd ((held.gone a.task).mp gone).2.1 (Nat.ne_of_gt (held.pos_of_clone there))

/-- The state of a task changes only if it is new or somebody has a waker of it. -/
theorem goTo (held : Held past σ) (still : ∀ t, .dropped t ∉ new)
    (change : ∀ t, v.taskState? t = σ.world.taskState? t ∨
      v.taskState? t ≠ none ∧ σ.world.taskState? t ≠ some .scheduled ∧
        (σ.world.taskState? t = none ∧ v.taskState? t = some .scheduled ∨
          ∃ a ∈ σ.clones, a.task = t)) : Held (past ++ new) (σ.goTo v) where
  right t := by
    have before := held.right t
    simp only [Scene.due, Scene.world_goTo, Scene.polls_goTo, Scene.clones_goTo] at before ⊢
    rcases change t with same | ⟨-, unscheduled, -⟩
    · rw [σ.holds_goTo_of_same v t same, before, pollsDue, pollsDue]
      simp only [same]
    · rw [σ.holds_goTo_of_unscheduled v t unscheduled, before]
      have none : pollsDue σ.world t = 0 := if_neg unscheduled
      omega
  known b there := by
    rw [Scene.clones_goTo] at there
    rcases change b.task with same | ⟨present, -⟩
    · rw [Scene.world_goTo, same]
      exact held.known b there
    · exact present
  gone t := by
    rw [List.mem_append, or_iff_left (still t), held.gone]
    rcases change t with same | ⟨-, unscheduled, new | ⟨a, there, rfl⟩⟩
    · rw [Scene.IsLost, Scene.IsLost, σ.holds_goTo_of_same v t same, Scene.world_goTo, same]
    · refine iff_of_false (fun h => h.1 new.1) fun h => ?_
      have none := h.2.1
      rw [σ.holds_goTo_of_unscheduled v t unscheduled, pollsDue, if_pos new.2] at none
      cases none
    · have some := held.pos_of_clone there
      refine iff_of_false (fun h => Nat.ne_of_gt some h.2.1) fun h => ?_
      have none := h.2.1
      rw [σ.holds_goTo_of_unscheduled v a.task unscheduled] at none
      omega

theorem calm (held : Held past σ) (still : ∀ t, .dropped t ∉ new) (calm : Calm σ.world v) :
    Held (past ++ new) (σ.goTo v) :=
  held.goTo still fun t => .inl (calm.state t)

theorem stay (held : Held past σ) (calm : Calm σ.world v) : Held past (σ.goTo v) := by
  have same : Held (past ++ []) (σ.goTo v) := held.calm nofun calm
  rwa [List.append_nil] at same

/-- One more clone changes nothing. -/
theorem clone (held : Held past σ) (known : a ∈ σ.clones) (world : τ.world = σ.world)
    (holds : τ.holds = σ.holds) (polls : τ.polls = σ.polls) (clones : τ.clones.Perm (a :: σ.clones)) :
    Held past τ where
  right t := by
    rw [holds, held.right, Scene.due, Scene.due, world, polls, families_perm clones, families_cons,
      if_neg fun h => h.2 known, Nat.add_zero]
  known b there := by
    rw [world]
    rcases List.mem_cons.mp (clones.mem_iff.mp there) with rfl | old
    · exact held.known b known
    · exact held.known b old
  gone t := by
    rw [held.gone, Scene.IsLost, Scene.IsLost, world, holds]

/-- A hold on a task goes. -/
theorem lose (held : Held past σ) (t : TaskId) (present : σ.world.taskState? t ≠ none)
    (some : 0 < σ.holds t) (world : τ.world = σ.world) (others : ∀ u, u ≠ t → τ.holds u = σ.holds u)
    (right : ∀ u, τ.holds u = τ.due u) (clones : ∀ b ∈ τ.clones, b ∈ σ.clones) :
    Held (past ++ τ.losses t) τ where
  right := right
  known b there := by
    rw [world]
    exact held.known b (clones b there)
  gone u := by
    have before := held.gone u
    rw [List.mem_append]
    by_cases own : u = t
    · subst own
      have kept : .dropped u ∉ past := fun gone => Nat.ne_of_gt some (before.mp gone).2.1
      rw [or_iff_right kept, Scene.losses]
      by_cases lost : τ.IsLost u
      · rw [if_pos lost, List.mem_singleton]
        exact iff_of_true rfl ⟨world ▸ present, lost⟩
      · rw [if_neg lost]
        exact iff_of_false List.not_mem_nil fun h => lost h.2
    · have other : .dropped u ∉ τ.losses t := by
        unfold Scene.losses
        split
        · simpa using own
        · exact List.not_mem_nil
      rw [or_iff_left other, before, Scene.IsLost, Scene.IsLost, world, others u own]

/-- A poll begins of a task that was scheduled, and makes a waker. -/
theorem enter (held : Held past σ) (fresh : a ∉ σ.clones)
    (scheduled : σ.world.taskState? a.task = some .scheduled)
    (state : ∀ u, v.taskState? u = if u = a.task then some .running else σ.world.taskState? u) :
    Held (past ++ [.began a.task]) ((σ.goTo v).enter a) := by
  have clones : ((σ.goTo v).enter a).clones = a :: σ.clones := by
    rw [← σ.clones_goTo v]
    rfl
  have here : v.taskState? a.task = some .running := by rw [state, if_pos rfl]
  have others (u : TaskId) (other : u ≠ a.task) : v.taskState? u = σ.world.taskState? u := by
    rw [state, if_neg other]
  have holds (u : TaskId) : ((σ.goTo v).enter a).holds u =
      σ.holds u + if u = a.task then 1 else 0 := by
    by_cases own : u = a.task
    · subst own
      have kept := σ.holds_goTo_of_unscheduled_now v a.task (by simp [here])
      simp [Scene.enter, kept]
    · simp [Scene.enter, own, σ.holds_goTo_of_same v u (others u own)]
  refine { right := fun u => ?_, known := fun b there => ?_, gone := fun u => ?_ }
  · have polls : ((σ.goTo v).enter a).polls = a :: σ.polls := rfl
    have world : ((σ.goTo v).enter a).world = v := rfl
    rw [holds, held.right, Scene.due, Scene.due, polls, clones, families_cons, List.countP_cons,
      world]
    by_cases own : u = a.task
    · subst own
      simp [pollsDue, scheduled, here, fresh]
      omega
    · simp [pollsDue, others u own, own, Ne.symm own]
  · have now : ((σ.goTo v).enter a).world.taskState? b.task = v.taskState? b.task := rfl
    rw [now]
    by_cases own : b.task = a.task
    · simp [own, here]
    · rw [others _ own]
      rcases List.mem_cons.mp (clones ▸ there) with rfl | old
      · exact (own rfl).elim
      · exact held.known b old
  · have now : ((σ.goTo v).enter a).world.taskState? u = v.taskState? u := rfl
    simp only [List.mem_append, List.mem_singleton, reduceCtorEq, or_false, held.gone, Scene.IsLost,
      holds, now]
    by_cases own : u = a.task
    · subst own
      have some : σ.holds a.task ≠ 0 := by
        rw [held.right, Scene.due, pollsDue, if_pos scheduled]
        omega
      simp [some]
    · simp [own, others u own]

/-- A poll is over that was going on. -/
theorem leave (held : Held past σ) {rest : List Waker} (top : σ.polls = a :: rest)
    (apart : ∀ b ∈ rest, b.task ≠ a.task) :
    Held (past ++ (σ.leave a rest).losses a.task) (σ.leave a rest) := by
  have split : σ.clones = a :: { σ with polls := rest }.clones := by
    rw [Scene.clones, top]
    rfl
  have clones : (σ.leave a rest).clones = { σ with polls := rest }.clones := by simp [Scene.clones]
  have there : a ∈ σ.clones := split ▸ List.mem_cons_self
  refine held.lose a.task (held.known a there) (held.pos_of_clone there) (σ.world_leave a rest)
    (fun u other => ?_) (fun u => ?_) fun b known => ?_
  · simp [Scene.holds_leave, Ne.symm other]
  · rw [Scene.holds_leave, held.right, Scene.due, Scene.due, Scene.world_leave, Scene.polls_leave,
      clones, top, split, families_cons, List.countP_cons]
    by_cases own : a.task = u
    · have none : rest.countP (·.task = u) = 0 := by
        rw [List.countP_eq_zero]
        intro b inside
        simpa [own] using apart b inside
      simp [own, none]
      omega
    · simp [own]
  · rw [split]
    exact List.mem_cons_of_mem _ (clones ▸ known)

/-- A clone is given up. -/
theorem giveUp (held : Held past σ) (there : (a, none) ∈ σ.wakers) :
    Held (past ++ (σ.giveUp a).losses a.task) (σ.giveUp a) := by
  have split := σ.clones_erase (a, none) there
  have clones : (σ.giveUp a).clones = { σ with wakers := σ.wakers.erase (a, none) }.clones := by
    simp [Scene.clones]
  have there : a ∈ σ.clones := split.mem_iff.mpr List.mem_cons_self
  have holds (u : TaskId) := Scene.holds_release { σ with wakers := σ.wakers.erase (a, none) } a u
  refine held.lose a.task (held.known a there) (held.pos_of_clone there) (σ.world_giveUp a)
    (fun u other => ?_) (fun u => ?_) fun b known => ?_
  · rw [Scene.giveUp, holds, if_neg fun h => other h.1.symm]
    rfl
  · have before := held.right u
    rw [Scene.due, families_perm split, families_cons] at before
    rw [Scene.due, Scene.world_giveUp, Scene.polls_giveUp, clones, Scene.giveUp, holds]
    dsimp only at before ⊢
    omega
  · exact split.mem_iff.mpr (List.mem_cons_of_mem _ (clones ▸ known))

end Held

end Membrane.JoinRun
