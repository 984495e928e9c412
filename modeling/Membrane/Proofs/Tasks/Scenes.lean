import Membrane.Proofs.Tasks.Channels
import Membrane.Proofs.Tasks.Jobs
/-!
Runs of tasks whose wakers and handles anybody uses in whatever way. A step keeps the polls in order,
the tasks held as often as they have to be, and the channels as the events tell. So does a run.
-/

set_option autoImplicit false

namespace Membrane.JoinRun

open Act World

/-- The polls of the tasks are in order, and those that are going on are known. -/
structure Polled (past : List Event) (w : World) (polls : List Waker) : Prop where
  sound : TaskRun.Sound (past.filterMap Event.poll?) w
  spawned : ∀ t, .spawned t ∈ past ↔ w.taskState? t ≠ none
  polling : ∀ t, (TaskRun.tally (past.filterMap Event.poll?) t).polling = true ↔
    ∃ a ∈ polls, a.task = t
  apart : (polls.map (·.task)).Nodup

namespace Polled

variable {past new : List Event} {w v : World} {polls rest : List Waker} {a : Waker} {t : TaskId}

theorem polls_concat (past : List Event) (e : Event) :
    (past ++ [e]).filterMap Event.poll? =
      past.filterMap Event.poll? ++ (e.poll?).toList := by
  rw [List.filterMap_append]
  cases same : e.poll? <;> simp [same]

/-- Nothing happens to the tasks. -/
theorem calm (polled : Polled past w polls) (quiet : new.filterMap Event.poll? = [])
    (calm : Calm w v) : Polled (past ++ new) v polls := by
  have same : (past ++ new).filterMap Event.poll? = past.filterMap Event.poll? := by
    rw [List.filterMap_append, quiet, List.append_nil]
  refine ⟨same ▸ polled.sound.calm calm, fun t => ?_, fun t => same ▸ polled.polling t, polled.apart⟩
  have none : .spawned t ∉ new := fun there => by
    cases List.filterMap_eq_nil_iff.mp quiet _ there
  rw [List.mem_append, or_iff_left none, calm.state, polled.spawned]

theorem stay (polled : Polled past w polls) (calm : Calm w v) : Polled past v polls := by
  have same : Polled (past ++ []) v polls := polled.calm rfl calm
  rwa [List.append_nil] at same

theorem wake (polled : Polled past w polls) (woken : exec (wake t) w = (.ok (), v)) :
    Polled (past ++ [.woken t]) v polls := by
  obtain ⟨state, before, after⟩ := taskState?_of_wake t w v woken
  have same := polls_concat past (.woken t)
  refine ⟨same ▸ polled.sound.wake woken, fun u => ?_, fun u => ?_, polled.apart⟩
  · simp only [List.mem_append, List.mem_singleton, reduceCtorEq, or_false, polled.spawned, after]
    split
    · next own => simp [own, before]
    · rfl
  · rw [same, ← polled.polling u]
    simp only [Event.poll?, Option.toList_some, TaskRun.tally_concat, TaskRun.Tally.after]
    split <;> rfl

theorem spawn (polled : Polled past w polls) {e : ExecutorId} {name : String}
    {steps : List TaskStep} {l : LoopId} (installed : w.executorLoop? e = some l)
    (inside : l < w.loops.size) (spawned : exec (spawn e name steps) w = (.ok t, v)) :
    Polled (past ++ [.spawned t]) v polls := by
  obtain ⟨-, after, -⟩ := results_of_spawn e name steps w v t spawned
  have same := polls_concat past (.spawned t)
  refine ⟨same ▸ polled.sound.spawn e name steps l installed inside spawned, fun u => ?_, fun u => ?_,
    polled.apart⟩
  · simp only [List.mem_append, List.mem_singleton, Event.spawned.injEq, polled.spawned, after]
    split
    · next own => simp [own]
    · next other => simp [other]
  · rw [same, ← polled.polling u]
    simp only [Event.poll?, Option.toList_some, TaskRun.tally_concat, TaskRun.Tally.after]

/-- A poll begins of a task that is scheduled. -/
theorem begin (polled : Polled past w polls) {l : LoopId} {k : Task} {state : TaskState}
    (next : w.next? l = some (.poll a.task, v)) (present : v.tasks[a.task]? = some k)
    (starts : k.state.start? = some state) :
    Polled (past ++ [.began a.task]) (v.withTask a.task { k with state }) (a :: polls) ∧
      w.taskState? a.task = some .scheduled ∧
      ∀ u, (v.withTask a.task { k with state }).taskState? u =
        if u = a.task then some .running else w.taskState? u := by
  have scheduled := polled.sound.scheduled_of_next l next present
  have running : state = .running := by
    rw [scheduled] at starts
    exact (Option.some.inj starts).symm
  have former : ∀ u, v.taskState? u = w.taskState? u := by
    obtain ⟨q, rfl⟩ := w.next?_withQueue l (.poll a.task) v next
    exact fun u => rfl
  have before : w.taskState? a.task = some .scheduled := by
    rw [← former, TaskRun.taskState?_of_present present, scheduled]
  have after (u : TaskId) : (v.withTask a.task { k with state }).taskState? u =
      if u = a.task then some .running else w.taskState? u := by
    rw [taskState?_withTask v a.task k _ present, running, former]
  have idle : (TaskRun.tally (past.filterMap Event.poll?) a.task).polling = false := by
    have agrees := polled.sound.agrees a.task
    rw [before] at agrees
    exact agrees.1
  have same := polls_concat past (.began a.task)
  refine ⟨⟨same ▸ polled.sound.begin l v next present state starts, fun u => ?_, fun u => ?_, ?_⟩,
    before, after⟩
  · simp only [List.mem_append, List.mem_singleton, reduceCtorEq, or_false, polled.spawned, after]
    split
    · next own => simp [own, before]
    · rfl
  · rw [same]
    simp only [Event.poll?, Option.toList_some, TaskRun.tally_concat, TaskRun.Tally.after]
    split
    · next own => simp [own]
    · next other => simp [other, polled.polling]
  · rw [List.map_cons, List.nodup_cons]
    refine ⟨fun there => ?_, polled.apart⟩
    obtain ⟨b, mem, own⟩ := List.mem_map.mp there
    rw [(polled.polling a.task).mpr ⟨b, mem, own⟩] at idle
    cases idle

/-- The state of a task that is being polled. -/
theorem going (polled : Polled past w polls) (there : a ∈ polls) :
    w.taskState? a.task = some .running ∨ w.taskState? a.task = some .notified := by
  have agrees := polled.sound.agrees a.task
  have polling := (polled.polling a.task).mpr ⟨a, there, rfl⟩
  cases state : w.taskState? a.task with
  | none =>
    rw [state] at agrees
    rw [agrees] at polling
    cases polling
  | some s =>
    rw [state] at agrees
    cases s <;> simp_all [TaskRun.Tally.Agrees]

/-- The innermost poll that is going on ends. -/
theorem ended (polled : Polled past w (a :: rest)) (r : StepEnd) (answered : r ≠ .go)
    (result : Option String) (same : result.isSome = r.isFinish) {waiter : Option TaskId}
    (ended : exec (endPoll a.task r) w = (.ok waiter, v)) :
    Polled (past ++ [.ended a.task result]) v rest := by
  have going : (TaskRun.tally (past.filterMap Event.poll?) a.task).polling = true :=
    (polled.polling a.task).mpr ⟨a, List.mem_cons_self, rfl⟩
  have events : (past ++ [Event.ended a.task result]).filterMap Event.poll? =
      past.filterMap Event.poll? ++ [.ended a.task r.isFinish] := by
    rw [polls_concat, ← same]
    rfl
  have sound := polled.sound.ended going r answered waiter ended
  have apart := List.nodup_cons.mp polled.apart
  obtain ⟨before, now, -, after⟩ := taskState?_of_endPoll a.task r answered w v waiter ended
  refine ⟨events ▸ sound, fun u => ?_, fun u => ?_, apart.2⟩
  · simp only [List.mem_append, List.mem_singleton, reduceCtorEq, or_false, polled.spawned, after]
    split
    · next own => simp [own, before]
    · rfl
  · rw [events, TaskRun.tally_concat, TaskRun.Tally.after]
    have before := polled.polling u
    rw [List.exists_mem_cons_iff] at before
    split
    · next own =>
      subst own
      refine iff_of_false (by simp) ?_
      rintro ⟨b, mem, task⟩
      exact apart.1 (List.mem_map.mpr ⟨b, mem, task⟩)
    · next other =>
      rw [before, or_iff_right other]

end Polled

theorem mem_polls_iff (past : List Event) (t : TaskId) :
    .ended t true ∈ past.filterMap Event.poll? ↔ ∃ result, .ended t (some result) ∈ past := by
  rw [List.mem_filterMap]
  constructor
  · rintro ⟨e, there, same⟩
    rcases e with u | u | u | ⟨u, _ | result⟩ | u | ⟨u, asker, r⟩ <;> simp [Event.poll?] at same
    exact ⟨result, same ▸ there⟩
  · rintro ⟨result, there⟩
    exact ⟨_, there, rfl⟩

/-- A task is completed when a poll of it ended with a result. -/
theorem Polled.completed_iff {past : List Event} {w : World} {polls : List Waker}
    (polled : Polled past w polls) (t : TaskId) :
    w.taskState? t = some .completed ↔ ∃ result, .ended t (some result) ∈ past := by
  have agrees := polled.sound.agrees t
  rw [← mem_polls_iff, ← TaskRun.done_iff]
  cases state : w.taskState? t with
  | none =>
    rw [state] at agrees
    rw [agrees]
    simp [TaskRun.Tally.none]
  | some s =>
    rw [state] at agrees
    cases s <;> simp_all [TaskRun.Tally.Agrees]

/-- Who is to be woken when a task is settled has a waker. -/
theorem Answered.left_of_settles {past : List Event} {σ τ : Scene} {v : World} {t b : TaskId}
    {f : Channel String → Channel String} {waiter : Option TaskId}
    (answered : Answered past σ.world σ.wakers) (settles : SettlesResult t f waiter σ.world v)
    (waits : waiter = some b) (same : τ.wakers.map (·.1) = σ.wakers.map (·.1)) :
    ∃ a, a.task = b ∧ a ∈ τ.clones := by
  obtain ⟨c, -, -, -, left⟩ := answered.settled_channel settles
  obtain ⟨a, task, mem⟩ := left b waits
  refine ⟨a, task, τ.mem_clones_of_wakers ?_⟩
  rw [same]
  exact List.mem_map.mpr ⟨_, mem, rfl⟩

/-- What is so of a scene after what happened. -/
structure Sound (past : List Event) (σ : Scene) : Prop where
  polled : Polled past σ.world σ.polls
  held : Held past σ
  answered : Answered past σ.world σ.wakers

namespace Sound

variable {past : List Event} {σ : Scene} {v x : World} {a : Waker} {rest : List Waker}
  {waiter : Option TaskId}

/-- A task that is not completed and of which there is a waker is not settled. -/
theorem unsettled (sound : Sound past σ) (there : a ∈ σ.clones)
    (undone : σ.world.taskState? a.task ≠ some .completed) : ¬Settled past a.task := by
  rw [settled_iff, ← sound.polled.completed_iff]
  rintro (done | dropped)
  · exact undone done
  · exact sound.held.not_dropped_of_clone there dropped

theorem calm (sound : Sound past σ) (calm : Calm σ.world v) (discards : Discards σ.world v) :
    Sound past (σ.goTo v) where
  polled := sound.polled.stay calm
  held := sound.held.stay calm
  answered := sound.answered.goTo (stays_of_discards discards)

/-- A task is woken with one of its wakers. -/
theorem wake (sound : Sound past σ) (known : a ∈ σ.clones)
    (woken : exec (wake a.task) σ.world = (.ok (), v)) :
    Sound (past ++ [.woken a.task]) (σ.goTo v) where
  polled := sound.polled.wake woken
  held := by
    obtain ⟨state, before, after⟩ := taskState?_of_wake a.task σ.world v woken
    refine sound.held.goTo (by simp) fun t => ?_
    by_cases own : t = a.task
    · subst own
      have now := (after a.task).trans (if_pos rfl)
      rw [before, now]
      cases state with
      | scheduled | notified | completed => exact .inl rfl
      | idle | running => exact .inr ⟨nofun, nofun, .inr ⟨a, known, rfl⟩⟩
    · exact .inl ((after t).trans (if_neg own))
  answered :=
    (sound.answered.goTo fun j => .inl (result?_of_wake a.task σ.world v woken j)).plain rfl

/-- Who waited is woken with a waker that was left. -/
theorem wakeAny (sound : Sound past σ)
    (known : ∀ b, waiter = some b → ∃ a, a.task = b ∧ a ∈ σ.clones)
    (woken : exec (wakeAny waiter) σ.world = (.ok (), x)) :
    Sound (past ++ wakes waiter) (σ.goTo x) := by
  cases waiter with
  | none =>
    cases woken
    simpa [wakes] using sound.calm (.refl _) (refl_of Discards σ.world)
  | some b =>
    obtain ⟨a, rfl, there⟩ := known b rfl
    exact sound.wake there woken

theorem result?_of_wakeAny {w : World} (woken : exec (Act.wakeAny waiter) w = (.ok (), x))
    (j : TaskId) : x.result? j = w.result? j := by
  cases waiter with
  | none =>
    cases woken
    rfl
  | some b => exact result?_of_wake b w x woken j

/-- A clone of a waker is made. -/
theorem clone (sound : Sound past σ) (known : a ∈ σ.clones) :
    Sound past { σ with wakers := (a, none) :: σ.wakers } where
  polled := sound.polled
  held := by
    refine sound.held.clone known rfl rfl rfl ?_
    simp only [Scene.clones, List.map_cons]
    exact List.perm_middle
  answered := sound.answered.rearrange fun b j mem => List.mem_cons_of_mem _ mem

theorem stays_of_spawn {w : World} {e : ExecutorId} {name : String} {steps : List TaskStep}
    {t : TaskId} (spawned : exec (Act.spawn e name steps) w = (.ok t, v)) (j : TaskId) :
    Stays w v j := by
  obtain ⟨unborn, -, results⟩ := results_of_spawn e name steps w v t spawned
  by_cases own : j = t
  · subst own
    refine .inr (.inr ⟨?_, (results j).trans (if_pos rfl)⟩)
    rw [result?, Option.map_eq_none_iff]
    exact Option.map_eq_none_iff.mp unborn
  · exact .inl ((results j).trans (if_neg own))

theorem spawn (sound : Sound past σ) {e : ExecutorId} {l : LoopId} {name : String}
    {steps : List TaskStep} {t : TaskId} (installed : σ.world.executorLoop? e = some l)
    (inside : l < σ.world.loops.size) (spawned : exec (spawn e name steps) σ.world = (.ok t, v)) :
    Sound (past ++ [.spawned t]) (σ.goTo v) := by
  obtain ⟨unborn, states, -⟩ := results_of_spawn e name steps σ.world v t spawned
  refine ⟨sound.polled.spawn installed inside spawned, sound.held.goTo (by simp) fun u => ?_, ?_⟩
  · by_cases own : u = t
    · subst own
      have now := (states u).trans (if_pos rfl)
      exact .inr ⟨by simp [now], by simp [unborn], .inl ⟨unborn, now⟩⟩
    · exact .inl ((states u).trans (if_neg own))
  · exact (sound.answered.goTo (stays_of_spawn spawned)).plain rfl

/-- A poll that begins does nothing to channels. -/
theorem result?_of_begin {w : World} {l : LoopId} {t : TaskId} {k : Task} {state : TaskState}
    (next : w.next? l = some (.poll t, v)) (present : v.tasks[t]? = some k) (j : TaskId) :
    (v.withTask t { k with state }).result? j = w.result? j := by
  rw [result?_withTask_of_same v t k _ present (by rfl)]
  obtain ⟨q, rfl⟩ := w.next?_withQueue l (.poll t) v next
  rfl

theorem begin (sound : Sound past σ) {l : LoopId} {k : Task} {state : TaskState}
    (next : σ.world.next? l = some (.poll a.task, v)) (present : v.tasks[a.task]? = some k)
    (starts : k.state.start? = some state) (fresh : a ∉ σ.clones) :
    Sound (past ++ [.began a.task]) ((σ.goTo (v.withTask a.task { k with state })).enter a) := by
  obtain ⟨polled, scheduled, states⟩ := sound.polled.begin next present starts
  refine ⟨polled, sound.held.enter fresh scheduled states, ?_⟩
  exact Answered.plain (sound.answered.goTo fun j => .inl (result?_of_begin next present j)) rfl

/-- A task that is being polled is not settled. -/
theorem unsettled_of_top (sound : Sound past σ) (top : σ.polls = a :: rest) :
    ¬Settled past a.task := by
  have there : a ∈ σ.polls := top ▸ List.mem_cons_self
  refine sound.unsettled (List.mem_append_left _ there) fun completed => ?_
  rcases sound.polled.going there with state | state <;> simp [state] at completed

/-- The polls and the holds when a poll is over. -/
theorem pollEnded (sound : Sound past σ) (top : σ.polls = a :: rest) (r : StepEnd)
    (answered : r ≠ .go) (result : Option String) (same : result.isSome = r.isFinish)
    (ended : exec (endPoll a.task r) σ.world = (.ok waiter, v)) :
    Polled (past ++ [.ended a.task result] ++ ((σ.goTo v).leave a rest).losses a.task) v rest ∧
      Held (past ++ [.ended a.task result] ++ ((σ.goTo v).leave a rest).losses a.task)
        ((σ.goTo v).leave a rest) := by
  have polled := sound.polled
  rw [top] at polled
  have there : a ∈ σ.clones := by simp [Scene.clones, top]
  obtain ⟨before, now, -, states⟩ := taskState?_of_endPoll a.task r answered σ.world v waiter ended
  have unscheduled : σ.world.taskState? a.task ≠ some .scheduled := by
    rcases polled.going List.mem_cons_self with state | state <;> simp [state]
  constructor
  · refine (polled.ended r answered result same ended).calm ?_ (.refl v)
    unfold Scene.losses
    split <;> rfl
  · refine Held.leave (σ := σ.goTo v) ?_ top fun b inside own => ?_
    · refine sound.held.goTo (by simp) fun t => ?_
      by_cases own : t = a.task
      · subst own
        exact .inr ⟨by simp [states], unscheduled, .inr ⟨a, there, rfl⟩⟩
      · exact .inl ((states t).trans (if_neg own))
    · have apart := polled.apart
      rw [List.map_cons, List.nodup_cons] at apart
      exact apart.1 (List.mem_map.mpr ⟨b, inside, own⟩)

/-- A poll ends with a result, and who waited for it is woken. -/
theorem finish (sound : Sound past σ) {result : String} (top : σ.polls = a :: rest)
    (ended : exec (endPoll a.task (.finish result)) σ.world = (.ok waiter, v))
    (woken : exec (Act.wakeAny waiter) v = (.ok (), x)) :
    Sound (past ++ .ended a.task (some result) :: wakes waiter)
      (((σ.goTo v).leave a rest).goTo x) := by
  obtain ⟨polled, held⟩ := sound.pollEnded top (.finish result) nofun (some result) rfl ended
  obtain ⟨-, now, done, states⟩ :=
    taskState?_of_endPoll a.task (.finish result) nofun σ.world v waiter ended
  have completed : v.taskState? a.task = some .completed := by rw [states, if_pos rfl, done rfl]
  have kept : ((σ.goTo v).leave a rest).losses a.task = [] := by
    simp [Scene.losses, Scene.IsLost, completed]
  rw [kept, List.append_nil] at polled held
  have settles := settlesResult_completion a.task result σ.world v waiter ended
  have answered := sound.answered.settle (settling_ended a.task result) settles
    (sound.unsettled_of_top top)
  have quiet : Sound (past ++ [.ended a.task (some result)]) ((σ.goTo v).leave a rest) :=
    ⟨by simpa using polled, held, by simpa using answered⟩
  rw [List.append_cons]
  refine quiet.wakeAny (fun b waits => sound.answered.left_of_settles settles waits ?_)
    (by simpa using woken)
  rw [Scene.wakers_leave, Scene.map_wakers_goTo]

/-- A poll ends without a result. A task that nobody holds then is let go, and who waited for it is
woken. -/
theorem suspend (sound : Sound past σ) (top : σ.polls = a :: rest)
    (ended : exec (endPoll a.task (.wait (decide (0 < (σ.leave a rest).holds a.task)))) σ.world =
      (.ok waiter, v))
    (woken : exec (Act.wakeAny waiter) v = (.ok (), x)) :
    Sound (past ++ (.ended a.task none :: ((σ.goTo v).leave a rest).losses a.task ++ wakes waiter))
        (((σ.goTo v).leave a rest).goTo x) ∧
      (((σ.goTo v).leave a rest).losses a.task = [] ∧ waiter = none ∧ Discards σ.world v ∨
        ((σ.goTo v).leave a rest).losses a.task = [.dropped a.task] ∧
          SettlesResult a.task (·.shut) waiter σ.world v) := by
  obtain ⟨polled, held⟩ := sound.pollEnded top (.wait _) nofun none rfl ended
  have right := held.right a.task
  have results := results_of_suspend a.task _ σ.world v waiter ended
  have plain : Answered (past ++ [.ended a.task none]) σ.world σ.wakers := sound.answered.plain rfl
  have order : past ++ (.ended a.task none :: ((σ.goTo v).leave a rest).losses a.task ++
      wakes waiter) = past ++ [.ended a.task none] ++ ((σ.goTo v).leave a rest).losses a.task ++
        wakes waiter := by simp
  rw [order]
  by_cases lost : ((σ.goTo v).leave a rest).IsLost a.task
  · have gone : ((σ.goTo v).leave a rest).losses a.task = [.dropped a.task] := if_pos lost
    rw [gone] at polled held ⊢
    have settles : SettlesResult a.task (·.shut) waiter σ.world v := by
      rcases results with ⟨scheduled, -⟩ | ⟨idle, -, unwakeable⟩
      · rw [lost.1, Scene.due, Scene.world_leave, Scene.world_goTo, pollsDue, if_pos scheduled]
          at right
        omega
      · refine unwakeable (decide_eq_false fun some => ?_)
        rw [← σ.holds_leave_goTo a rest v a.task (by simp [idle]), lost.1] at some
        cases some
    refine ⟨?_, .inr ⟨rfl, settles⟩⟩
    have unsettled : ¬Settled (past ++ [.ended a.task none]) a.task := by
      rw [settled_concat]
      exact fun settled =>
        sound.unsettled_of_top top (settled.resolve_right (by simp [Event.settles]))
    have answered := plain.settle (settling_dropped a.task) settles unsettled
    have quiet : Sound (past ++ [.ended a.task none] ++ [.dropped a.task])
        ((σ.goTo v).leave a rest) := ⟨by simpa using polled, held, by simpa using answered⟩
    refine quiet.wakeAny (fun b waits => sound.answered.left_of_settles settles waits ?_)
      (by simpa using woken)
    rw [Scene.wakers_leave, Scene.map_wakers_goTo]
  · have kept : ((σ.goTo v).leave a rest).losses a.task = [] := if_neg lost
    rw [kept, List.append_nil] at polled held ⊢
    have still : waiter = none ∧ Discards σ.world v := by
      rcases results with ⟨-, same⟩ | ⟨idle, wakeable, -⟩
      · exact same
      · refine wakeable (decide_eq_true (Nat.pos_of_ne_zero fun none => lost ⟨?_, ?_⟩))
        · rw [σ.holds_leave_goTo a rest v a.task (by simp [idle]), none]
        · simp [idle]
    refine ⟨?_, .inl ⟨rfl, still⟩⟩
    have answered := plain.goTo (stays_of_discards still.2)
    have quiet : Sound (past ++ [.ended a.task none]) ((σ.goTo v).leave a rest) :=
      ⟨by simpa using polled, held, by simpa using answered⟩
    exact quiet.wakeAny (fun b waits => by simp [still.1] at waits) (by simpa using woken)

/-- A clone is given up, and the task is let go if nobody holds it then. -/
theorem giveUp (sound : Sound past σ) (there : (a, none) ∈ σ.wakers) {events : List Event}
    {τ : Scene} (after : LetGo a.task (σ.giveUp a) events τ) :
    Sound (past ++ events) τ ∧ ((∀ e ∈ events, ∀ j, e.settles j = false) ∧
        (∀ j, τ.world.result? j = σ.world.result? j) ∨
      ∃ v waiter, events = .dropped a.task :: wakes waiter ∧
        SettlesResult a.task (·.shut) waiter σ.world v ∧
        ∀ j, τ.world.result? j = v.result? j) := by
  have held := sound.held.giveUp there
  have polled : Polled past (σ.giveUp a).world (σ.giveUp a).polls := by simpa using sound.polled
  have answered : Answered past (σ.giveUp a).world (σ.giveUp a).wakers := by
    rw [Scene.world_giveUp, Scene.wakers_giveUp]
    exact sound.answered.rearrange fun b j mem => (List.mem_erase_of_ne (by simp)).mpr mem
  have known : a ∈ σ.clones := σ.mem_clones_of_wakers (List.mem_map.mpr ⟨_, there, rfl⟩)
  cases after with
  | kept kept =>
    rw [Scene.losses, if_neg kept] at held
    exact ⟨⟨by simpa using polled, held, by simpa using answered⟩, .inl ⟨by simp, by simp⟩⟩
  | @dropped v x waiter lost abandoned woken =>
    rw [Scene.losses, if_pos lost] at held
    have settles := settlesResult_abandonment a.task (σ.giveUp a).world v waiter abandoned
    have unsettled : ¬Settled past a.task :=
      sound.unsettled known (by simpa using lost.2)
    have calm : Calm (σ.giveUp a).world v := Keeps.abandonment a.task _ v waiter abandoned
    have quiet : Sound (past ++ [.dropped a.task]) ((σ.giveUp a).goTo v) :=
      ⟨polled.calm rfl calm, held.stay calm,
        answered.settle (settling_dropped a.task) settles unsettled⟩
    refine ⟨?_, .inr ⟨v, waiter, rfl, by simpa using settles, result?_of_wakeAny woken⟩⟩
    rw [List.append_cons]
    -- Whoever waits has left another clone than the one that is given up.
    refine quiet.wakeAny (fun b waits => answered.left_of_settles settles waits ?_) woken
    rw [Scene.map_wakers_goTo]

/-- What asking for a result does to the world. -/
theorem asked_world {w : World} {j : TaskId} (asker : Option TaskId) {answer : Receipt String}
    (asked : exec (onResult j (·.ask asker)) w = (.ok answer, v)) :
    Calm w v ∧ ∃ c, w.result? j = some c ∧ answer = (c.ask asker).1 ∧
      v.result? j = some (c.ask asker).2 := by
  obtain ⟨k, present, rfl, rfl⟩ := exec_onResult_eq_ok j _ w v answer asked
  refine ⟨.withTask _ j k _ present rfl rfl, k.result, result?_of_present present, rfl, ?_⟩
  rw [result?_withTask w j k _ present, if_pos rfl]

/-- Whoever has a handle asks for the result. -/
theorem ask (sound : Sound past σ) {j : TaskId} {answer : Receipt String}
    (kept : (σ.world.result? j).map (·.state) ≠ some .abandoned)
    (asked : exec (onResult j (·.tryTake)) σ.world = (.ok answer, v)) :
    Sound (past ++ [.asked j none answer]) (σ.goTo v) := by
  obtain ⟨calm, c, before, -, after⟩ := asked_world none asked
  refine ⟨sound.polled.calm rfl calm, sound.held.calm (by simp) calm, ?_⟩
  refine sound.answered.ask none kept asked
    (fun i d e b other there waits mem => Right.mem_goTo there waits mem) fun b d here waits => ?_
  obtain rfl := Option.some.inj (before.symm.trans here)
  have waited : c.waiter = some b := (c.waiter_of_ask none waits).resolve_left (by simp)
  obtain ⟨d, task, mem⟩ := (sound.answered.channels j).left c b before waited
  exact ⟨d, task, Right.mem_goTo after waits mem⟩

/-- A task waits for a result. -/
theorem await (sound : Sound past σ) {j : TaskId} {answer : Receipt String}
    (kept : (σ.world.result? j).map (·.state) ≠ some .abandoned) (known : a ∈ σ.clones)
    (asked : exec (onResult j (·.poll (some a.task))) σ.world = (.ok answer, v)) :
    Sound (past ++ [.asked j (some a.task) answer])
      (if answer = .pending then (σ.goTo v).leaveOn j a else σ.goTo v) := by
  obtain ⟨calm, c, before, answers, after⟩ := asked_world (some a.task) asked
  have polled : Polled (past ++ [.asked j (some a.task) answer]) v σ.polls :=
    sound.polled.calm rfl calm
  have held : Held (past ++ [.asked j (some a.task) answer]) (σ.goTo v) :=
    sound.held.calm (by simp) calm
  have stay (i : TaskId) (d : Waker) (e : Channel String) (b : TaskId)
      (there : v.result? i = some e) (waits : e.waiter = some b) (mem : (d, some i) ∈ σ.wakers) :
      (d, some i) ∈ (σ.goTo v).wakers := Right.mem_goTo there waits mem
  split
  · next pending =>
    refine ⟨polled, held.clone (by simpa using known) rfl rfl rfl (Scene.clones_leaveOn _ j a), ?_⟩
    refine sound.answered.ask (some a.task) kept asked
      (fun i d e b other there waits mem => ?_) fun b d here waits => ?_
    · refine List.mem_cons_of_mem _ (List.mem_map.mpr ⟨_, stay i d e b there waits mem, ?_⟩)
      simp [Option.filter, other]
    · obtain rfl := Option.some.inj (before.symm.trans here)
      rw [c.ask_of_pending _ (answers.symm.trans pending)] at waits
      exact ⟨a, Option.some.inj waits, List.mem_cons_self⟩
  · next some =>
    refine ⟨polled, held, ?_⟩
    refine sound.answered.ask (Option.some a.task) kept asked
      (fun i d e b other there waits mem => stay i d e b there waits mem) fun b d here waits => ?_
    obtain rfl := Option.some.inj (before.symm.trans here)
    have waited : c.waiter = Option.some b :=
      (c.waiter_of_ask _ waits).resolve_left fun h => some (answers.trans h.1)
    obtain ⟨d, task, mem⟩ := (sound.answered.channels j).left c b before waited
    exact ⟨d, task, Right.mem_goTo after waits mem⟩

end Sound

/-- A handle by which somebody asks was not let go, and the others stay. -/
theorem abandoned_of_asked {w v : World} {j : TaskId} (asker : Option TaskId)
    {answer : Receipt String} (kept : (w.result? j).map (·.state) ≠ some .abandoned)
    (asked : exec (onResult j (·.ask asker)) w = (.ok answer, v)) (i : TaskId)
    (gone : w.result? i = some abandoned) : v.result? i = some abandoned := by
  obtain ⟨k, present, -, rfl⟩ := exec_onResult_eq_ok j _ w v answer asked
  rw [result?_withTask w j k _ present, if_neg, gone]
  rintro rfl
  rw [gone] at kept
  exact kept rfl

/-- Whatever happens keeps a scene in order. -/
theorem Step.keeps {σ τ : Scene} {past new : List Event} (step : Step σ new τ)
    (sound : Sound past σ) (told : Told past σ.world) :
    Sound (past ++ new) τ ∧ Told (past ++ new) τ.world := by
  cases step with
  | calm calm discards =>
    exact ⟨by simpa using sound.calm calm discards,
      told.append nofun fun j => abandoned_of_stays (stays_of_discards discards j)⟩
  | spawn installed inside spawned =>
    exact ⟨sound.spawn installed inside spawned,
      told.append (by simp [Event.settles]) fun j =>
        abandoned_of_stays (Sound.stays_of_spawn spawned j)⟩
  | wake known woken =>
    exact ⟨sound.wake known woken,
      told.append (by simp [Event.settles]) fun j =>
        abandoned_of_stays (.inl (result?_of_wake _ _ _ woken j))⟩
  | clone known => exact ⟨by simpa using sound.clone known, told.append nofun fun _ gone => gone⟩
  | giveUp there after =>
    obtain ⟨now, ⟨unsettled, same⟩ | ⟨v, waiter, rfl, settles, same⟩⟩ := sound.giveUp there after
    · exact ⟨now, told.append unsettled fun j => abandoned_of_stays (.inl (same j))⟩
    · exact ⟨now, told.settle sound.answered (settling_dropped _) settles same⟩
  | begin next present starts fresh =>
    exact ⟨sound.begin next present starts fresh,
      told.append (by simp [Event.settles]) fun j =>
        abandoned_of_stays (.inl (Sound.result?_of_begin next present j))⟩
  | @finish v x a rest result waiter top ended woken =>
    have settles := settlesResult_completion a.task result σ.world v waiter ended
    exact ⟨sound.finish top ended woken, told.settle sound.answered (settling_ended a.task result)
      settles (Sound.result?_of_wakeAny woken)⟩
  | @suspend v x a rest waiter top ended woken =>
    obtain ⟨now, ⟨kept, rfl, discards⟩ | ⟨lost, settles⟩⟩ := sound.suspend top ended woken
    · refine ⟨now, told.append ?_ fun j => ?_⟩
      · simp [kept, wakes, Event.settles]
      · cases woken
        exact abandoned_of_stays (stays_of_discards discards j)
    · refine ⟨now, ?_⟩
      have order : past ++ (.ended a.task none :: [.dropped a.task] ++ wakes waiter) =
          past ++ [.ended a.task none] ++ .dropped a.task :: wakes waiter := by simp
      rw [lost, order]
      have plain : Told (past ++ [.ended a.task none]) σ.world :=
        told.append (by simp [Event.settles]) fun _ gone => gone
      exact plain.settle (sound.answered.plain rfl) (settling_dropped a.task) settles
        (Sound.result?_of_wakeAny woken)
  | stale next present idle after =>
    have scheduled := sound.polled.sound.scheduled_of_next _ next present
    simp [scheduled, TaskState.start?] at idle
  | ask kept asked =>
    exact ⟨sound.ask kept asked, told.append (by simp [Event.settles])
      (abandoned_of_asked none kept asked)⟩
  | @await v j a answer kept known asked =>
    refine ⟨sound.await kept known asked, told.append (by simp [Event.settles]) fun i gone => ?_⟩
    have after := abandoned_of_asked (some a.task) kept asked i gone
    split <;> exact after

theorem start_sound (w : World) (noTasks : w.tasks = #[])
    (noPolls : ∀ l t, w.queuedPolls l t = 0) : Sound [] (.start w) := by
  have unborn (t : TaskId) : w.taskState? t = none := by simp [taskState?, noTasks]
  have empty (j : TaskId) : w.result? j = none := by simp [result?, noTasks]
  have nothing {before after : List Event} {e : Event} : [] ≠ before ++ e :: after := by simp
  refine ⟨⟨TaskRun.start_sound w noTasks noPolls, ?_, ?_, List.nodup_nil⟩, ⟨?_, ?_, ?_⟩,
    ⟨?_, fun _ _ _ _ _ same => (nothing same).elim, fun _ _ _ _ same => (nothing same).elim⟩⟩
  · simp [Scene.start, unborn]
  · simp [Scene.start, TaskRun.tally, TaskRun.Tally.none]
  · simp [Scene.start, Scene.due, Scene.clones, pollsDue, unborn, families]
  · simp [Scene.start, Scene.clones]
  · simp [Scene.start, unborn]
  · intro j
    refine ⟨fun c there => ?_, fun _ => rfl, fun c b there => ?_⟩ <;>
      · simp [Scene.start, empty] at there

/-- What is so of a scene after a run. -/
theorem Run.keeps {σ : Scene} {events : List Event} {w : World} (run : Run (.start w) events σ)
    (noTasks : w.tasks = #[]) (noPolls : ∀ l t, w.queuedPolls l t = 0) :
    Sound events σ ∧ Told events σ.world := by
  induction run with
  | start =>
    refine ⟨start_sound w noTasks noPolls, fun before e after j b same => ?_⟩
    simp at same
  | step _ step ih => exact step.keeps ih.1 ih.2

end Membrane.JoinRun
