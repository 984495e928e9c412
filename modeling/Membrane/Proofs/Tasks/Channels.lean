import Membrane.Proofs.Tasks.Handles
/-!
The channels of a world with those who wait there. They are as the events tell, and whoever is to be
woken by one has left a waker on it.
-/

set_option autoImplicit false

namespace Membrane.JoinRun

open Act World

/-- The channel of a handle that was let go. -/
def abandoned : Channel String := Channel.abandon .create

/-- The channel of a task is as it should be unless the handle was let go. A task that is to be woken
by it has left a waker there. -/
structure Right (should : Channel String) (w : World) (wakers : List (Waker × Option TaskId))
    (j : TaskId) : Prop where
  tells : ∀ c, w.result? j = some c → c = should ∨ c = abandoned
  unborn : w.result? j = none → should = .create
  left : ∀ c b, w.result? j = some c → c.waiter = some b →
    ∃ a, a.task = b ∧ (a, some j) ∈ wakers

/-- A channel stays as it is, or its handle is let go, or it is new. -/
def Stays (u v : World) (j : TaskId) : Prop :=
  v.result? j = u.result? j ∨ v.result? j = (u.result? j).map Channel.abandon ∨
    u.result? j = none ∧ v.result? j = some .create

theorem stays_of_discards {u v : World} (discards : Discards u v) (j : TaskId) : Stays u v j :=
  (discards j).imp_right .inl

namespace Right

variable {should : Channel String} {w v : World} {wakers : List (Waker × Option TaskId)}
  {σ : Scene} {j : TaskId}

/-- Wakers may come and go but for those that are left on channels. -/
theorem rearrange (right : Right should w wakers j) {others : List (Waker × Option TaskId)}
    (kept : ∀ a, (a, some j) ∈ wakers → (a, some j) ∈ others) : Right should w others j where
  tells := right.tells
  unborn := right.unborn
  left c b there waits := by
    obtain ⟨a, task, mem⟩ := right.left c b there waits
    exact ⟨a, task, kept a mem⟩

/-- A waker on a channel that needs it stays there. -/
theorem mem_goTo {a : Waker} {c : Channel String} {b : TaskId} (there : v.result? j = some c)
    (waits : c.waiter = some b) (mem : (a, some j) ∈ σ.wakers) :
    (a, some j) ∈ (σ.goTo v).wakers := by
  refine List.mem_map.mpr ⟨(a, some j), mem, ?_⟩
  simp [Option.filter, there, waits]

theorem goTo (right : Right should σ.world σ.wakers j) (stays : Stays σ.world v j) :
    Right should v (σ.goTo v).wakers j where
  tells c there := by
    rcases stays with same | abandons | ⟨none, new⟩
    · exact right.tells c (same ▸ there)
    · rw [there] at abandons
      obtain ⟨d, -, gone⟩ := Option.map_eq_some_iff.mp abandons.symm
      exact .inr gone.symm
    · rw [there] at new
      exact .inl ((Option.some.inj new).trans (right.unborn none).symm)
  unborn none := by
    rcases stays with same | abandons | ⟨-, new⟩
    · exact right.unborn (same ▸ none)
    · rw [none] at abandons
      exact right.unborn (Option.map_eq_none_iff.mp abandons.symm)
    · rw [none] at new
      cases new
  left c b there waits := by
    rcases stays with same | abandons | ⟨none, new⟩
    · obtain ⟨a, task, mem⟩ := right.left c b (same ▸ there) waits
      exact ⟨a, task, mem_goTo there waits mem⟩
    · rw [there] at abandons
      obtain ⟨d, -, rfl⟩ := Option.map_eq_some_iff.mp abandons.symm
      cases waits
    · rw [there] at new
      cases new
      cases waits

/-- A channel that is there and as it should be, where nobody is to be woken without a waker. -/
theorem of_eq {c : Channel String} (there : w.result? j = some c)
    (same : c = should ∨ c = abandoned)
    (left : ∀ b, c.waiter = some b → ∃ a, a.task = b ∧ (a, some j) ∈ wakers) :
    Right should w wakers j where
  tells d found := by
    obtain rfl := Option.some.inj (there.symm.trans found)
    exact same
  unborn none := by
    rw [there] at none
    cases none
  left d b found waits := by
    obtain rfl := Option.some.inj (there.symm.trans found)
    exact left b waits

end Right

/-- The channels are as the events tell. -/
structure Answered (past : List Event) (w : World) (wakers : List (Waker × Option TaskId)) :
    Prop where
  channels : ∀ j, Right (channel past j) w wakers j
  consistent : Consistent past
  once : Once past

theorem onChannel_of_plain {e : Event} (plain : e.isPlain = true) (j : TaskId) (c : Channel String) :
    e.onChannel j c = c ∧ e.settles j = false := by
  rcases e with t | t | t | ⟨t, _ | result⟩ | t | ⟨t, asker, r⟩
  · exact ⟨rfl, rfl⟩
  · exact ⟨rfl, rfl⟩
  · exact ⟨rfl, rfl⟩
  · exact ⟨rfl, rfl⟩
  · cases plain
  · cases plain
  · cases plain

/-- An event that settles a task does so by what it does to the channel. -/
structure Settling (e : Event) (t : TaskId) (f : Channel String → Channel String) : Prop where
  here : ∀ c, e.onChannel t c = f c
  others : ∀ j c, j ≠ t → e.onChannel j c = c
  settles : ∀ j, e.settles j = true ↔ j = t
  noAnswer : ∀ j asker r, e ≠ .asked j asker r
  still : ∀ c, c.isWaiting = false → f c = c
  served : ∀ c, c.isWaiting = true → (f c).waiter = none

theorem settling_ended (t : TaskId) (result : String) :
    Settling (.ended t (some result)) t (·.answer result) where
  here c := if_pos rfl
  others j c other := if_neg (Ne.symm other)
  settles j := by simp [Event.settles, eq_comm]
  noAnswer := nofun
  still c settled := c.answer_of_not_waiting result settled
  served c waiting := by rw [Channel.answer, if_pos waiting]

theorem settling_dropped (t : TaskId) : Settling (.dropped t) t (·.shut) where
  here c := if_pos rfl
  others j c other := if_neg (Ne.symm other)
  settles j := by simp [Event.settles, eq_comm]
  noAnswer := nofun
  still c settled := c.shut_of_not_waiting settled
  served c waiting := by
    cases state : c.state <;> simp_all [Channel.isWaiting, Channel.shut, Channel.closeSender]

namespace Answered

variable {past : List Event} {w v : World} {wakers : List (Waker × Option TaskId)} {σ : Scene}

/-- An event that does nothing to channels. -/
theorem plain (answered : Answered past w wakers) {e : Event} (plain : e.isPlain = true) :
    Answered (past ++ [e]) w wakers where
  channels j := by
    rw [channel_concat, (onChannel_of_plain plain j _).1]
    exact answered.channels j
  consistent := answered.consistent.concat fun j asker r now => by simp [now, Event.isPlain] at plain
  once := answered.once.concat fun j settles => by
    rw [(onChannel_of_plain plain j .create).2] at settles
    cases settles

theorem rearrange (answered : Answered past w wakers) {others : List (Waker × Option TaskId)}
    (kept : ∀ a j, (a, some j) ∈ wakers → (a, some j) ∈ others) : Answered past w others where
  channels j := (answered.channels j).rearrange fun a => kept a j
  consistent := answered.consistent
  once := answered.once

theorem goTo (answered : Answered past σ.world σ.wakers) (stays : ∀ j, Stays σ.world v j) :
    Answered past v (σ.goTo v).wakers where
  channels j := (answered.channels j).goTo (stays j)
  consistent := answered.consistent
  once := answered.once

/-- The channel that is settled, and who is to be woken by it. -/
theorem settled_channel (answered : Answered past w wakers) {t : TaskId}
    {f : Channel String → Channel String} {waiter : Option TaskId}
    (settles : SettlesResult t f waiter w v) :
    ∃ c, (c = channel past t ∨ c = abandoned) ∧ waiter = c.listener? ∧ v.result? t = some (f c) ∧
      ∀ b, waiter = some b → ∃ a, a.task = b ∧ (a, some t) ∈ wakers := by
  obtain ⟨x, c, discards, there, rfl, after⟩ := settles
  have result : v.result? t = some (f c) := by rw [after, if_pos rfl]
  rcases discards t with same | abandons
  · refine ⟨c, (answered.channels t).tells c (same ▸ there), rfl, result, fun b waits => ?_⟩
    refine (answered.channels t).left c b (same ▸ there) ?_
    cases waiting : c.isWaiting with
    | true => rwa [Channel.listener?, if_pos waiting] at waits
    | false => simp [Channel.listener?, waiting] at waits
  · rw [there] at abandons
    obtain ⟨d, -, rfl⟩ := Option.map_eq_some_iff.mp abandons.symm
    exact ⟨abandoned, .inr rfl, rfl, result, fun b waits => by cases waits⟩

/-- A task is settled that was not settled before. -/
theorem settle (answered : Answered past σ.world σ.wakers) {e : Event} {t : TaskId}
    {f : Channel String → Channel String} {waiter : Option TaskId} (settling : Settling e t f)
    (settles : SettlesResult t f waiter σ.world v) (unsettled : ¬Settled past t) :
    Answered (past ++ [e]) v (σ.goTo v).wakers where
  channels j := by
    by_cases own : j = t
    · subst own
      obtain ⟨c, origin, -, here, -⟩ := answered.settled_channel settles
      rcases origin with rfl | rfl
      · have tells := channel_tells past answered.consistent j
        have waiting : (channel past j).isWaiting = true := by
          by_contra not
          refine unsettled (tells.settled fun state => not ?_)
          rw [Channel.isWaiting, state]
        refine .of_eq here (.inl (by rw [channel_concat, settling.here])) fun b waits => ?_
        rw [settling.served _ waiting] at waits
        cases waits
      · rw [settling.still abandoned rfl] at here
        exact .of_eq here (.inr rfl) fun b waits => by cases waits
    · obtain ⟨x, c, discards, -, -, after⟩ := settles
      have stays : Stays σ.world v j := by
        rw [Stays, after j, if_neg own]
        exact stays_of_discards discards j
      rw [channel_concat, settling.others j _ own]
      exact (answered.channels j).goTo stays
  consistent := answered.consistent.concat fun j asker r now => (settling.noAnswer j asker r now).elim
  once := answered.once.concat fun j settles => by
    rw [(settling.settles j).mp settles]
    exact unsettled

/-- Somebody asks for a result by a handle that was kept. -/
theorem ask (answered : Answered past w wakers) {j : TaskId} (asker : Option TaskId)
    {r : Receipt String} (kept : (w.result? j).map (·.state) ≠ some .abandoned)
    (asked : exec (onResult j (·.ask asker)) w = (.ok r, v))
    {others : List (Waker × Option TaskId)}
    (stay : ∀ i a c b, i ≠ j → v.result? i = some c → c.waiter = some b → (a, some i) ∈ wakers →
      (a, some i) ∈ others)
    (left : ∀ b c, w.result? j = some c → (c.ask asker).2.waiter = some b →
      ∃ a, a.task = b ∧ (a, some j) ∈ others) :
    Answered (past ++ [.asked j asker r]) v others := by
  obtain ⟨k, present, rfl, rfl⟩ := exec_onResult_eq_ok j _ w v r asked
  have here : w.result? j = some k.result := result?_of_present present
  have same : k.result = channel past j := by
    rcases (answered.channels j).tells _ here with same | gone
    · exact same
    · rw [here, gone] at kept
      exact (kept rfl).elim
  have results := result?_withTask w j k { k with result := (k.result.ask asker).2 } present
  refine { channels := fun i => ?_, consistent := ?_, once := ?_ }
  · rw [channel_concat, Event.onChannel]
    by_cases own : i = j
    · subst own
      rw [if_pos rfl, ← same]
      exact .of_eq (by rw [results, if_pos rfl]) (.inl rfl) fun b => left b _ here
    · have still := (results i).trans (if_neg own)
      rw [if_neg (Ne.symm own)]
      have before := answered.channels i
      refine ⟨fun c there => before.tells c (still ▸ there), fun none => before.unborn (still ▸ none),
        fun c b there waits => ?_⟩
      obtain ⟨a, task, mem⟩ := before.left c b (still ▸ there) waits
      exact ⟨a, task, stay i a c b own there waits mem⟩
  · refine answered.consistent.concat fun i other s now => ?_
    cases now
    rw [same]
  · exact answered.once.concat fun i settles => by cases settles

end Answered

/-- Whoever waited for a task when it was settled is woken next, unless the handle is let go. -/
def Told (past : List Event) (w : World) : Prop :=
  ∀ before e after j b, past = before ++ e :: after → e.settles j = true →
    (channel before j).listener? = some b →
      after.head? = some (.woken b) ∨ w.result? j = some abandoned

/-- A handle that was let go is not there again. -/
theorem abandoned_of_stays {u v : World} {j : TaskId} (stays : Stays u v j)
    (gone : u.result? j = some abandoned) : v.result? j = some abandoned := by
  rcases stays with same | abandons | ⟨none, -⟩
  · rw [same, gone]
  · rw [abandons, gone]
    rfl
  · rw [gone] at none
    cases none

theorem abandoned_of_settles {e : Event} {t : TaskId} {f : Channel String → Channel String}
    {waiter : Option TaskId} {u v : World} (settling : Settling e t f)
    (settles : SettlesResult t f waiter u v) (j : TaskId) (gone : u.result? j = some abandoned) :
    v.result? j = some abandoned := by
  obtain ⟨x, c, discards, there, -, after⟩ := settles
  have still := abandoned_of_stays (stays_of_discards discards j) gone
  rw [after]
  split
  · next own =>
    rw [own, there] at still
    rw [Option.some.inj still, settling.still abandoned rfl]
  · exact still

namespace Told

variable {past new : List Event} {w v x : World}

/-- Nothing happens that settles a task. -/
theorem append (told : Told past w) (unsettled : ∀ e ∈ new, ∀ j, e.settles j = false)
    (stay : ∀ j, w.result? j = some abandoned → v.result? j = some abandoned) :
    Told (past ++ new) v := by
  intro before e after j b same settles waits
  rcases split_append same with ⟨rest, rfl, rfl⟩ | ⟨early, rfl, rfl⟩
  · exact (told before e rest j b rfl settles waits).imp (fun next => by simp [next]) (stay j)
  · rw [unsettled e (by simp) j] at settles
    cases settles

/-- A task is settled, and who waits for it is woken. -/
theorem settle (told : Told past w) {wakers : List (Waker × Option TaskId)}
    (answered : Answered past w wakers) {e : Event} {t : TaskId}
    {f : Channel String → Channel String} {waiter : Option TaskId} (settling : Settling e t f)
    (settles : SettlesResult t f waiter w v) (same : ∀ j, x.result? j = v.result? j) :
    Told (past ++ e :: wakes waiter) x := by
  have stay (j : TaskId) (gone : w.result? j = some abandoned) : x.result? j = some abandoned :=
    (same j).trans (abandoned_of_settles settling settles j gone)
  intro before g after j b split settled waits
  rcases split_append split with ⟨rest, rfl, rfl⟩ | ⟨_ | ⟨first, early⟩, rfl, now⟩
  · exact (told before g rest j b rfl settled waits).imp (fun next => by simp [next]) (stay j)
  · obtain ⟨rfl, rfl⟩ := List.cons.inj now
    obtain rfl := (settling.settles j).mp settled
    rw [List.append_nil] at waits
    obtain ⟨c, rfl | rfl, rfl, here, -⟩ := answered.settled_channel settles
    · simp [wakes, waits]
    · rw [settling.still abandoned rfl] at here
      exact .inr ((same j).trans here)
  · -- After the event that settles the task there are only wakes.
    have last : g ∈ wakes waiter := by
      rw [(List.cons.inj now).2]
      simp
    obtain ⟨c, -, rfl⟩ : ∃ c, waiter = some c ∧ Event.woken c = g := by
      simpa [wakes] using last
    cases settled

end Told

end Membrane.JoinRun
