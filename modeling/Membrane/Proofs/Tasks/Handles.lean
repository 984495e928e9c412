import Membrane.Proofs.Tasks.Holders
/-!
What the handle of a task tells. The channel of a task is as the events tell, unless its handle was let
go: it is settled when the task is done or let go, and whoever asks first after that gets the answer.
-/

set_option autoImplicit false

namespace Membrane

namespace Channel

variable {α : Type}

/-- Asks for the value: a task waits for it, or nobody does. -/
def ask (c : Channel α) : Option TaskId → Receipt α × Channel α
  | none => c.tryTake
  | some t => c.poll (some t)

variable (c : Channel α) (asker : Option TaskId)

theorem ask_of_waiting (waiting : c.state = .waiting) :
    c.ask asker = (.pending, ⟨.waiting, asker.or c.waiter⟩) := by
  obtain ⟨state, waiter⟩ := c
  obtain rfl : state = .waiting := waiting
  cases asker <;> rfl

theorem ask_of_sent (a : α) (sent : c.state = .sent a) :
    c.ask asker = (.value a, ⟨.taken, none⟩) := by
  cases asker <;> simp [ask, tryTake, poll, sent]

theorem ask_of_closed (closed : c.state = .closed) : c.ask asker = (.closed, ⟨.taken, none⟩) := by
  cases asker <;> simp [ask, tryTake, poll, closed]

theorem ask_of_taken (taken : c.state = .taken) :
    (c.ask asker).1 ≠ .pending ∧ (c.ask asker).2 = c := by
  cases asker <;> simp [ask, tryTake, poll, taken]

/-- A channel that gives no answer is waited on. -/
theorem ask_of_pending (pending : (c.ask asker).1 = .pending) :
    c.ask asker = (.pending, ⟨.waiting, asker.or c.waiter⟩) := by
  cases state : c.state with
  | waiting => exact c.ask_of_waiting asker state
  | sent a =>
    rw [c.ask_of_sent asker a state] at pending
    cases pending
  | closed =>
    rw [c.ask_of_closed asker state] at pending
    cases pending
  | taken => exact absurd pending (c.ask_of_taken asker state).1
  | abandoned => cases asker <;> simp [ask, tryTake, poll, state] at pending

/-- Who is to be woken after somebody asked waited before, unless the asker has to wait. -/
theorem waiter_of_ask {b : TaskId} (waits : (c.ask asker).2.waiter = some b) :
    (c.ask asker).1 = .pending ∧ asker = some b ∨ c.waiter = some b := by
  cases state : c.state with
  | waiting =>
    rw [c.ask_of_waiting asker state] at waits ⊢
    cases asker with
    | none => exact .inr waits
    | some d => exact .inl ⟨rfl, waits⟩
  | sent a =>
    rw [c.ask_of_sent asker a state] at waits
    cases waits
  | closed =>
    rw [c.ask_of_closed asker state] at waits
    cases waits
  | taken => exact .inr ((c.ask_of_taken asker state).2 ▸ waits)
  | abandoned => cases asker <;> simp_all [ask, tryTake, poll]

end Channel

namespace JoinRun

open Act World

/-- What an event does to the channel of a task. -/
def Event.onChannel (j : TaskId) (c : Channel String) : Event → Channel String
  | .ended t (some result) => if t = j then c.answer result else c
  | .dropped t => if t = j then c.shut else c
  | .asked t asker _ => if t = j then (c.ask asker).2 else c
  | .spawned _ | .woken _ | .began _ | .ended _ none => c

/-- The channel of a task as the events tell. -/
def channel (past : List Event) (j : TaskId) : Channel String :=
  past.foldl (Event.onChannel j) .create

@[simp] theorem channel_concat (past : List Event) (e : Event) (j : TaskId) :
    channel (past ++ [e]) j = e.onChannel j (channel past j) := by
  simp [channel]

/-- The task is done, or it is let go. -/
def Event.settles (j : TaskId) : Event → Bool
  | .ended t (some _) => t = j
  | .dropped t => t = j
  | .spawned _ | .woken _ | .began _ | .ended _ none | .asked .. => false

/-- An event that does nothing to channels. -/
def Event.isPlain : Event → Bool
  | .spawned _ | .woken _ | .began _ | .ended _ none => true
  | .ended _ (some _) | .dropped _ | .asked .. => false

def Settled (past : List Event) (j : TaskId) : Prop := ∃ e ∈ past, e.settles j = true

theorem settled_iff (past : List Event) (j : TaskId) :
    Settled past j ↔ (∃ result, .ended j (some result) ∈ past) ∨ .dropped j ∈ past := by
  constructor
  · rintro ⟨e, there, settles⟩
    rcases e with t | t | t | ⟨t, _ | result⟩ | t | ⟨t, asker, r⟩ <;>
      simp only [Event.settles, decide_eq_true_eq, Bool.false_eq_true] at settles
    · exact .inl ⟨result, settles ▸ there⟩
    · exact .inr (settles ▸ there)
  · rintro (⟨result, there⟩ | there)
    · exact ⟨_, there, by simp [Event.settles]⟩
    · exact ⟨_, there, by simp [Event.settles]⟩

theorem settled_concat (past : List Event) (e : Event) (j : TaskId) :
    Settled (past ++ [e]) j ↔ Settled past j ∨ e.settles j = true := by
  simp [Settled, or_and_right, exists_or]

/-- The answers are those that the channels gave. -/
def Consistent (past : List Event) : Prop :=
  ∀ before j asker r after, past = before ++ .asked j asker r :: after →
    r = ((channel before j).ask asker).1

/-- No task is settled twice. -/
def Once (past : List Event) : Prop :=
  ∀ before e after j, past = before ++ e :: after → e.settles j = true → ¬Settled before j

section

variable {past new : List Event} {e : Event} {j : TaskId}

/-- An event is among the earlier ones or among the new ones. -/
theorem split_append {before after : List Event} {f : Event}
    (same : past ++ new = before ++ f :: after) :
    (∃ rest, past = before ++ f :: rest ∧ after = rest ++ new) ∨
      ∃ early, before = past ++ early ∧ new = early ++ f :: after := by
  rcases List.append_eq_append_iff.mp same with ⟨early, first, rest⟩ | ⟨_ | ⟨g, rest⟩, first, now⟩
  · exact .inr ⟨early, first, rest⟩
  · exact .inr ⟨[], by simpa using first.symm, now.symm⟩
  · obtain ⟨rfl, later⟩ := List.cons.inj now
    exact .inl ⟨rest, first, later⟩

/-- The last event either is the one that is looked for, or that one is earlier. -/
theorem split_concat {before after : List Event} {f : Event}
    (same : past ++ [e] = before ++ f :: after) :
    (past = before ∧ e = f ∧ after = []) ∨
      ∃ rest, past = before ++ f :: rest ∧ after = rest ++ [e] := by
  rcases split_append same with earlier | ⟨early, rfl, now⟩
  · exact .inr earlier
  · obtain ⟨rfl, rfl, rfl⟩ : early = [] ∧ f = e ∧ after = [] := by
      cases early <;> simp_all
    exact .inl ⟨(List.append_nil _).symm, rfl, rfl⟩

theorem Consistent.concat (consistent : Consistent past)
    (last : ∀ j asker r, e = .asked j asker r → r = ((channel past j).ask asker).1) :
    Consistent (past ++ [e]) := by
  intro before j asker r after same
  rcases split_concat same with ⟨rfl, now, -⟩ | ⟨rest, earlier, -⟩
  · exact last j asker r now
  · exact consistent before j asker r rest earlier

theorem Once.concat (once : Once past) (last : ∀ j, e.settles j = true → ¬Settled past j) :
    Once (past ++ [e]) := by
  intro before f after j same settles
  rcases split_concat same with ⟨rfl, rfl, -⟩ | ⟨rest, earlier, -⟩
  · exact last j settles
  · exact once before f rest j earlier settles

/-- A task is settled by one event only. -/
theorem Once.unique (once : Once past) {f : Event} (first : e ∈ past) (second : f ∈ past)
    (settles : e.settles j = true) (too : f.settles j = true) : e = f := by
  obtain ⟨before, after, rfl⟩ := List.append_of_mem first
  rcases List.mem_append.mp second with early | late
  · exact (once before e after j rfl settles ⟨f, early, too⟩).elim
  · rcases List.mem_cons.mp late with same | late
    · exact same.symm
    · obtain ⟨between, rest, rfl⟩ := List.append_of_mem late
      refine (once (before ++ e :: between) f rest j (by simp) too ⟨e, ?_, settles⟩).elim
      simp

/-- What the state of a channel tells of what happened. -/
def Tells (past : List Event) (j : TaskId) : ChannelState String → Prop
  | .waiting => ¬Settled past j
  | .sent result => .ended j (some result) ∈ past
  | .closed => .dropped j ∈ past
  | .taken => Settled past j ∧ ∃ asker r, .asked j asker r ∈ past ∧ r ≠ .pending
  | .abandoned => False

theorem Tells.concat {state : ChannelState String} (tells : Tells past j state)
    (unsettled : state = .waiting → e.settles j = false) : Tells (past ++ [e]) j state := by
  cases state with
  | waiting =>
    refine fun settled => ?_
    rcases (settled_concat past e j).mp settled with before | now
    · exact tells before
    · rw [unsettled rfl] at now
      cases now
  | sent | closed => exact List.mem_append_left _ tells
  | taken =>
    obtain ⟨settled, asker, r, there, some⟩ := tells
    exact ⟨(settled_concat past e j).mpr (.inl settled), asker, r, List.mem_append_left _ there, some⟩
  | abandoned => exact tells

theorem Consistent.former {later : List Event} (consistent : Consistent (past ++ later)) :
    Consistent past := by
  rintro before j asker r after rfl
  exact consistent before j asker r (after ++ later) (by simp)

theorem Once.former {later : List Event} (once : Once (past ++ later)) : Once past := by
  rintro before e after j rfl
  exact once before e (after ++ later) j (by simp)

theorem Tells.settled {state : ChannelState String} (tells : Tells past j state)
    (answered : state ≠ .waiting) : Settled past j := by
  cases state with
  | waiting => exact absurd rfl answered
  | sent result => exact (settled_iff past j).mpr (.inl ⟨result, tells⟩)
  | closed => exact (settled_iff past j).mpr (.inr tells)
  | taken => exact tells.1
  | abandoned => exact tells.elim

/-- Somebody asks for the result. -/
theorem Tells.ask {c : Channel String} (tells : Tells past j c.state) (asker : Option TaskId) :
    Tells (past ++ [.asked j asker (c.ask asker).1]) j (c.ask asker).2.state := by
  have last (r : Receipt String) : .asked j asker r ∈ past ++ [.asked j asker r] := by simp
  have settled (answered : c.state ≠ .waiting) (r : Receipt String) :
      Settled (past ++ [.asked j asker r]) j :=
    (settled_concat past _ j).mpr (.inl (tells.settled answered))
  cases state : c.state with
  | waiting =>
    rw [c.ask_of_waiting asker state]
    rw [state] at tells
    exact tells.concat fun _ => rfl
  | sent result =>
    rw [c.ask_of_sent asker result state]
    exact ⟨settled (by simp [state]) _, asker, _, last _, by simp⟩
  | closed =>
    rw [c.ask_of_closed asker state]
    exact ⟨settled (by simp [state]) _, asker, _, last _, by simp⟩
  | taken =>
    rw [(c.ask_of_taken asker state).2, state]
    rw [state] at tells
    exact tells.concat nofun
  | abandoned =>
    rw [state] at tells
    exact tells.elim

/-- A channel that is waited on is settled by an answer, and any other one stays as it is. -/
theorem Tells.answer {c : Channel String} (tells : Tells past j c.state) (result : String)
    (now : e = .ended j (some result)) : Tells (past ++ [e]) j (c.answer result).state := by
  cases waiting : c.isWaiting with
  | true =>
    rw [Channel.answer, if_pos waiting, now]
    exact List.mem_append_right _ List.mem_cons_self
  | false =>
    rw [Channel.answer_of_not_waiting c result waiting]
    exact tells.concat fun state => by simp [Channel.isWaiting, state] at waiting

theorem Tells.shut {c : Channel String} (tells : Tells past j c.state) (now : e = .dropped j) :
    Tells (past ++ [e]) j c.shut.state := by
  cases waiting : c.isWaiting with
  | true =>
    have state : c.shut.state = .closed := by
      cases state : c.state <;> simp_all [Channel.isWaiting, Channel.shut, Channel.closeSender]
    rw [state, now]
    exact List.mem_append_right _ List.mem_cons_self
  | false =>
    rw [Channel.shut_of_not_waiting c waiting]
    exact tells.concat fun state => by simp [Channel.isWaiting, state] at waiting

/-- The state of a channel tells what happened to its task. -/
theorem channel_tells (past : List Event) (consistent : Consistent past) (j : TaskId) :
    Tells past j (channel past j).state := by
  induction past using List.reverseRecOn with
  | nil => simp [channel, Channel.create, Tells, Settled]
  | append_singleton past e ih =>
    have before := ih consistent.former
    rw [channel_concat]
    rcases e with t | t | t | ⟨t, _ | result⟩ | t | ⟨t, asker, r⟩
    · exact before.concat fun _ => rfl
    · exact before.concat fun _ => rfl
    · exact before.concat fun _ => rfl
    · exact before.concat fun _ => rfl
    · by_cases own : t = j
      · rw [own, Event.onChannel, if_pos rfl]
        exact before.answer result rfl
      · rw [Event.onChannel, if_neg own]
        exact before.concat fun _ => by simp [Event.settles, own]
    · by_cases own : t = j
      · rw [own, Event.onChannel, if_pos rfl]
        exact before.shut rfl
      · rw [Event.onChannel, if_neg own]
        exact before.concat fun _ => by simp [Event.settles, own]
    · by_cases own : t = j
      · rw [own, Event.onChannel, if_pos rfl,
          consistent past t asker r [] rfl, own]
        exact before.ask asker
      · rw [Event.onChannel, if_neg own]
        exact before.concat fun _ => rfl

/-- As long as a task is not settled, its handle gives no answer. The first answer after that is the
result if the task is done, and that there is none if it was let go. -/
theorem first_answer {later : List Event} {asker : Option TaskId} {r : Receipt String}
    (consistent : Consistent (past ++ .asked j asker r :: later))
    (once : Once (past ++ .asked j asker r :: later)) :
    (¬Settled past j → r = .pending) ∧
      ((∀ other s, .asked j other s ∈ past → s = .pending) →
        (∀ result, r = .value result ↔ .ended j (some result) ∈ past) ∧
          (r = .closed ↔ .dropped j ∈ past) ∧ r ≠ .exhausted) := by
  have tells := channel_tells past consistent.former j
  have answer := consistent past j asker r later rfl
  have settled := tells.settled
  have unique {e f : Event} := once.former.unique (j := j) (e := e) (f := f)
  have done (result : String) : (Event.ended j (some result)).settles j = true := by
    simp [Event.settles]
  have gone : (Event.dropped j).settles j = true := by simp [Event.settles]
  cases state : (channel past j).state with
  | waiting =>
    rw [Channel.ask_of_waiting _ asker state] at answer
    subst answer
    rw [state] at tells
    refine ⟨fun _ => rfl, fun _ => ⟨fun result => ?_, ?_, nofun⟩⟩
    · exact iff_of_false nofun fun ended => tells ⟨_, ended, done result⟩
    · exact iff_of_false nofun fun dropped => tells ⟨_, dropped, gone⟩
  | sent result =>
    rw [Channel.ask_of_sent _ asker result state] at answer
    subst answer
    refine ⟨fun not => (not (settled (by simp [state]))).elim, fun _ => ⟨fun other => ?_, ?_, nofun⟩⟩
    · rw [state] at tells
      constructor
      · rintro ⟨⟩
        exact tells
      · intro ended
        have same := unique tells ended (done result) (done other)
        rw [Event.ended.injEq, Option.some.injEq] at same
        rw [same.2]
    · rw [state] at tells
      refine iff_of_false nofun fun dropped => ?_
      cases unique tells dropped (done result) gone
  | closed =>
    rw [Channel.ask_of_closed _ asker state] at answer
    subst answer
    refine ⟨fun not => (not (settled (by simp [state]))).elim, fun _ => ⟨fun other => ?_, ?_, nofun⟩⟩
    · rw [state] at tells
      refine iff_of_false nofun fun ended => ?_
      cases unique tells ended gone (done other)
    · rw [state] at tells
      exact iff_of_true rfl tells
  | taken =>
    refine ⟨fun not => (not (settled (by simp [state]))).elim, fun first => ?_⟩
    rw [state] at tells
    obtain ⟨-, other, s, there, some⟩ := tells
    exact (some (first other s there)).elim
  | abandoned =>
    rw [state] at tells
    exact tells.elim

/-- A task that waits for a result is the one to be woken, as long as the other task is not settled and
no other task asks. -/
theorem channel_since {later : List Event} {b : TaskId}
    (consistent : Consistent (past ++ .asked j (some b) .pending :: later))
    (unsettled : ∀ e ∈ later, e.settles j = false)
    (alone : ∀ c r, .asked j (some c) r ∉ later) :
    channel (past ++ .asked j (some b) .pending :: later) j = ⟨.waiting, some b⟩ := by
  induction later using List.reverseRecOn with
  | nil =>
    have tells := channel_tells past consistent.former j
    have answer := consistent past j (some b) .pending [] rfl
    rw [channel_concat, Event.onChannel, if_pos rfl]
    cases state : (channel past j).state with
    | waiting =>
      rw [Channel.ask_of_waiting _ _ state]
      rfl
    | sent result =>
      rw [Channel.ask_of_sent _ _ result state] at answer
      cases answer
    | closed =>
      rw [Channel.ask_of_closed _ _ state] at answer
      cases answer
    | taken => exact absurd answer.symm (Channel.ask_of_taken _ _ state).1
    | abandoned =>
      rw [state] at tells
      exact tells.elim
  | append_singleton later e ih =>
    rw [← List.cons_append, ← List.append_assoc] at consistent ⊢
    have before := ih consistent.former (fun e there => unsettled e (List.mem_append_left _ there))
      fun c r there => alone c r (List.mem_append_left _ there)
    have quiet := unsettled e (by simp)
    rw [channel_concat, before]
    rcases e with t | t | t | ⟨t, _ | result⟩ | t | ⟨t, _ | c, r⟩
    · rfl
    · rfl
    · rfl
    · rfl
    · rw [Event.onChannel, if_neg (of_decide_eq_false quiet)]
    · rw [Event.onChannel, if_neg (of_decide_eq_false quiet)]
    · rw [Event.onChannel]
      split <;> rfl
    · by_cases own : t = j
      · subst own
        exact (alone c r (by simp)).elim
      · rw [Event.onChannel, if_neg own]

end

end JoinRun

end Membrane
