import Membrane.Proofs.Transfer.Honest
/-!
What a transfer guarantees whatever the threads do, as long as they are fair: a token is received
and fulfilled once, its source stays live until it is served, and what a receiver gets stands in its
own realm for what the source stood for.
-/

set_option autoImplicit false

namespace Membrane.Transfer

variable {past : List Record} {w w' u v : World} {m : Move} {outcome : Except Halt Answer}

/-- The value of a token comes to its receiver: through its loop, or at once on the thread of the
source. -/
def Record.Fulfils (t : TokenId) (r : Record) : Prop :=
  (∃ l s n o v, r.move = .turn l ∧ r.before.next? l = some (.deliver t s n o, v)) ∨
    ∃ i c id k, r.move = .receive i t c ∧ r.before.token? t = some k ∧ c.thread = k.thread ∧
      r.outcome = .ok (.receive id)

theorem Record.Fulfils.still (t : TokenId) (still : u = { w with here := u.here })
    (fulfils : (⟨u, m, outcome⟩ : Record).Fulfils t) : (⟨w, m, outcome⟩ : Record).Fulfils t := by
  rcases fulfils with ⟨l, s, n, o, v, rfl, next⟩ | fulfils
  · have running := next?_running u w.here l _ v next
    rw [still] at running
    exact Or.inl ⟨l, s, n, o, _, rfl, running⟩
  · rw [still] at fulfils
    exact Or.inr fulfils

/-- A token that is fulfilled was not, and is from now on. -/
theorem Step.fulfils (step : Step w m outcome w') (orderly : Orderly w) (allowed : m.Allowed w)
    (t : TokenId) (fulfils : (⟨w, m, outcome⟩ : Record).Fulfils t) :
    (∀ k, w.token? t = some k → k.state ≠ .fulfilled) ∧
      ∃ k, w'.token? t = some k ∧ k.state = .fulfilled := by
  rcases fulfils with ⟨l, s, n, o, v, rfl, next⟩ | ⟨i, c, id, k, rfl, present, near, done⟩
  · change w.next? l = some (.deliver t s n o, v) at next
    have requested := orderly.claimed_of_next l allowed _ v next t rfl
    refine ⟨fun k present fulfilled => ?_, ?_⟩
    · rw [requested k present] at fulfilled
      cases fulfilled
    · cases step with
      | turnIdle l idle => rw [idle] at next; cases next
      | serveDetached l s v' other => rw [other] at next; cases next
      | serveUnregistered l s v' other => rw [other] at next; cases next
      | serve l s v' other => rw [other] at next; cases next
      | collect l s v' other => rw [other] at next; cases next
      | deliver l t' s' n' o' v' other k present x destination ch reply =>
        rw [other] at next
        cases next
        have before := token?_next l _ other
        rw [← before] at present
        refine ⟨k.fulfilled.dropped, ?_, rfl⟩
        unfold World.settled
        cases o with
        | error e =>
          exact (congrFun (World.token?_withToken (v.withReply n (·.answer (.error e))) t k _
            present) t).trans (Function.update_self ..)
        | ok value =>
          exact (congrFun (World.token?_withToken ((v.withRealm s (x.retainFor ch value)).withReply n
            (·.answer (.ok (x.retain value).1))) t k _ present) t).trans (Function.update_self ..)
  · change w.token? t = some k at present
    cases step with
    | receiveAgain => cases done
    | receiveLocal i t c k' there created here =>
      refine ⟨fun l also fulfilled => ?_, k'.fulfilled, ?_, rfl⟩
      · rw [there, Option.some.injEq] at also
        rw [← also, created] at fulfilled
        cases fulfilled
      · exact (congrFun (w.token?_withToken t k' _ there) t).trans (Function.update_self ..)
    | receiveUnavailable i t c k' there created apart gone =>
      rw [present, Option.some.injEq] at there
      exact absurd (there ▸ near) apart
    | receiveAsked i t c k' there created apart source attached =>
      rw [present, Option.some.injEq] at there
      exact absurd (there ▸ near) apart

/-- A token that was fulfilled once is fulfilled. -/
theorem Run.fulfilled {config : Config} {rule : Rule} (run : Run config rule past w) (t : TokenId)
    (r : Record) (member : r ∈ past) (fulfils : r.Fulfils t) :
    ∃ k, w.token? t = some k ∧ k.state = .fulfilled := by
  induction run with
  | start => cases member
  | @step past w m run allowed permitted ih =>
    have orderly := run.orderly.running (m.thread w)
    have step := m.step run.orderly allowed
    rw [m.perform_eq] at step member ⊢
    rcases List.mem_cons.mp member with rfl | old
    · exact (step.fulfils orderly allowed t (fulfils.still t rfl)).2
    · obtain ⟨k, present, fulfilled⟩ := ih old
      obtain ⟨l, now, _, forward⟩ := (step.aging orderly allowed).stays t k present
      refine ⟨l, now, ?_⟩
      rw [fulfilled] at forward
      cases state : l.state with
      | fulfilled => rfl
      | created | requested =>
        rw [state] at forward
        exact absurd forward (by decide)

/-- Whoever received a token whose request is still to be served, by a source that is there, was not
detached. -/
def Attended (past : List Record) (w : World) : Prop :=
  ∀ i t k, (i, .serve t) ∈ w.posted → w.token? t = some k →
    (∃ a ∈ w.runtime.attached, a.thread = k.thread) → ¬ Deserted t past

theorem Step.attended (step : Step w m outcome w') (attended : Attended past w)
    (orderly : Orderly w) (history : History past w) (allowed : m.Allowed w)
    (permitted : Rule.owned past w m) : Attended (⟨u, m, outcome⟩ :: past) w' := by
  intro i t k posted present ⟨a, member, thread⟩ deserted
  obtain ⟨requests, attached⟩ := step.newcomers orderly history allowed
  rcases requests i t posted with former | unclaimed
  · obtain ⟨l, before, _⟩ := orderly.exists_of_serve i t former
    obtain ⟨k', now, alike, _⟩ := (step.aging orderly allowed).stays t l before
    obtain rfl := Option.some.inj (present.symm.trans now)
    have inside := orderly.thread_inside t l before
    have source : ∃ a ∈ w.runtime.attached, a.thread = l.thread := by
      refine ⟨a, (attached a member).resolve_right fun new => ?_, thread.trans alike.thread⟩
      rw [← new, thread, alike.thread] at inside
      exact Nat.lt_irrefl _ inside
    have stays := attended i t l former before source
    rcases deserted with old | ⟨j, c, d, rfl, receiver, gone⟩
    · exact stays old
    · obtain ⟨e, waits, number⟩ := (history.served i t l former before source).resolve_right stays
      obtain ⟨s, k', d', there, correlation, receiver', destination, _⟩ := history.awaited e waits
      obtain rfl := orderly.issued.distinct s t k' l there before (correlation.trans number)
      obtain rfl := Option.some.inj (receiver'.symm.trans receiver)
      exact permitted e waits (destination.symm.trans gone.symm)
  · rcases deserted with old | ⟨j, c, d, _, receiver, _⟩
    · obtain ⟨d, receiver⟩ := receiver?_of_deserted t old
      rw [unclaimed] at receiver
      cases receiver
    · rw [unclaimed] at receiver
      cases receiver

theorem Run.attended {config : Config} (run : Run config .owned past w) : Attended past w := by
  induction run with
  | start => exact fun i t k member => absurd member List.not_mem_nil
  | @step past w m run allowed permitted ih =>
    have orderly := run.orderly
    have step := m.step orderly allowed
    have running : Attended past { w with here := m.thread w } := ih
    rw [m.perform_eq] at step ⊢
    exact step.attended running (orderly.running _) (run.history.running _) allowed
      (owned_running _ permitted)

/-- A request whose source is attached is served, and the count of the source goes down by one. -/
theorem Step.serves (l : LoopId) (step : Step w (.turn l) outcome w') (account : Account past w)
    (tracked : Tracked past w) (attended : Attended past w) (orderly : Orderly w)
    (history : History past w) (allowed : (Move.turn l).Allowed w) (t : TokenId)
    (next : w.next? l = some (.serve t, v)) (k : Token) (present : w.token? t = some k)
    (attached : w.runtime.isAttached k.thread = true) :
    outcome = .ok .done ∧ ∀ ref, w'.held ref + (if ref = k.source then 1 else 0) = w.held ref := by
  obtain ⟨i, owner⟩ := allowed
  have posted := (w.posted_next l i owner _ v next).1.mem_iff.mpr List.mem_cons_self
  have there := (isAttached_iff _ _).mp attached
  cases step.serving l t v next k present with
  | detached detached =>
    rw [detached] at attached
    cases attached
  | unregistered attached gone =>
    exact absurd (history.deserted_of_free i t k present posted attached gone)
      (attended i t k posted present there)
  | served attached c waits x source =>
    have owing := tracked.owing orderly history l i owner t next k present
    exact ⟨rfl, account.counts_served orderly l i owner t next k present owing c waits x source⟩

/-- The reference of a token that was not served is still held, by the token or by nobody. -/
theorem Account.live_of_pending (account : Account past w) (tracked : Tracked past w) (t : TokenId)
    (k : Token) (present : w.token? t = some k) (pending : Pending t past) :
    0 < w.held k.source := by
  by_cases ended : Ended t past
  · obtain ⟨r, member, serves | strands⟩ := ended
    · exact absurd ⟨r, member, serves⟩ pending.1
    · obtain ⟨l, there, source⟩ := tracked.met r member t (Or.inr strands)
      obtain rfl := Option.some.inj (present.symm.trans there)
      have lost : (Loss.stranded, k.source) ∈ losses past :=
        List.mem_filterMap.mpr ⟨r, member, r.loses?_of_strands strands k.source source⟩
      exact Nat.zero_lt_of_lt (account.spare (.nobody .stranded, k.source)
        (Multiset.count_pos.mpr lost))
  · exact Nat.zero_lt_of_lt (account.spare (.debtor (.token t), k.source)
      (times_of_owing ⟨ended, pending.2⟩ k present))

/-- Whoever asks a receive that has a reference gets one of its own. -/
theorem Step.yields (i : ThreadId) (id : ReceiveId) (ref : Guest.Ref)
    (step : Step w (.poll i id) (.ok (.read (some (.ok ref)))) w')
    (accountable : Accountable past w) (linked : Linked past w) :
    0 < w'.held ref ∧ ∃ t c, Rehomed past w' t c id ref := by
  obtain ⟨account, warranted⟩ := accountable
  generalize answered : (Except.ok (Answer.read (some (.ok ref))) : Except Halt Answer) = outcome
    at step
  cases step with
  | pollGone => cases answered
  | pollReady i id answer present =>
    rcases answer with _ | (e | ref')
    · cases answered
    · cases answered
    · cases answered
      have owes : (books past w).owes (.receive id) = some ref := by
        show w.due? id = _
        rw [World.due?, present]
        rfl
      have live := account.spare (.debtor (.receive id), ref) (Books.times_of_owes _ _ owes)
      obtain ⟨t, c, received, home, identity⟩ := warranted (.receive id) ref owes
      exact ⟨Nat.zero_lt_of_lt live, t, c, received, home, identity⟩
  | pollWaiting i id n r l present ch reply =>
    obtain ⟨t, c, made, rfl⟩ := linked.waits id n r l present
    obtain ⟨state, waiter⟩ := ch
    rcases state with _ | (e | h) | _ | _ | _
    · cases answered
    · cases answered
    · cases answered
      have owes := linked.owes_reply id n c.realm l present h (by rw [World.sent?, reply]; rfl)
      have live := account.spare (.debtor (.reply n), ⟨c.realm, h⟩) (Books.times_of_owes _ _ owes)
      obtain ⟨t', c', id', made', received, home, identity⟩ := warranted (.reply n) _ owes
      rw [made] at made'
      cases made'
      exact ⟨Nat.zero_lt_of_lt live, t, c, received, home, identity⟩
    · cases answered
    · cases answered
    · cases answered

theorem Step.proceeds (i : ThreadId) (t : TokenId) (c : Context)
    (step : Step w (.receive i t c) outcome w') (k : Token) (present : w.token? t = some k)
    (created : k.state = .created) : ∃ id, outcome = .ok (.receive id) := by
  cases step with
  | receiveAgain i t c k' there claimed =>
    rw [present, Option.some.injEq] at there
    exact absurd (there ▸ created) claimed
  | receiveLocal | receiveUnavailable | receiveAsked => exact ⟨_, rfl⟩

/-- What holds of the next move of threads that are fair. -/
structure Handover (past : List Record) (w : World) (m : Move) : Prop where
  /-- Tokens stay, and go forward only. -/
  forward : ∀ t k, w.token? t = some k →
    ∃ l, (m.perform w).2.token? t = some l ∧ Alike k l ∧ stage k.state ≤ stage l.state
  /-- Whoever receives a token first goes on. -/
  first : ∀ i t c, m = .receive i t c → receiver? t past = none →
    ∃ id, (m.perform w).1 = .ok (.receive id)
  /-- Whoever receives it again is stopped, and nothing changes. -/
  again : ∀ i t c k, m = .receive i t c → w.token? t = some k → receiver? t past ≠ none →
    m.perform w = (.error (.misuse (.doubleReceive k.correlation)), w)
  /-- No token is fulfilled twice. -/
  once : ∀ t, (⟨w, m, (m.perform w).1⟩ : Record).Fulfils t → ∀ r ∈ past, ¬ r.Fulfils t
  unfulfilled : ∀ n, (m.perform w).1 ≠ .error (.misuse (.alreadyFulfilled n))
  /-- The source of a token that is still to be served is live. -/
  live : ∀ t k, w.token? t = some k → Pending t past → 0 < w.held k.source
  /-- A token is served once, and its source loses one reference by it and nothing else does. -/
  served : ∀ l t v k, m = .turn l → w.next? l = some (.serve t, v) → w.token? t = some k →
    w.runtime.isAttached k.thread = true → ¬ Served t past ∧ (m.perform w).1 = .ok .done ∧
      ∀ ref, (m.perform w).2.held ref + (if ref = k.source then 1 else 0) = w.held ref
  /-- What a receive yields is a live reference of the realm that received, and it stands for what the
  source stood for when the token was served. -/
  yields : ∀ i id ref, m = .poll i id → (m.perform w).1 = .ok (.read (some (.ok ref))) →
    0 < (m.perform w).2.held ref ∧ ∃ t c v u,
      (∃ r ∈ past, ∃ j, r.move = .receive j t c ∧ r.outcome = .ok (.receive id)) ∧
      ref.realm = c.realm ∧ ServedAs t v past ∧ (m.perform w).2.value? ref = some u ∧
      u.key = v.key ∧ ∀ o, v = .object o → u = .object o

theorem eq_object_of_key (v : Host.Value) (o : ObjectId) (same : v.key = (Host.Value.object o).key) :
    v = .object o := by
  cases v with
  | object p =>
    cases same
    rfl
  | _ => cases same

/-- Whatever fair threads do in whatever order, a token is handed over once and as it was. -/
theorem handover (config : Config) (past : List Record) (w : World)
    (run : Run config .owned past w) (m : Move) (allowed : m.Allowed w)
    (permitted : Rule.owned past w m) : Handover past w m := by
  have orderly := run.orderly
  have history := run.history
  have held := run.mono .held Rule.held_of_owned
  have tracked := held.tracked
  have step := m.step orderly allowed
  have orderly' := orderly.running (m.thread w)
  have performed := m.world_perform w
  refine ⟨fun t k present => ?_, ?_, ?_, fun t fulfils r member already => ?_, fun n failed => ?_,
    fun t k present pending => ?_, ?_, ?_⟩
  · rw [performed]
    exact (step.aging orderly' allowed).stays t k present
  · rintro i t c rfl first
    obtain ⟨_, k, present⟩ := allowed
    exact step.proceeds i t c k present ((history.unclaimed t k present).mpr first)
  · rintro i t c k rfl present received
    exact receive_again w i t c k present ((history.requested_iff t k present).mpr received)
  · obtain ⟨k, present, fulfilled⟩ := run.fulfilled t r member already
    exact (step.fulfils orderly' allowed t (fulfils.still t rfl)).1 k present fulfilled
  · rcases step.misuse (history.running _) allowed failed with
      ⟨_, _, _, _, _, _, _, other⟩ | ⟨_, _, _, _, _, _, _, _, _, other⟩
    · cases other
    · cases other
  · exact held.accountable.account.live_of_pending tracked t k present pending
  · rintro l t v k rfl next present attached
    obtain ⟨i, owner⟩ := allowed
    have running := next?_running w ((Move.turn l).thread w) l _ v next
    obtain ⟨done, counts⟩ := step.serves l (held.accountable.running _).account (tracked.running _)
      run.attended orderly' (history.running _) ⟨i, owner⟩ t running k present attached
    have owing := tracked.owing orderly history l i owner t next k present
    refine ⟨fun ⟨r, member, serves⟩ => owing.1 ⟨r, member, Or.inl serves⟩, done, fun ref => ?_⟩
    rw [performed]
    exact counts ref
  · rintro i id ref rfl answered
    rw [answered] at step
    obtain ⟨live, t, c, received, home, v, u, served, stands, key⟩ :=
      step.yields i id ref (held.accountable.running _) (run.linked.running _)
    rw [performed]
    refine ⟨live, t, c, v, u, received, home, served, stands, key, ?_⟩
    rintro o rfl
    exact eq_object_of_key u o key

/-- Those who ask for a global object are fair. -/
theorem permitted_asking : Permitted .owned [] (.create .default) asking := by
  have few : (((play [] (.create .default) (asking.take 4)).2.realms[0]?).map fun x =>
      x.table.refcount? .globalObject) = some (some 1) := by decide +kernel
  refine ⟨trivial, trivial, trivial, trivial, fun x there n live => ?_, ?_, trivial⟩
  · change (play [] (.create .default) (asking.take 4)).2.realms[0]? = some x at there
    rw [there, Option.map_some, live, Option.some.injEq, Option.some.injEq] at few
    rw [few]
    decide
  · exact (by decide +kernel : 0 ∈ (hands (play [] (.create .default) (asking.take 5)).1).tokens)

/-- The source serves the request, and is left with the reference of its table. -/
theorem handover_asked :
    let w := (play [] (.create .default) asking).2
    w.held ⟨0, .globalObject⟩ = 2 ∧ ((Move.turn 0).perform w).1 = .ok .done ∧
      ((Move.turn 0).perform w).2.held ⟨0, .globalObject⟩ = 1 := by
  intro w
  have run : Run .default .owned (play [] (.create .default) asking).1 w :=
    Run.start.play asking (by decide +kernel) permitted_asking
  have asked : w.token? 0 = some ⟨⟨0, .globalObject⟩, ⟨0⟩, 1, .requested, 2⟩ := by decide +kernel
  obtain ⟨⟨job, v⟩, next, request, silent⟩ :
      ∃ p, w.next? 0 = some p ∧ p.1.token? = some 0 ∧ p.1.reply? = none := by decide +kernel
  have permitted : Rule.owned (play [] (.create .default) asking).1 w (.turn 0) := by
    intro t r n value u x other
    rw [next] at other
    cases other
    cases silent
  cases job with
  | serve t =>
    obtain rfl := Option.some.inj request
    obtain ⟨_, done, counts⟩ := (handover .default _ w run (.turn 0) (by decide +kernel)
      permitted).served 0 0 v _ rfl next asked (by decide +kernel)
    have before : w.held ⟨0, .globalObject⟩ = 2 := by decide +kernel
    have after := counts ⟨0, .globalObject⟩
    rw [if_pos rfl, before] at after
    exact ⟨before, done, Nat.succ.inj after⟩
  | deliver => cases silent
  | _ => cases request

end Membrane.Transfer
