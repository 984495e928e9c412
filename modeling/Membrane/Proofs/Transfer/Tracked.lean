import Membrane.Proofs.Transfer.Origin
/-!
How tokens change: they only move forward. A token that nobody received has the copies that threads
have in hand, nothing becomes of a token before it has a receiver, and nothing became of it as long as
its request is posted.
-/

set_option autoImplicit false

namespace Membrane.Transfer

/-- How far a token is. -/
def stage : TransferState → Nat
  | .created => 0
  | .requested => 1
  | .fulfilled => 2

/-- The token that a move has made. -/
def made? : Except Halt Answer → Option TokenId
  | .ok (.token (.ok t)) => some t
  | _ => none

/-- What a move does to the tokens. -/
inductive Aging (m : Move) (outcome : Except Halt Answer) (w w' : World) : Prop
  | same (tokens : w'.token? = w.token?)
  | copied (i : ThreadId) (t : TokenId) (k : Token) (move : m = .copyToken i t)
      (present : w.token? t = some k)
      (tokens : w'.token? = Function.update w.token? t (some k.copied))
  | dropped (i : ThreadId) (t : TokenId) (k : Token) (move : m = .dropToken i t)
      (present : w.token? t = some k)
      (tokens : w'.token? = Function.update w.token? t (some k.dropped))
  | moved (t : TokenId) (k l : Token) (present : w.token? t = some k) (alike : Alike k l)
      (forward : stage k.state ≤ stage l.state) (claimed : l.state ≠ .created)
      (tokens : w'.token? = Function.update w.token? t (some l))
  | issued (k : Token) (made : made? outcome = some w.tokens.size)
      (created : k.state = .created) (single : k.copies = 1)
      (tokens : w'.token? = Function.update w.token? w.tokens.size (some k))

structure Tracked (past : List Record) (w : World) : Prop where
  ended : ∀ t, Ended t past → receiver? t past ≠ none
  queued : ∀ i t, (i, .serve t) ∈ w.posted → ¬ Ended t past
  met : ∀ r ∈ past, ∀ t, r.Ends t → ∃ k, w.token? t = some k ∧ r.before.source? t = some k.source
  known : ∀ t ∈ (hands past).tokens, ∃ k, w.token? t = some k
  copies : ∀ t k, w.token? t = some k → k.state = .created → (hands past).tokens.count t = k.copies

variable {past : List Record} {w w' u : World} {m : Move} {outcome : Except Halt Answer}

theorem mem_tokens_after (h : Hands) (r : Record) (t : TokenId) (member : t ∈ (h.after r).tokens) :
    t ∈ h.tokens ∨ (∃ i, r.move = .copyToken i t) ∨ made? r.outcome = some t := by
  unfold Hands.after at member
  split at member
  · exact Or.inl member
  · exact Or.inl member
  · next i s move =>
    rcases Multiset.mem_cons.mp member with rfl | old
    · exact Or.inr (Or.inl ⟨i, move⟩)
    · exact Or.inl old
  · exact Or.inl (Multiset.mem_of_mem_erase member)
  · exact Or.inl member
  · exact Or.inl member
  · next s outcome _ _ _ _ =>
    rcases Multiset.mem_cons.mp member with rfl | old
    · rw [outcome]
      exact Or.inr (Or.inr rfl)
    · exact Or.inl old
  · exact Or.inl member

/-- Copies in hand change only by what is done to tokens. -/
theorem tokens_after_of_other (h : Hands) (r : Record)
    (copy : ∀ i t, r.move ≠ .copyToken i t) (drop : ∀ i t, r.move ≠ .dropToken i t)
    (made : made? r.outcome = none) : (h.after r).tokens = h.tokens := by
  unfold Hands.after
  split
  · rfl
  · rfl
  · next i s move => exact absurd move (copy i s)
  · next i s move => exact absurd move (drop i s)
  · rfl
  · rfl
  · next s outcome _ _ _ _ =>
    rw [outcome] at made
    cases made
  · rfl

theorem receiver?_cons_ne_none (t : TokenId) (r : Record) (known : receiver? t past ≠ none) :
    receiver? t (r :: past) ≠ none := by
  obtain ⟨d, receiver⟩ := Option.ne_none_iff_exists'.mp known
  rw [receiver?_cons_of_some t r d receiver]
  exact Option.some_ne_none d

/-- What decides on a token is its request, or the first receive. -/
theorem Record.Ends.cases (t : TokenId) (r : Record) (ends : r.Ends t) :
    ∃ k, r.before.token? t = some k ∧
      ((∃ l, r.move = .turn l ∧ r.before.job? l = some (.serve t)) ∨
        ∃ i c, r.move = .receive i t c ∧
          (k.state = .created ∨ ∃ id, r.outcome = .ok (.receive id))) := by
  obtain ⟨before, m, outcome⟩ := r
  rcases ends with (⟨l, v, k, rfl, next, present, _⟩ | ⟨i, c, id, k, rfl, present, _, done⟩) | lost
  · exact ⟨k, present, Or.inl ⟨l, rfl, before.job?_of_next l _ v next⟩⟩
  · exact ⟨k, present, Or.inr ⟨i, c, rfl, Or.inr ⟨id, done⟩⟩⟩
  · unfold Record.strands? at lost
    dsimp only at lost
    split at lost
    · split at lost
      · next present =>
        split at lost
        · next conditions =>
          cases lost
          exact ⟨_, present, Or.inr ⟨_, _, rfl, Or.inl conditions.1⟩⟩
        · cases lost
      · cases lost
    · split at lost
      · next there =>
        split at lost
        · next present =>
          split at lost
          · cases lost
          · cases lost
            exact ⟨_, present, Or.inl ⟨_, rfl, there⟩⟩
        · cases lost
      · cases lost
    · cases lost

/-- Nothing becomes of a token before it has a receiver. -/
theorem History.ends (history : History past w) (orderly : Orderly w) (t : TokenId)
    (still : u = { w with here := u.here }) (allowed : m.Allowed w)
    (ends : (⟨u, m, outcome⟩ : Record).Ends t) :
    receiver? t (⟨u, m, outcome⟩ :: past) ≠ none := by
  obtain ⟨k, _, ⟨l, rfl, job⟩ | ⟨i, c, rfl, _⟩⟩ := ends.cases
  · obtain ⟨i, owner⟩ := allowed
    refine receiver?_cons_ne_none t _ ?_
    change u.job? l = _ at job
    rw [still, World.job?_running] at job
    obtain ⟨v, next⟩ := w.exists_next l _ job
    obtain ⟨k', _, there, requested, _⟩ := (orderly.next l i owner _ _ next).2.proper
    obtain ⟨q, same⟩ := next_eq l i owner _ _ next
    rw [same] at there
    exact (history.requested_iff t k' there).mp (requested.trans_ne nofun)
  · cases known : receiver? t past with
    | some d =>
      rw [receiver?_cons_of_some t _ d known]
      exact Option.some_ne_none d
    | none =>
      rw [receiver?_receive t i c known, if_pos rfl]
      exact Option.some_ne_none c

theorem tokens_note (w : World) (ref : Guest.Ref) : (w.note ref).tokens = w.tokens := by
  unfold World.note
  split
  · rfl
  · dsimp only
    split <;> rfl

theorem tokens_lost (ref : Guest.Ref) : (w.lost ref).tokens = w.tokens := by
  unfold World.lost
  split
  · rfl
  · split
    · exact tokens_note w ref
    · rfl

theorem token?_of_tokens (same : w'.tokens = w.tokens) : w'.token? = w.token? := by
  funext t
  rw [World.token?, same, World.token?]

theorem token?_next (l : LoopId) (job : Job) (next : w.next? l = some (job, w')) :
    w'.token? = w.token? := by
  simp only [World.next?, Option.bind_eq_some_iff, Option.map_eq_some_iff] at next
  obtain ⟨_, _, _, _, taken⟩ := next
  cases taken
  rfl

theorem token?_dropCopy (t : TokenId) (k : Token) (present : w.token? t = some k) :
    (w.dropCopy t k).token? = Function.update w.token? t (some k.dropped) := by
  have dropped := w.token?_withToken t k k.dropped present
  unfold World.dropCopy
  split
  · rw [token?_of_tokens (tokens_note _ _)]
    exact dropped
  · exact dropped

/-- A request that is taken from its loop is for a token that was received. -/
theorem Orderly.claimed_of_next (orderly : Orderly w) (l : LoopId)
    (allowed : (Move.turn l).Allowed w) (job : Job) (v : World) (next : w.next? l = some (job, v)) (t : TokenId)
    (carried : job.token? = some t) (k : Token) (present : w.token? t = some k) :
    k.state = .requested := by
  obtain ⟨i, owner⟩ := allowed
  have proper := (orderly.next l i owner _ _ next).2.proper
  have tokens := token?_next l job next
  cases job with
  | serve s =>
    obtain ⟨k', _, there, requested, _⟩ := proper
    obtain rfl := Option.some.inj carried
    rw [tokens, present, Option.some.injEq] at there
    rw [there, requested]
  | deliver s r n outcome =>
    obtain ⟨k', _, there, requested, _⟩ := proper
    obtain rfl := Option.some.inj carried
    rw [tokens, present, Option.some.injEq] at there
    rw [there, requested]
  | script | line | poll | fireSleeper | collect | react | settle => cases carried

/-- Letting go of the copy that a request or a delivery has changes no token's stage. -/
theorem aging_dropped (t : TokenId) (k : Token) (present : w.token? t = some k)
    (claimed : k.state ≠ .created) (v : World) (tokens : v.token? = w.token?) :
    Aging m outcome w (v.withToken t k.dropped) := by
  refine .moved t k k.dropped present ⟨rfl, rfl, rfl⟩ (Nat.le_refl _) claimed ?_
  rw [v.token?_withToken t k _ (by rw [tokens]; exact present), tokens]

theorem Step.aging (step : Step w m outcome w') (orderly : Orderly w) (allowed : m.Allowed w) :
    Aging m outcome w w' := by
  have fulfilled : TransferState.fulfilled ≠ .created := nofun
  have requested : TransferState.requested ≠ .created := nofun
  cases step with
  | detach i c x present thread =>
    exact .same (token?_of_tokens (runtime_detached c x).2.2.2.1)
  | drop i ref x present => exact .same (token?_of_tokens (tokens_lost ref))
  | transfer i c ref x y present retained =>
    exact .issued _ rfl rfl rfl (World.token?_issued (w.numbered.withRealm ref.realm y) _)
  | copyToken i t k present =>
    exact .copied i t k rfl present (w.token?_withToken t k _ present)
  | dropToken i t k present => exact .dropped i t k rfl present (token?_dropCopy t k present)
  | receiveLocal i t c k present created here =>
    refine .moved t k k.fulfilled present ⟨rfl, rfl, rfl⟩ ?_ fulfilled
      (w.token?_withToken t k _ present)
    rw [created]
    exact Nat.zero_le _
  | receiveUnavailable i t c k present created apart gone =>
    refine .moved t k k.claimed present ⟨rfl, rfl, rfl⟩ ?_ requested
      (w.token?_withToken t k _ present)
    rw [created]
    exact Nat.zero_le _
  | receiveAsked i t c k present created apart source attached =>
    refine .moved t k k.claimed.copied present ⟨rfl, rfl, rfl⟩ ?_ requested
      (w.token?_withToken t k _ present)
    rw [created]
    exact Nat.zero_le _
  | dropReady i id ref present => exact .same (token?_of_tokens (tokens_lost ref))
  | serveDetached l t v next k present detached =>
    have stage := orderly.claimed_of_next l allowed _ v next t rfl k present
    exact aging_dropped t k present (stage ▸ requested) v (token?_next l _ next)
  | serveUnregistered l t v next k present attached gone =>
    have stage := orderly.claimed_of_next l allowed _ v next t rfl k present
    exact aging_dropped t k present (stage ▸ requested) v (token?_next l _ next)
  | serve l t v next k present attached c waits x source =>
    have stage := orderly.claimed_of_next l allowed _ v next t rfl k present
    have before := token?_next l _ next
    obtain ⟨i, owner⟩ := allowed
    obtain ⟨q, rfl⟩ := next_eq l i owner _ v next
    obtain ⟨y, left, _⟩ :=
      Act.surrender_eq ((w.withQueue l fun _ => q).resumed k.correlation) k.source x source
    rw [left]
    unfold World.forward
    split
    · exact aging_dropped t k present (stage ▸ requested) (World.withReply _ c.reply (·.shut)) before
    · exact .same before
  | deliver l t r n outcome v next k present x destination ch reply =>
    have before := token?_next l _ next
    have change : (v.settled t k r x n ch outcome).token? =
        Function.update w.token? t (some k.fulfilled.dropped) := by
      rw [← before]
      unfold World.settled
      cases outcome with
      | error e =>
        exact World.token?_withToken (v.withReply n (·.answer (.error e))) t k _
          (by rw [← before] at present; exact present)
      | ok value =>
        exact World.token?_withToken ((v.withRealm r (x.retainFor ch value)).withReply n
          (·.answer (.ok (x.retain value).1))) t k _ (by rw [← before] at present; exact present)
    refine .moved t k k.fulfilled.dropped present ⟨rfl, rfl, rfl⟩ ?_ fulfilled change
    cases k.state <;> exact Nat.le_of_ble_eq_true rfl
  | collect l r v next x y present collected =>
    have before := token?_next l _ next
    exact .same before
  | _ => exact .same rfl

/-- A token stays, and moves forward only. -/
theorem Aging.stays (aging : Aging m outcome w w') (t : TokenId) (k : Token)
    (present : w.token? t = some k) :
    ∃ l, w'.token? t = some l ∧ Alike k l ∧ stage k.state ≤ stage l.state := by
  have changed : ∀ (s : TokenId) (k' l : Token), w.token? s = some k' → Alike k' l →
      stage k'.state ≤ stage l.state → w'.token? = Function.update w.token? s (some l) →
      ∃ l, w'.token? t = some l ∧ Alike k l ∧ stage k.state ≤ stage l.state := by
    intro s k' l there alike forward tokens
    rw [tokens]
    exact exists_update (R := fun k l => Alike k l ∧ stage k.state ≤ stage l.state)
      (fun k => ⟨.refl k, Nat.le_refl _⟩) there ⟨alike, forward⟩ present
  cases aging with
  | same tokens => exact ⟨k, by rw [tokens, present], .refl k, Nat.le_refl _⟩
  | copied i s k' move there tokens =>
    exact changed s k' k'.copied there ⟨rfl, rfl, rfl⟩ (Nat.le_refl _) tokens
  | dropped i s k' move there tokens =>
    exact changed s k' k'.dropped there ⟨rfl, rfl, rfl⟩ (Nat.le_refl _) tokens
  | moved s k' l there alike forward claimed tokens =>
    exact changed s k' l there alike forward tokens
  | issued k' made created single tokens =>
    refine ⟨k, ?_, .refl k, Nat.le_refl _⟩
    rw [tokens, update_of_free w.token?_size k' present]

/-- Only a transfer makes a token. -/
theorem Step.not_made (step : Step w m outcome w') (other : ∀ i c ref, m ≠ .transfer i c ref) :
    made? outcome = none := by
  cases step with
  | transfer i c ref => exact absurd rfl (other i c ref)
  | pollWaiting i id n r l there ch reply =>
    rcases seen : Receipt.read r (ch.poll none).1 with halt | answer
    · rfl
    · rfl
  | dropGone i id outcome gone harmless =>
    rcases harmless with rfl | rfl
    · rfl
    · rfl
  | _ => rfl

/-- Threads have the copies in hand that there are. -/
theorem Step.copies (step : Step w m outcome w') (tracked : Tracked past w) (orderly : Orderly w)
    (allowed : m.Allowed w) (permitted : Rule.held past w m) (t : TokenId) (k : Token)
    (present : w'.token? t = some k) (created : k.state = .created) :
    (hands (⟨u, m, outcome⟩ :: past)).tokens.count t = k.copies := by
  have aging := step.aging orderly allowed
  have made := step.not_made
  -- Other moves leave the hands as they were, and the copies of a token that nobody received.
  have others : (∀ i s, m ≠ .copyToken i s) → (∀ i s, m ≠ .dropToken i s) →
      made? outcome = none →
      (hands (⟨u, m, outcome⟩ :: past)).tokens.count t = k.copies := by
    intro copy drop old
    have kept : (hands (⟨u, m, outcome⟩ :: past)).tokens = (hands past).tokens :=
      tokens_after_of_other _ _ copy drop old
    rw [kept]
    cases aging with
    | same tokens => exact tracked.copies t k (by rw [← tokens, present]) created
    | copied i s _ move => exact absurd move (copy i s)
    | dropped i s _ move => exact absurd move (drop i s)
    | moved s k' l there alike forward claimed tokens =>
      rw [tokens] at present
      obtain ⟨-, rfl⟩ | ⟨-, former⟩ := of_update_eq_some present
      · exact absurd created claimed
      · exact tracked.copies t k former created
    | issued k' new =>
      rw [old] at new
      cases new
  cases step with
  | copyToken i s k' there =>
    rw [w.token?_withToken s k' _ there] at present
    show (s ::ₘ (hands past).tokens).count t = k.copies
    rw [Multiset.count_cons]
    obtain ⟨rfl, rfl⟩ | ⟨apart, former⟩ := of_update_eq_some present
    · have before := tracked.copies t k' there created
      rw [if_pos rfl]
      exact congrArg (· + 1) before
    · rw [if_neg apart]
      exact tracked.copies t k former created
  | dropToken i s k' there =>
    rw [token?_dropCopy s k' there] at present
    change ((hands past).tokens.erase s).count t = k.copies
    obtain ⟨rfl, rfl⟩ | ⟨apart, former⟩ := of_update_eq_some present
    · have before := tracked.copies t k' there created
      rw [Multiset.count_erase_self]
      exact congrArg (· - 1) before
    · rw [Multiset.count_erase_of_ne apart]
      exact tracked.copies t k former created
  | transfer i c ref x y there retained =>
    let k' : Token := ⟨ref, x.thread, w.runtime.nextCorrelation, .created, 1⟩
    have tokens : ((w.numbered.withRealm ref.realm y).issued k').token? =
        Function.update w.token? w.tokens.size (some k') := World.token?_issued _ k'
    rw [tokens] at present
    show (w.tokens.size ::ₘ (hands past).tokens).count t = k.copies
    rw [Multiset.count_cons]
    obtain ⟨rfl, rfl⟩ | ⟨apart, former⟩ := of_update_eq_some present
    · have fresh : w.tokens.size ∉ (hands past).tokens := by
        intro member
        obtain ⟨l, known⟩ := tracked.known _ member
        rw [w.token?_size] at known
        cases known
      rw [if_pos rfl, Multiset.count_eq_zero_of_notMem fresh]
    · rw [if_neg apart]
      exact tracked.copies t k former created
  | transferForeign i c ref | transferRefused i c ref =>
    exact others (by intro _ _ same; cases same) (by intro _ _ same; cases same) rfl
  | _ =>
    exact others (by intro _ _ same; cases same) (by intro _ _ same; cases same)
      (made (by intro _ _ _ same; cases same))

/-- Which thread runs does not matter to what serves a token. -/
theorem Record.Serves.still (t : TokenId) (still : u = { w with here := u.here })
    (serves : (⟨u, m, outcome⟩ : Record).Serves t) : (⟨w, m, outcome⟩ : Record).Serves t := by
  rcases serves with ⟨l, v, k, rfl, next, present, attached, done⟩ | serves
  · have running := next?_running u w.here l _ v next
    rw [still] at running present attached
    exact Or.inl ⟨l, _, k, rfl, running, present, attached, done⟩
  · rw [still] at serves
    exact Or.inr serves

theorem Record.strands?_running (i : ThreadId) :
    (⟨{ w with here := i }, m, outcome⟩ : Record).strands? = (⟨w, m, outcome⟩ : Record).strands? := by
  cases m with
  | turn l =>
    unfold Record.strands?
    dsimp only
    rw [World.job?_running]
    rfl
  | _ => rfl

theorem Record.Ends.still (t : TokenId) (still : u = { w with here := u.here })
    (ends : (⟨u, m, outcome⟩ : Record).Ends t) : (⟨w, m, outcome⟩ : Record).Ends t := by
  refine ends.imp (fun serves => serves.still t still) fun lost => ?_
  rw [still, Record.strands?_running] at lost
  exact lost

/-- What a loop comes to whose next job is a request. -/
inductive Serving (w v : World) (t : TokenId) (k : Token) : Except Halt Answer → World → Prop
  | detached (detached : w.runtime.isAttached k.thread = false) :
      Serving w v t k (.ok .done) (v.withToken t k.dropped)
  | unregistered (attached : w.runtime.isAttached k.thread = true)
      (gone : w.runtime.waiting.find? (·.correlation == k.correlation) = none) :
      Serving w v t k (.error (.misuse (.unregisteredContinuation k.correlation)))
        (v.withToken t k.dropped)
  | served (attached : w.runtime.isAttached k.thread = true) (c : Continuation)
      (waits : w.runtime.waiting.find? (·.correlation == k.correlation) = some c) (x : Realm)
      (source : w.realms[k.source.realm]? = some x) :
      Serving w v t k (.ok .done)
        (((v.resumed k.correlation).surrender k.source x).2.forward t k c
          ((v.resumed k.correlation).surrender k.source x).1)

theorem Step.serving (l : LoopId) (step : Step w (.turn l) outcome w') (t : TokenId) (v : World)
    (next : w.next? l = some (.serve t, v)) (k : Token) (present : w.token? t = some k) :
    Serving w v t k outcome w' := by
  cases step with
  | turnIdle l idle => rw [idle] at next; cases next
  | deliver l s r n o v' other => rw [other] at next; cases next
  | collect l r v' other => rw [other] at next; cases next
  | serveDetached l s v' other k' there detached =>
    rw [other] at next
    cases next
    obtain rfl := Option.some.inj (present.symm.trans there)
    exact .detached detached
  | serveUnregistered l s v' other k' there attached gone =>
    rw [other] at next
    cases next
    obtain rfl := Option.some.inj (present.symm.trans there)
    exact .unregistered attached gone
  | serve l s v' other k' there attached c waits x source =>
    rw [other] at next
    cases next
    obtain rfl := Option.some.inj (present.symm.trans there)
    exact .served attached c waits x source

/-- The request that a move takes is not posted any more. -/
theorem Step.ended_once (step : Step w m outcome w') (orderly : Orderly w) (allowed : m.Allowed w)
    (i : ThreadId) (t : TokenId) (posted : (i, .serve t) ∈ w'.posted) :
    ¬ (⟨w, m, outcome⟩ : Record).Ends t := by
  intro ends
  obtain ⟨k, present, ⟨l, rfl, job⟩ | ⟨j, c, rfl, first⟩⟩ := ends.cases
  · obtain ⟨v, next⟩ := w.exists_next l _ job
    obtain ⟨j, owner⟩ := allowed
    obtain ⟨orderly', taken⟩ := orderly.next l j owner _ v next
    obtain ⟨q, rfl⟩ := next_eq l j owner _ v next
    cases step.serving l t _ next k present with
    | detached | unregistered => exact taken.alone t rfl _ posted rfl
    | served attached c waits x source =>
      let resumed := (w.withQueue l fun _ => q).resumed k.correlation
      have given : Orderly (resumed.surrender k.source x).2 :=
        (orderly'.resumed k.correlation).surrender k.source x source
      obtain ⟨y, left, _⟩ := Act.surrender_eq resumed k.source x source
      rw [left] at given posted
      have rest := (unspoken_forward given t k present c _).posted i t posted
      exact taken.alone t rfl _ rest rfl
  · change w.token? t = some k at present
    have idle : ∀ k', w.token? t = some k' → k'.state = .created → (i, .serve t) ∉ w.posted := by
      intro k' there created member
      have claimed : k'.state ≠ .requested := created.trans_ne nofun
      exact (orderly.idle_of_unclaimed t k' there claimed).2 _ member rfl
    cases step with
    | receiveAgain j t c k' there claimed =>
      rcases first with created | ⟨id, done⟩
      · rw [present, Option.some.injEq] at there
        exact claimed (there ▸ created)
      · cases done
    | receiveLocal j t c k' there created here => exact idle k' there created posted
    | receiveUnavailable j t c k' there created apart gone => exact idle k' there created posted
    | receiveAsked j t c k' there created apart source attached =>
      have gone : ¬ (⟨w, .receive j t c, .ok (.receive w.receives.size)⟩ : Record).Ends t := by
        rintro ((⟨_, _, _, other, _⟩ | ⟨_, _, _, l, move, before, near, _⟩) | lost)
        · cases other
        · cases move
          rw [there, Option.some.injEq] at before
          exact apart (before ▸ near)
        · have stays : w.runtime.isAttached k'.thread = true := by
            rw [Runtime.isAttached, attached, Option.isSome_some]
          simp only [Record.strands?, there, stays, Bool.true_eq_false, and_false, ↓reduceIte,
            reduceCtorEq] at lost
      exact gone ends

/-- A request that is posted is new or was posted before, and so is a thread that is attached. -/
theorem Step.newcomers (step : Step w m outcome w') (orderly : Orderly w)
    (history : History past w) (allowed : m.Allowed w) :
    (∀ i t, (i, .serve t) ∈ w'.posted → (i, .serve t) ∈ w.posted ∨ receiver? t past = none) ∧
      ∀ a ∈ w'.runtime.attached, a ∈ w.runtime.attached ∨ a.thread.val.toNat = w.realms.size := by
  by_cases stays : ∀ i c, m ≠ .detach i c
  · by_cases again : ∀ i t c k, m = .receive i t c → w.token? t = some k → k.state ≠ .created
    · have change := step.unspoken orderly allowed stays again
      exact ⟨fun i t posted => Or.inl (change.posted i t posted), change.attached⟩
    cases step with
    | receiveAsked j s c k present created apart source attached =>
      obtain ⟨_, posts⟩ := posted_asked orderly s k present c source attached
      refine ⟨fun i t posted => ?_, fun a member => Or.inl member⟩
      rcases List.mem_cons.mp (posts.mem_iff.mp posted) with new | old
      · cases new
        exact Or.inr ((history.unclaimed s k present).mp created)
      · exact Or.inl old
    | receiveAgain | receiveLocal | receiveUnavailable =>
      exact ⟨fun i t posted => Or.inl posted, fun a member => Or.inl member⟩
    | _ => exact absurd (fun i t c k same => by cases same) again
  · cases step with
    | detach j c x present thread =>
      obtain ⟨_, _, _, _, loops⟩ := runtime_detached (w := w) c x
      refine ⟨fun i t posted => ?_, fun a member => ?_⟩
      · rw [World.posted, loops] at posted
        exact Or.inl posted
      · exact Or.inl ((mem_attached_detached c x a).mp member).1
    | _ => exact absurd (fun i c same => by cases same) stays

/-- What is known of tokens stays so. -/
theorem Step.tracked (step : Step w m outcome w') (tracked : Tracked past w) (orderly : Orderly w)
    (history : History past w) (allowed : m.Allowed w) (permitted : Rule.held past w m)
    (still : u = { w with here := u.here }) : Tracked (⟨u, m, outcome⟩ :: past) w' := by
  have aging := step.aging orderly allowed
  refine
    { ended := ?_
      queued := ?_
      met := ?_
      known := fun t member => ?_
      copies := step.copies tracked orderly allowed permitted }
  · rintro t ⟨r, member, ends⟩
    rcases List.mem_cons.mp member with rfl | old
    · exact history.ends orderly t still allowed ends
    · exact receiver?_cons_ne_none t _ (tracked.ended t ⟨r, old, ends⟩)
  · rintro i t posted ⟨r, member, ends⟩
    rcases List.mem_cons.mp member with rfl | old
    · exact step.ended_once orderly allowed i t posted (ends.still t still)
    · rcases (step.newcomers orderly history allowed).1 i t posted with former | unclaimed
      · exact tracked.queued i t former ⟨r, old, ends⟩
      · exact tracked.ended t ⟨r, old, ends⟩ unclaimed
  · rintro r member t ends
    obtain ⟨l, former, source⟩ : ∃ l, w.token? t = some l ∧ r.before.source? t = some l.source := by
      rcases List.mem_cons.mp member with rfl | old
      · obtain ⟨k, present, _⟩ := ends.cases
        have there : w.token? t = some k := by
          change u.token? t = some k at present
          rw [still] at present
          exact present
        exact ⟨k, there, u.source?_of_present t k present⟩
      · exact tracked.met r old t ends
    obtain ⟨k, now, alike, _⟩ := aging.stays t l former
    exact ⟨k, now, source.trans (congrArg some alike.source.symm)⟩
  · have kept : (∃ k, w.token? t = some k) → ∃ k, w'.token? t = some k := fun ⟨k, present⟩ =>
      (aging.stays t k present).imp fun _ now => now.1
    rcases mem_tokens_after _ _ t member with old | ⟨i, rfl⟩ | made
    · exact kept (tracked.known t old)
    · exact kept (tracked.known t permitted)
    · have other := step.not_made
      cases step with
      | transfer i c ref x y present retained =>
        cases made
        exact ⟨_, (congrFun (World.token?_issued (w.numbered.withRealm ref.realm y) _) _).trans
          (Function.update_self ..)⟩
      | transferForeign | transferRefused => cases made
      | _ =>
        rw [other (by intro _ _ _ same; cases same)] at made
        cases made

theorem Tracked.running (tracked : Tracked past w) (i : ThreadId) :
    Tracked past { w with here := i } :=
  { tracked with }

/-- Which thread runs does not matter to who may do what. -/
theorem owned_running (i : ThreadId) (permitted : Rule.owned past w m) :
    Rule.owned past { w with here := i } m := by
  cases m with
  | turn l =>
    intro t r n v u x next
    exact permitted t r n v _ x (next?_running { w with here := i } w.here l _ u next)
  | _ => exact permitted

theorem held_running (i : ThreadId) (permitted : Rule.held past w m) :
    Rule.held past { w with here := i } m := by
  cases m with
  | turn l =>
    have owned : Rule.owned past w (.turn l) := permitted
    exact owned_running i owned
  | _ => exact permitted

theorem Run.tracked {config : Config} (run : Run config .held past w) : Tracked past w := by
  induction run with
  | start =>
    refine ⟨fun t ⟨r, member, _⟩ => absurd member List.not_mem_nil,
      fun i t member => absurd member List.not_mem_nil,
      fun r member => absurd member List.not_mem_nil,
      fun t member => absurd member (Multiset.notMem_zero t), fun t k there => ?_⟩
    have noToken : (World.create config).token? t = none := rfl
    rw [noToken] at there
    cases there
  | step m run allowed permitted ih =>
    have orderly := run.orderly
    have step := m.step orderly allowed
    rw [m.perform_eq] at step ⊢
    exact (step.tracked (ih.running _) (orderly.running _) (run.history.running _) allowed
      (held_running _ permitted) rfl).running _

end Membrane.Transfer
