import Membrane.Proofs.Transfer.Dealings
/-!
Every fair move is honest. For what threads do that is known; here it is shown for the turns that loops
take, and then for all runs.
-/

set_option autoImplicit false

namespace Membrane.Transfer

variable {past past' : List Record} {w w' u v : World} {m : Move} {o : Except Halt Answer}
  {t : TokenId}

/-- A turn that is not for a request decides on no token. -/
theorem books_turn (l : LoopId) (permitted : Rule.held past w (.turn l))
    (still : u = { w with here := u.here }) (other : ∀ t, w.job? l ≠ some (.serve t)) :
    books (⟨u, .turn l, .ok .done⟩ :: past) w = books past w := by
  have spared : ∀ t, ¬ (⟨w, .turn l, .ok .done⟩ : Record).Ends t := by
    intro t ends
    obtain ⟨_, _, ⟨_, move, job⟩ | ⟨_, _, move, _⟩⟩ := ends.cases
    · cases move
      exact other t job
    · cases move
  have spares : (⟨w, .turn l, .ok .done⟩ : Record).strands? = none :=
    Option.eq_none_iff_forall_ne_some.mpr fun t lost => spared t (Or.inr lost)
  have loses : (⟨u, .turn l, .ok .done⟩ : Record).loses? = none := by
    rw [Record.loses?_still still]
    show ((⟨w, .turn l, .ok .done⟩ : Record).strands?.bind _).map _ = none
    rw [spares]
    rfl
  have same := books_spared (u := u) (o := .ok .done) permitted (by rw [still])
    (by intro _ _ other; cases other) (by intro _ made; cases made)
    fun t ends => spared t (ends.still t still)
  rw [same, losses_of_none _ loses]
  rfl

theorem rests_forward (t : TokenId) (k : Token) (present : w.token? t = some k) (c : Continuation)
    (ch : Channel (Except Fault Handle)) (reply : w.reply? c.reply = some ch)
    (outcome : Except Fault Host.Value) : Rests w (w.forward t k c outcome) := by
  unfold World.forward
  split
  · have shut := rests_withReply c.reply ch reply (·.shut) (by
      cases waits : ch.isWaiting with
      | false => rw [ch.shut_of_not_waiting waits]
      | true =>
        obtain ⟨state, waiter⟩ := ch
        cases state with
        | waiting => rfl
        | _ => cases waits)
    exact shut.trans _ (rests_withToken t k k.dropped present rfl)
  · exact rests_of_same rfl rfl rfl rfl

/-- A request that is taken from its loop is for a token that still has its reference. -/
theorem Tracked.owing (tracked : Tracked past w) (orderly : Orderly w) (history : History past w)
    (l : LoopId) (i : ThreadId) (owner : w.owner? l = some i) (t : TokenId)
    (next : w.next? l = some (.serve t, v)) (k : Token) (present : w.token? t = some k) :
    Owing t past := by
  have posted := (w.posted_next l i owner _ v next).1.mem_iff.mpr List.mem_cons_self
  have requested := orderly.claimed_of_next l ⟨i, owner⟩ _ v next t rfl k present
  have received := (history.requested_iff t k present).mp (requested.trans_ne nofun)
  exact ⟨tracked.queued i t posted, Or.inl received⟩

theorem surrender_of_release (w : World) (ref : Guest.Ref) (x : Realm) (t : RefTable)
    (done : x.table.release ref.handle = .ok t) (value : Host.Value)
    (stands : x.table.get ref.handle = .ok value) :
    w.surrender ref x = (.ok value, w.withRealm ref.realm { x with table := t }) := by
  simp only [World.surrender, stands, Realm.release, done, Except.map]

/-- What a table gains and loses is told by the tables alone. -/
theorem Shift.tables {gain loss : Multiset Guest.Ref} (shift : Shift gain loss w v)
    (same : w'.table? = v.table?) : Shift gain loss w w' := by
  refine ⟨fun r t there => shift.sound r t (same ▸ there), fun ref => ?_, fun ref live last => ?_⟩
  · have counts := shift.counts ref
    rw [World.held, rooted, World.held, rooted] at counts ⊢
    rw [same]
    exact counts
  · rw [World.held, same] at last
    rw [World.value?, same]
    exact shift.steady ref live last

/-- A request that is served gives back the reference of its token, and no other. -/
theorem Account.shift_served (account : Account past w) (l : LoopId) (i : ThreadId)
    (owner : w.owner? l = some i) (t : TokenId) (next : w.next? l = some (.serve t, v)) (k : Token)
    (present : w.token? t = some k) (owing : Owing t past) (c : Continuation) (x : Realm)
    (source : w.realms[k.source.realm]? = some x) (ch : Channel (Except Fault Handle))
    (reply : w.reply? c.reply = some ch) :
    Shift 0 {k.source} w (((v.resumed k.correlation).surrender k.source x).2.forward t k c
      ((v.resumed k.correlation).surrender k.source x).1) ∧
    Rests w (((v.resumed k.correlation).surrender k.source x).2.forward t k c
      ((v.resumed k.correlation).surrender k.source x).1) ∧
    rooted (((v.resumed k.correlation).surrender k.source x).2.forward t k c
      ((v.resumed k.correlation).surrender k.source x).1) = rooted w := by
  have holds := times_of_owing owing k present
  have live := account.spare (.debtor (.token t), k.source) holds
  obtain ⟨value, stands⟩ := account.stands k.source (Nat.zero_lt_of_lt live)
  rw [World.value?, table?_of_present _ x source, Option.bind_some,
    ← RefTable.get_eq_ok_iff] at stands
  obtain ⟨t', done, shift⟩ := account.shift_release (.debtor (.token t), k.source) holds x source
  obtain ⟨q, rfl⟩ := next_eq l i owner _ v next
  let resumed := (w.withQueue l fun _ => q).resumed k.correlation
  rw [surrender_of_release resumed k.source x t' done value stands]
  let given := resumed.withRealm k.source.realm { x with table := t' }
  have taking : Rests w resumed := rests_of_same rfl rfl rfl rfl
  have housed : Rests w given :=
    taking.trans _ (rests_withRealm k.source.realm x { x with table := t' } source rfl)
  have realms : (given.forward t k c (.ok value)).realms = given.realms := by
    unfold World.forward
    split <;> rfl
  have tables : (given.forward t k c (.ok value)).table? =
      (w.withRealm k.source.realm { x with table := t' }).table? := by
    funext r
    rw [World.table?, realms]
    rfl
  refine ⟨shift.tables tables,
    housed.trans _ (rests_forward (w := given) t k present c ch reply _), ?_⟩
  rw [← rooted_withRealm k.source.realm x { x with table := t' } source]
  funext ref
  rw [rooted, rooted, tables]

theorem Account.counts_served (account : Account past w) (orderly : Orderly w) (l : LoopId)
    (i : ThreadId) (owner : w.owner? l = some i) (t : TokenId) (next : w.next? l = some (.serve t, v))
    (k : Token) (present : w.token? t = some k) (owing : Owing t past) (c : Continuation)
    (waits : w.runtime.waiting.find? (·.correlation == k.correlation) = some c) (x : Realm)
    (source : w.realms[k.source.realm]? = some x) (ref : Guest.Ref) :
    (((v.resumed k.correlation).surrender k.source x).2.forward t k c
      ((v.resumed k.correlation).surrender k.source x).1).held ref +
        (if ref = k.source then 1 else 0) = w.held ref := by
  obtain ⟨ch, reply, _⟩ := orderly.waiting_reply c (List.mem_of_find?_eq_some waits)
  obtain ⟨shift, _, roots⟩ :=
    account.shift_served l i owner t next k present owing c x source ch reply
  have counts := shift.counts ref
  rw [roots, Multiset.count_zero, Multiset.count_singleton] at counts
  omega

/-- The source of a request that is served gives up the reference of its token. -/
theorem Account.served (account : Account past w) (tracked : Tracked past w) (orderly : Orderly w)
    (history : History past w) (l : LoopId) (i : ThreadId) (owner : w.owner? l = some i)
    (t : TokenId) (next : w.next? l = some (.serve t, v)) (k : Token)
    (present : w.token? t = some k) (attached : w.runtime.isAttached k.thread = true)
    (c : Continuation)
    (waits : w.runtime.waiting.find? (·.correlation == k.correlation) = some c) (x : Realm)
    (source : w.realms[k.source.realm]? = some x) (permitted : Rule.held past w (.turn l))
    (still : u = { w with here := u.here }) :
    Honest past (⟨u, .turn l, .ok .done⟩ :: past) w
      (((v.resumed k.correlation).surrender k.source x).2.forward t k c
        ((v.resumed k.correlation).surrender k.source x).1) := by
  have owing := tracked.owing orderly history l i owner t next k present
  obtain ⟨ch, reply, _⟩ := orderly.waiting_reply c (List.mem_of_find?_eq_some waits)
  obtain ⟨shift, rests, _⟩ :=
    account.shift_served l i owner t next k present owing c x source ch reply
  have serves : (⟨u, .turn l, .ok .done⟩ : Record).Serves t := by
    rw [still]
    exact Or.inl ⟨l, _, k, rfl, next?_running w u.here l _ v next, present, attached, rfl⟩
  have spares : (⟨w, .turn l, .ok .done⟩ : Record).loses? = none := by
    simp only [Record.loses?, Record.strands?, w.job?_of_next l _ v next, present, attached, waits,
      Option.isSome_some, and_self, ↓reduceIte, Option.bind_none, Option.map_none]
  refine account.take (.debtor (.token t), k.source) (times_of_owing owing k present) shift ?_
  rw [rests.books, books_of_ends permitted (by rw [still]) rfl (Or.inl serves) k.source,
    losses_of_none _ ((Record.loses?_still still).trans spares)]
  rfl

theorem rests_next (l : LoopId) (i : ThreadId) (owner : w.owner? l = some i) (job : Job)
    (next : w.next? l = some (job, v)) : Rests w v := by
  obtain ⟨q, rfl⟩ := next_eq l i owner job v next
  exact rests_of_same rfl rfl rfl rfl

/-- A request whose answer nobody sends. -/
theorem Account.unserved (account : Account past w) (tracked : Tracked past w) (orderly : Orderly w)
    (history : History past w) (l : LoopId) (i : ThreadId) (owner : w.owner? l = some i)
    (t : TokenId) (next : w.next? l = some (.serve t, v)) (k : Token)
    (present : w.token? t = some k) (permitted : Rule.held past w (.turn l))
    (still : u = { w with here := u.here }) (unanswered : ¬ (w.runtime.isAttached k.thread = true ∧
      (w.runtime.waiting.find? (·.correlation == k.correlation)).isSome = true))
    (old : made? o = none) (hand : (hands (⟨u, .turn l, o⟩ :: past)).refs = (hands past).refs) :
    Honest past (⟨u, .turn l, o⟩ :: past) w (v.withToken t k.dropped) := by
  have owing := tracked.owing orderly history l i owner t next k present
  have strands : (⟨w, .turn l, o⟩ : Record).strands? = some t :=
    strands?_of_unanswered l (w.job?_of_next l _ v next) k present unanswered
  have taking := rests_next l i owner _ next
  obtain ⟨q, rfl⟩ := next_eq l i owner _ v next
  exact account.stranded permitted still k present owing strands old hand rfl
    (taking.trans _ (rests_withToken t k _ present rfl))

/-- Only a receiver that waits gets anything. -/
theorem rests_answer (n : ReplyId) (ch : Channel (Except Fault Handle))
    (present : w.reply? n = some ch) (a : Except Fault Handle)
    (refused : ch.isWaiting = false ∨ ∃ e, a = .error e) : Rests w (w.withReply n (·.answer a)) := by
  refine rests_withReply n ch present (·.answer a) ?_
  cases waits : ch.isWaiting with
  | false => rw [ch.answer_of_not_waiting a waits]
  | true =>
    rcases refused with done | ⟨e, rfl⟩
    · rw [done] at waits
      cases waits
    · rw [Channel.answer, if_pos waits]
      obtain ⟨state, waiter⟩ := ch
      cases state with
      | waiting => rfl
      | _ => cases waits

/-- What a value becomes that is retained for a receiver stands for that value. -/
theorem Account.rehomed (account : Account past w) (q : EventLoop Job) (l : LoopId) (t : TokenId)
    (c : Context) (id : ReceiveId) (n : ReplyId) (value : Host.Value) (k : Token) (x : Realm)
    (destination : w.realms[c.realm]? = some x) (ch : Channel (Except Fault Handle))
    (waits : ch.isWaiting = true) (fits : (RefTable.Call.retain value).Fits x.table)
    (made : asker? n past = some (t, c, id)) (served : ServedAs t value past) (r : Record) :
    Rehomed (r :: past) ((w.withQueue l fun _ => q).settled t k c.realm x n ch (.ok value)) t c id
      ⟨c.realm, (x.retain value).1⟩ := by
  have retained := x.retainFor_eq ch value
  rw [if_pos waits] at retained
  obtain ⟨record, member, rest⟩ := exists_receive n t c id made
  obtain ⟨g, sound⟩ := account.sound c.realm x.table (table?_of_present c.realm x destination)
  obtain ⟨identity, stands, key⟩ := (sound.value?_retain_within value fits).1
  refine ⟨⟨record, List.mem_cons_of_mem _ member, rest⟩, rfl, value, identity,
    served.cons t value r, ?_, key⟩
  show World.value? (w.withRealm c.realm (x.retainFor ch value)) ⟨c.realm, _⟩ = _
  rw [World.value?, table?_withRealm c.realm x _ destination, Function.update_self,
    Option.bind_some, retained]
  exact stands

/-- A reply that comes to a receiver that waits owes its reference. -/
theorem books_answer (past : List Record) (n : ReplyId) (t : TokenId) (c : Context) (id : ReceiveId)
    (made : asker? n past = some (t, c, id)) (ch : Channel (Except Fault Handle))
    (reply : w.reply? n = some ch) (waits : ch.isWaiting = true) (h : Handle) :
    books past (w.withReply n (·.answer (.ok h))) =
      (books past w).put (.debtor (.reply n), ⟨c.realm, h⟩) := by
  have sent : sentOn (some (ch.answer (.ok h))) = some h := by
    rw [Channel.answer, if_pos waits]
    rfl
  show Books.mk _ _ (books past (w.withReply n (·.answer (.ok h)))).owes _ = _
  rw [owes_withReply past n ch reply, sent, made]
  rfl

/-- A value that is delivered is retained for a receiver that waits, and for nobody else. -/
theorem Account.shift_settled (account : Account past w) (q : EventLoop Job) (l : LoopId)
    (t : TokenId) (k : Token) (r : RealmId) (x : Realm) (destination : w.realms[r]? = some x)
    (n : ReplyId) (ch : Channel (Except Fault Handle)) (value : Host.Value)
    (fits : (RefTable.Call.retain value).Fits x.table) :
    Shift (if ch.isWaiting then {⟨r, (x.retain value).1⟩} else 0) 0 w
      ((w.withQueue l fun _ => q).settled t k r x n ch (.ok value)) := by
  have retained := x.retainFor_eq ch value
  cases waits : ch.isWaiting with
  | true =>
    rw [if_pos waits] at retained
    have shift := account.shift_realm r x (x.retainFor ch value) destination {(x.retain value).1} 0
      fun g sound => by
        rw [retained]
        exact sound.shift_retain value fits
    exact shift.tables rfl
  | false =>
    rw [if_neg (by rw [waits]; exact Bool.false_ne_true)] at retained
    have shift := account.shift_realm r x (x.retainFor ch value) destination 0 0 fun g sound => by
      rw [retained]
      exact sound.shift_retainFor value fits
    exact shift.tables rfl

/-- A value that is delivered to a receiver that waits becomes a reference of the receiver. -/
theorem Account.delivered_waiting (account : Account past w) (q : EventLoop Job) (l : LoopId)
    (t : TokenId) (c : Context) (id : ReceiveId) (n : ReplyId) (value : Host.Value) (k : Token)
    (present : w.token? t = some k) (x : Realm) (destination : w.realms[c.realm]? = some x)
    (ch : Channel (Except Fault Handle)) (reply : w.reply? n = some ch) (waits : ch.isWaiting = true)
    (fits : (RefTable.Call.retain value).Fits x.table) (made : asker? n past = some (t, c, id))
    (served : ServedAs t value past) (replies : u.replies = w.replies)
    (before : books (⟨u, .turn l, .ok .done⟩ :: past) w = books past w) :
    Honest past (⟨u, .turn l, .ok .done⟩ :: past) w
      ((w.withQueue l fun _ => q).settled t k c.realm x n ch (.ok value)) := by
  have retained := x.retainFor_eq ch value
  rw [if_pos waits] at retained
  let h := (x.retain value).1
  let housed := (w.withQueue l fun _ => q).withRealm c.realm (x.retainFor ch value)
  have taking : Rests w (w.withQueue l fun _ => q) := rests_of_same rfl rfl rfl rfl
  have housing : Rests w housed :=
    taking.trans _ (rests_withRealm c.realm x _ destination (by rw [retained]))
  have spent := rests_withToken (w := housed.withReply n (·.answer (.ok h))) t k
    k.fulfilled.dropped present rfl
  have shift := account.shift_settled q l t k c.realm x destination n ch value fits
  rw [if_pos waits] at shift
  have asked : asker? n (⟨u, .turn l, .ok .done⟩ :: past) = some (t, c, id) :=
    asker?_kept n _ ch reply made _ replies
  refine account.put (.debtor (.reply n), ⟨c.realm, h⟩) shift ?_ ?_ ?_
  · refine (spent.books _).trans ?_
    rw [books_answer (w := housed) _ n t c id asked ch reply waits h, housing.books, before]
  · rintro d ref same
    cases same
    refine Option.eq_none_iff_forall_ne_some.mpr fun ref owes => ?_
    obtain ⟨_, _, _, h', _, sent, _⟩ := (owes_reply_iff past w n ref).mp owes
    rw [World.sent?, reply] at sent
    obtain ⟨state, waiter⟩ := ch
    cases state with
    | waiting => cases sent
    | _ => cases waits
  · rintro d ref same
    cases same
    exact ⟨t, c, id, asked,
      account.rehomed q l t c id n value k x destination ch waits fits made served _⟩

/-- A value that is delivered is a reference of the receiver, or it leaves no trace. -/
theorem Account.delivered (account : Account past w) (linked : Linked past w) (l : LoopId)
    (i : ThreadId) (owner : w.owner? l = some i) (t : TokenId) (r : RealmId) (n : ReplyId)
    (outcome : Except Fault Host.Value) (next : w.next? l = some (.deliver t r n outcome, v))
    (k : Token) (present : w.token? t = some k) (x : Realm) (destination : w.realms[r]? = some x)
    (ch : Channel (Except Fault Handle)) (reply : w.reply? n = some ch)
    (permitted : Rule.held past w (.turn l)) (still : u = { w with here := u.here }) :
    Honest past (⟨u, .turn l, .ok .done⟩ :: past) w (v.settled t k r x n ch outcome) := by
  have before := books_turn l permitted still fun s job => by
    rw [w.job?_of_next l _ v next] at job
    cases job
  have taking := rests_next l i owner _ next
  have posted := (w.posted_next l i owner _ v next).1.mem_iff.mpr List.mem_cons_self
  cases outcome with
  | error e =>
    obtain ⟨q, rfl⟩ := next_eq l i owner _ v next
    have answered := rests_answer (w := w.withQueue l fun _ => q) n ch reply (.error e)
      (Or.inr ⟨e, rfl⟩)
    have spent := rests_withToken (w := (w.withQueue l fun _ => q).withReply n (·.answer (.error e)))
      t k k.fulfilled.dropped present rfl
    exact account.rest rfl ((taking.trans _ answered).trans _ spent) before
  | ok value =>
    have fits := permitted t r n value v x next destination
    obtain ⟨⟨c, id, made, rfl⟩, served⟩ := linked.delivers i t r n value posted
    obtain ⟨q, rfl⟩ := next_eq l i owner _ v next
    cases waits : ch.isWaiting with
    | true =>
      exact account.delivered_waiting q l t c id n value k present x destination ch reply waits fits
        made served (by rw [still]) before
    | false =>
      have retained := x.retainFor_eq ch value
      rw [if_neg (by rw [waits]; exact Bool.false_ne_true)] at retained
      let housed := (w.withQueue l fun _ => q).withRealm c.realm (x.retainFor ch value)
      have housing : Rests (w.withQueue l fun _ => q) housed :=
        rests_withRealm c.realm x _ destination (by rw [retained])
      have answered := rests_answer (w := housed) n ch reply (.ok (x.retain value).1) (Or.inl waits)
      have spent := rests_withToken
        (w := housed.withReply n (·.answer (.ok (x.retain value).1))) t k k.fulfilled.dropped
        present rfl
      have shift := account.shift_settled q l t k c.realm x destination n ch value fits
      rw [waits, if_neg Bool.false_ne_true] at shift
      have rests := ((taking.trans _ housing).trans _ answered).trans _ spent
      exact account.same shift ((rests.books _).trans before)

/-- A collection gives back what was noted, and nothing that somebody else holds. -/
theorem Account.shift_collected (account : Account past w) (r : RealmId) (x : Realm)
    (present : w.realms[r]? = some x) :
    Shift 0 ((noted w r).map (Guest.Ref.mk r)) w (w.withRealm r x.collect.2) := by
  rw [noted_of_present r x present]
  refine account.shift_realm r x x.collect.2 present 0 x.finalizers fun g sound => ?_
  rw [x.collect_eq]
  refine sound.shift_releaseAll x.finalizers x.table fun h => ?_
  have paid := account.noted_paid r h
  change (noted w r).count h + _ ≤ _ at paid
  rw [noted_of_present r x present, Multiset.coe_count] at paid
  simpa only [rooted, World.held, table?_of_present r x present, Option.isSome_some,
    ↓reduceIte, Option.map_some, Option.getD_some] using paid

theorem Account.collected (account : Account past w) (l : LoopId) (i : ThreadId)
    (owner : w.owner? l = some i) (r : RealmId) (next : w.next? l = some (.collect r, v))
    (x y : Realm) (present : w.realms[r]? = some x) (collected : y = x ∨ y = x.collect.2)
    (permitted : Rule.held past w (.turn l)) (still : u = { w with here := u.here }) :
    Honest past (⟨u, .turn l, .ok .done⟩ :: past) w (v.withRealm r y) := by
  have before := books_turn l permitted still fun s job => by
    rw [w.job?_of_next l _ v next] at job
    cases job
  have taking := rests_next l i owner _ next
  obtain ⟨q, rfl⟩ := next_eq l i owner _ v next
  rcases collected with rfl | rfl
  · have housing := rests_withRealm (w := w.withQueue l fun _ => q) r y y present rfl
    have shift := account.shift_realm r y y present 0 0 fun _ sound => sound.shift_refl
    exact account.same (shift.tables rfl) (((taking.trans _ housing).books _).trans before)
  · refine account.clear r ((account.shift_collected r x present).tables rfl) ?_
    have cleared := noted_collected (w := w.withQueue l fun _ => q) r x present
    rw [taking.noted] at cleared
    rw [← before]
    show Books.mk _ (noted ((w.withQueue l fun _ => q).withRealm r x.collect.2)) _ _ = _
    rw [cleared]
    rfl

/-- Whatever a fair move comes to, it is honest. -/
theorem Step.honest (step : Step w m o w') (account : Account past w)
    (tracked : Tracked past w) (linked : Linked past w) (orderly : Orderly w)
    (history : History past w) (allowed : m.Allowed w) (permitted : Rule.held past w m)
    (still : u = { w with here := u.here }) : Honest past (⟨u, m, o⟩ :: past) w w' := by
  have replies : u.replies = w.replies := by rw [still]
  -- Where neither tables nor what is owed change, the books are as they were.
  have rest : w'.table? = w.table? → Rests w w' → m.isPlain = true → made? o = none →
      (hands (⟨u, m, o⟩ :: past)).refs = (hands past).refs →
      (⟨w, m, o⟩ : Record).loses? = none → Honest past (⟨u, m, o⟩ :: past) w w' :=
    fun tables rests plain old hand spares =>
      account.rest tables rests (books_untouched permitted still plain old hand spares)
  have same : Rests w w := rests_of_same rfl rfl rfl rfl
  cases step with
  | makeLoop i clock => exact rest rfl (rests_of_same rfl rfl rfl rfl) rfl rfl rfl rfl
  | attachFull i l => exact rest rfl same rfl rfl rfl rfl
  | attach i l heap globalObject e executors registry current owner few listed =>
    let staffed := w.staffed heap executors registry current
    have hired : Rests w staffed := rests_of_same rfl rfl rfl rfl
    have shift := shift_joined (w := staffed) account.sound _ _ (w.newRealm l globalObject) rfl l
    have rests := hired.trans _ (rests_joined (w.newRealm l globalObject) rfl l)
    exact account.same ⟨shift.sound, shift.counts, shift.steady⟩
      ((rests.books _).trans (books_untouched permitted still rfl rfl rfl rfl))
  | detach i c x present thread =>
    refine rest ?_ (rests_detached c x) rfl rfl rfl rfl
    funext r
    rw [World.table?, (runtime_detached c x).2.2.1, World.table?]
  | retain i r v x present => exact account.retained i r v x present permitted replies
  | copy i ref x y present retained =>
    exact account.copied i ref x y present retained permitted replies
  | copyRefused i ref x e present refused => exact rest rfl same rfl rfl rfl rfl
  | release i ref x y present released =>
    exact account.released i ref x y present released permitted replies
  | releaseRefused i ref x e present refused =>
    exact absurd refused (account.not_refused i ref x e present permitted)
  | drop i ref x present => exact account.dropped i ref x present permitted still
  | transferForeign i c ref => exact rest rfl same rfl rfl rfl rfl
  | transfer i c ref x y present retained =>
    exact account.transferred tracked i c ref x y present retained permitted replies _ rfl
  | transferRefused i c ref x e present refused =>
    exact rest rfl (rests_of_same rfl rfl rfl rfl) rfl rfl rfl rfl
  | copyToken i t k present =>
    exact rest rfl (rests_withToken t k k.copied present rfl) rfl rfl rfl rfl
  | dropToken i t k present =>
    exact account.droppedToken tracked orderly history i t k present permitted replies
  | receiveAgain i t c k present claimed =>
    exact account.rest rfl same
      (books_receive permitted still rfl rfl (not_ends_of_again k present claimed _))
  | receiveLocal i t c k present created here =>
    exact account.receivedLocal tracked orderly history i t c k present created here allowed.1
      permitted still
  | receiveUnavailable i t c k present created apart gone =>
    have owing := tracked.owing_of_created history k present created permitted
    have detached : w.runtime.isAttached k.thread = false := by
      rw [Runtime.isAttached, gone, Option.isSome_none]
    exact account.stranded permitted still k present owing
      (strands?_of_unavailable k present created apart detached) rfl rfl rfl
      ((rests_withToken t k k.claimed present rfl).trans _ (rests_receiving _ rfl))
  | receiveAsked i t c k present created apart source attached =>
    exact account.rest rfl (rests_asked t k present c source)
      (books_receive permitted still rfl rfl (not_ends_of_asked k present apart source attached))
  | pollReady i id answer present => exact account.polledReady i id answer present permitted still
  | pollWaiting i id n r l present ch reply =>
    exact account.polledWaiting linked i id n r l present ch reply permitted still
  | pollGone i id gone => exact rest rfl same rfl rfl rfl rfl
  | dropRead i id answer present empty =>
    exact account.droppedRead i id answer present empty permitted still
  | dropReady i id ref present => exact account.droppedReady orderly i id ref present permitted still
  | dropWaiting i id n r l present ch reply =>
    exact account.droppedWaiting linked i id n r l present ch reply permitted still
  | dropGone i id o gone harmless =>
    have spares : (⟨w, .dropReceive i id, o⟩ : Record).loses? = none := by
      simp only [Record.loses?, gone]
    rcases harmless with rfl | rfl
    · exact rest rfl same rfl rfl rfl spares
    · exact rest rfl same rfl rfl rfl spares
  | turnIdle l idle =>
    refine account.rest rfl same (books_turn l permitted still fun t job => ?_)
    rw [World.job?, idle] at job
    cases job
  | serveDetached l t v next k present detached =>
    obtain ⟨i, owner⟩ := allowed
    exact account.unserved tracked orderly history l i owner t next k present permitted still
      (fun both => by rw [detached] at both; cases both.1) rfl rfl
  | serveUnregistered l t v next k present attached gone =>
    obtain ⟨i, owner⟩ := allowed
    exact account.unserved tracked orderly history l i owner t next k present permitted still
      (fun both => by rw [gone] at both; cases both.2) rfl rfl
  | serve l t v next k present attached c waits x source =>
    obtain ⟨i, owner⟩ := allowed
    exact account.served tracked orderly history l i owner t next k present attached c waits x source
      permitted still
  | deliver l t r n outcome v next k present x destination ch reply =>
    obtain ⟨i, owner⟩ := allowed
    exact account.delivered linked l i owner t r n outcome next k present x destination ch reply
      permitted still
  | collect l r v next x y present collected =>
    obtain ⟨i, owner⟩ := allowed
    exact account.collected l i owner r next x y present (collected_cases x y _ collected) permitted
      still

/-- The account is in order, and what is owed to receivers is their own. -/
structure Accountable (past : List Record) (w : World) : Prop where
  account : Account past w
  warranted : ∀ d ref, (books past w).owes d = some ref → Warranted past w d ref

theorem create_accountable (config : Config) : Accountable [] (.create config) := by
  have noRealm : ∀ r, (World.create config).table? r = none := fun r => rfl
  have owesNothing : ∀ d, (books [] (.create config)).owes d = none := by
    intro d
    cases d with
    | token t => exact ite_self none
    | reply n | receive id => rfl
  refine ⟨⟨0, ⟨fun r t there => ?_, fun ref => ?_⟩, fun p => ?_⟩, fun d ref owes => ?_⟩
  · rw [noRealm] at there
    cases there
  · rw [rooted, World.held, noRealm]
    rfl
  · obtain ⟨holder, ref⟩ := p
    cases holder with
    | debtor d =>
      dsimp only [Books.times]
      rw [owesNothing]
      rfl
    | hand | finalizer | nobody => rfl
  · rw [owesNothing] at owes
    cases owes

/-- What a receiver is owed stays its own as long as it is owed. -/
theorem Honest.accountable {r : Record} (honest : Honest past (r :: past) w w')
    (accountable : Accountable past w) (replies : r.before.replies = w.replies) :
    Accountable (r :: past) w' := by
  obtain ⟨account, warranted⟩ := accountable
  refine ⟨honest.account, fun d ref owes => ?_⟩
  rcases honest.news d ref owes with old | new
  · have before := account.spare (.debtor d, ref) (Books.times_of_owes d ref old)
    have after := honest.account.spare (.debtor d, ref) (Books.times_of_owes d ref owes)
    have same := honest.steady ref (Nat.zero_lt_of_lt before) (Nat.zero_lt_of_lt after)
    have keeps : ∀ t c id, Rehomed past w t c id ref → Rehomed (r :: past) w' t c id ref := by
      rintro t c id ⟨⟨s, member, made⟩, home, v, x, served, stands, key⟩
      exact ⟨⟨s, List.mem_cons_of_mem r member, made⟩, home, v, x, served.cons t v r,
        same.trans stands, key⟩
    cases d with
    | token t => trivial
    | reply n =>
      obtain ⟨t, c, id, made, rehomed⟩ := warranted (.reply n) ref old
      obtain ⟨_, _, _, _, _, sent, _⟩ := (owes_reply_iff past w n ref).mp old
      obtain ⟨ch, reply⟩ : ∃ ch, w.reply? n = some ch := by
        refine Option.ne_none_iff_exists'.mp fun unknown => ?_
        rw [World.sent?, unknown] at sent
        cases sent
      exact ⟨t, c, id, asker?_kept n _ ch reply made r replies, keeps t c id rehomed⟩
    | receive id =>
      obtain ⟨t, c, rehomed⟩ := warranted (.receive id) ref old
      exact ⟨t, c, keeps t c id rehomed⟩
  · exact new

theorem Accountable.running (accountable : Accountable past w) (i : ThreadId) :
    Accountable past { w with here := i } := by
  obtain ⟨⟨ledger, ⟨sound, paid⟩, exact⟩, warranted⟩ := accountable
  have rests : Rests w { w with here := i } := rests_of_same rfl rfl rfl rfl
  have same := rests.books past
  refine ⟨⟨ledger, ⟨sound, paid⟩, same ▸ exact⟩, fun d ref there => ?_⟩
  rw [same] at there
  cases d with
  | token t => trivial
  | reply n =>
    obtain ⟨t, c, id, made, received, home, identity⟩ := warranted (.reply n) ref there
    exact ⟨t, c, id, made, received, home, identity⟩
  | receive id =>
    obtain ⟨t, c, received, home, identity⟩ := warranted (.receive id) ref there
    exact ⟨t, c, received, home, identity⟩

theorem Run.accountable {config : Config} (run : Run config .held past w) :
    Accountable past w := by
  induction run with
  | start => exact create_accountable config
  | @step past w m run allowed permitted ih =>
    have orderly := run.orderly
    have step := m.step orderly allowed
    have running := ih.running (m.thread w)
    rw [m.perform_eq] at step ⊢
    have honest := step.honest (u := w) running.account (run.tracked.running _)
      (run.linked.running _) (orderly.running _) (run.history.running _) allowed
      (held_running _ permitted) rfl
    exact (honest.accountable running rfl).running _

end Membrane.Transfer
