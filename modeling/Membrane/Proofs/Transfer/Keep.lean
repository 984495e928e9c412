import Membrane.Proofs.Transfer.Step
/-!
Every move keeps the order of realms, tokens, receivers, jobs and replies.
-/

set_option autoImplicit false

namespace Membrane

namespace Transfer

variable {w : World}

theorem Orderly.note (orderly : Orderly w) (ref : Guest.Ref) : Orderly (w.note ref) := by
  unfold World.note
  split
  · exact orderly
  · next x present =>
    have noted := orderly.withRealm ref.realm x (x.scheduleFinalizer ref.handle).2 present rfl
    have there := w.place?_of_present ref.realm x present
    split
    · have places := w.place?_withRealm ref.realm x (x.scheduleFinalizer ref.handle).2 present rfl
      refine noted.post x.loop (.collect ref.realm) x.owner ?_ ?_ ?_ ?_
      · exact orderly.housed.owned ref.realm x.place there
      · exact ⟨x.place, by rw [places, there], rfl⟩
      · exact fun t carried => by cases carried
      · exact fun n carried => by cases carried
    · exact noted

theorem Orderly.lost (orderly : Orderly w) (ref : Guest.Ref) : Orderly (w.lost ref) := by
  unfold World.lost
  split
  · exact orderly
  · split
    · exact orderly.note ref
    · exact orderly

/-- To count copies of a token is harmless. -/
theorem Orderly.recount (orderly : Orderly w) (t : TokenId) (k l : Token)
    (present : w.token? t = some k) (alike : Alike k l) (state : l.state = k.state) :
    Orderly (w.withToken t l) := by
  apply orderly.withToken t k l present alike
  by_cases requested : k.state = .requested
  · exact Or.inl (state.trans requested)
  · exact Or.inr (orderly.idle_of_unclaimed t k present requested)

theorem Orderly.dropCopy (orderly : Orderly w) (t : TokenId) (k : Token)
    (present : w.token? t = some k) : Orderly (w.dropCopy t k) := by
  have dropped := orderly.recount t k k.dropped present ⟨rfl, rfl, rfl⟩ rfl
  unfold World.dropCopy
  split
  · exact dropped.note k.source
  · exact dropped

/-- What is found under a number is attached with it. -/
theorem mem_of_attachment (runtime : Runtime) (thread : ThreadIndex) (a : Attachment)
    (found : runtime.attachment? thread = some a) : a ∈ runtime.attached ∧ a.thread = thread := by
  have same := List.find?_some found
  exact ⟨List.mem_of_find?_eq_some found, beq_iff_eq.mp same⟩

/-- A thread has one realm. -/
theorem Orderly.place_unique (orderly : Orderly w) (r s : RealmId) (p q : Place)
    (there : w.place? r = some p) (also : w.place? s = some q) (same : p.thread = q.thread) :
    r = s ∧ p = q := by
  have one : r = s := by
    rw [← orderly.housed.numbered r p there, ← orderly.housed.numbered s q also, same]
  subst one
  exact ⟨rfl, Option.some.inj (there.symm.trans also)⟩

/-- The loop of the source of a token runs on the thread that owns the realm of the token. -/
theorem Orderly.source_loop (orderly : Orderly w) (t : TokenId) (k : Token)
    (present : w.token? t = some k) (source : Attachment)
    (attached : w.runtime.attachment? k.thread = some source) :
    ∃ p, w.place? k.source.realm = some p ∧ source.realm = k.source.realm ∧
      w.owner? source.loop = some p.owner := by
  obtain ⟨member, thread⟩ := mem_of_attachment _ _ _ attached
  obtain ⟨q, there, qThread, qLoop⟩ := orderly.listed source member
  obtain ⟨p, also, pThread⟩ := orderly.issued.housed t k present
  obtain ⟨same, rfl⟩ := orderly.place_unique _ _ q p there also
    (by rw [qThread, thread, pThread])
  exact ⟨q, also, same, qLoop ▸ orderly.housed.owned _ q there⟩

/-- Whoever asks an attached source posts a request. -/
theorem posted_asked (orderly : Orderly w) (t : TokenId) (k : Token) (present : w.token? t = some k)
    (c : Context) (source : Attachment)
    (attached : w.runtime.attachment? k.thread = some source) :
    ∃ i, (w.asked t k c source).posted.Perm ((i, .serve t) :: w.posted) := by
  let asking := ((w.withToken t k.claimed.copied).expecting (w.continuation k c)).withQueue
    c.loop (·.hold)
  obtain ⟨p, _, _, owner⟩ := orderly.source_loop t k present source attached
  have held : asking.posted.Perm w.posted :=
    World.posted_withQueue_of_kept _ c.loop (·.hold) fun q => ⟨rfl, rfl, rfl⟩
  have still : asking.owner? source.loop = some p.owner :=
    (congrFun (World.owner?_withQueue _ c.loop (·.hold) fun _ _ => rfl) source.loop).trans owner
  exact ⟨p.owner, (asking.posted_post source.loop (.serve t) p.owner still).trans (held.cons _)⟩

theorem Orderly.asked (orderly : Orderly w) (t : TokenId) (k : Token)
    (present : w.token? t = some k) (created : k.state = .created) (c : Context)
    (apart : c.thread ≠ k.thread) (source : Attachment)
    (attached : w.runtime.attachment? k.thread = some source) :
    Orderly (w.asked t k c source) := by
  have idle := orderly.idle_of_unclaimed t k present (created.trans_ne nofun)
  have claimed := orderly.withToken t k k.claimed.copied present ⟨rfl, rfl, rfl⟩ (Or.inl rfl)
  have now : (w.withToken t k.claimed.copied).token? t = some k.claimed.copied := by
    rw [w.token?_withToken t k _ present, Function.update_self]
  have waiting := claimed.expecting t k.claimed.copied now rfl idle (w.continuation k c) rfl rfl
    rfl (Ne.symm apart) ((isAttached_iff _ _).mp (by
      rw [Runtime.isAttached]
      exact Option.isSome_iff_exists.mpr ⟨source, attached⟩))
  let asking := (w.withToken t k.claimed.copied).expecting (w.continuation k c)
  have held : Orderly (asking.withQueue c.loop (·.hold)) :=
    waiting.withQueue c.loop (·.hold) fun q => ⟨rfl, rfl, rfl⟩
  obtain ⟨p, there, _, owner⟩ := held.source_loop t k.claimed.copied now source attached
  have kept := asking.posted_withQueue_of_kept c.loop (·.hold) fun q => ⟨rfl, rfl, rfl⟩
  have posted := held.post source.loop (.serve t) p.owner owner
    ⟨k.claimed.copied, p, now, rfl, there, rfl⟩
    (fun s carried q member => by
      rw [← Option.some.inj carried]
      exact idle.2 q (kept.mem_iff.mp member))
    (fun n carried => by cases carried)
  refine posted.receiving _ ?_ (fun ref other => by cases other)
  intro n r l other
  cases other
  refine ⟨.create, ?_⟩
  show asking.reply? w.replies.size = some .create
  have replies := (w.withToken t k.claimed.copied).reply?_expecting (w.continuation k c)
  exact (congrFun replies w.replies.size).trans (Function.update_self ..)

theorem Orderly.resumed (orderly : Orderly w) (correlation : Nat) :
    Orderly (w.resumed correlation) :=
  orderly.withRuntime _ (.refl _) List.filter_sublist
    (fun c member => orderly.awaited.attached c (List.mem_filter.mp member).1) (.refl _) rfl
    (Nat.le_refl _)

/-- The replies of the receivers that stop to wait are not expected any more. -/
theorem expected_filter (p : Continuation → Bool) (waiting : List Continuation)
    (posted : List (ThreadId × Job)) (once : (expected waiting posted).Nodup) (c : Continuation)
    (member : c ∈ waiting) (stops : p c = true) :
    c.reply ∉ expected (waiting.filter fun d => !p d) posted := by
  have split : (expected waiting posted).Perm
      ((waiting.filter p).map (·.reply) ++ expected (waiting.filter fun d => !p d) posted) := by
    have parts := ((List.filter_append_perm p waiting).map (·.reply)).symm.append_right
      (posted.filterMap (·.2.reply?))
    rw [List.map_append, List.append_assoc] at parts
    exact parts
  have apart := (List.nodup_append.mp (split.nodup_iff.mp once)).2.2
  intro still
  exact apart c.reply (List.mem_map_of_mem (List.mem_filter.mpr ⟨member, stops⟩)) c.reply still rfl

/-- What is known of the receiver that a served request is for. -/
structure Resumed (w : World) (k : Token) (c : Continuation) : Prop where
  correlation : c.correlation = k.correlation
  free : ∀ d ∈ (w.resumed k.correlation).runtime.waiting, d.correlation ≠ k.correlation
  unexpected : c.reply ∉ expected (w.resumed k.correlation).runtime.waiting w.posted

theorem Orderly.resumed_free (orderly : Orderly w) (k : Token) (c : Continuation)
    (waits : w.runtime.waiting.find? (·.correlation == k.correlation) = some c) :
    Resumed w k c := by
  have member := List.mem_of_find?_eq_some waits
  have found := List.find?_some waits
  refine ⟨beq_iff_eq.mp found, fun d still => ?_, ?_⟩
  · have kept := (List.mem_filter.mp still).2
    simpa only [bne_iff_ne, ne_eq] using kept
  · exact expected_filter (·.correlation == k.correlation) _ _ orderly.replying.once c member found

/-- A request that is served leaves everything in order. -/
theorem Orderly.forward (orderly : Orderly w) (t : TokenId) (k : Token)
    (present : w.token? t = some k) (requested : k.state = .requested)
    (alone : ∀ p ∈ w.posted, p.2.token? ≠ some t) (c : Continuation)
    (free : ∀ d ∈ w.runtime.waiting, d.correlation ≠ k.correlation)
    (unexpected : c.reply ∉ expected w.runtime.waiting w.posted)
    (ch : Channel (Except Fault Handle)) (reply : w.reply? c.reply = some ch)
    (pending : ch.state = .waiting ∨ ch.state = .abandoned)
    (outcome : Except Fault Host.Value) : Orderly (w.forward t k c outcome) := by
  unfold World.forward
  cases destination : w.runtime.attachment? c.destination with
  | none =>
    have shut := orderly.withReply c.reply ch reply (·.shut)
      (ch.shut_quiet (orderly.replying.quiet _ ch reply)) fun member => absurd member unexpected
    exact shut.recount t k k.dropped present ⟨rfl, rfl, rfl⟩ rfl
  | some d =>
    obtain ⟨member, _⟩ := mem_of_attachment _ _ _ destination
    obtain ⟨p, there, _, loop⟩ := orderly.listed d member
    refine orderly.post d.loop _ p.owner (loop ▸ orderly.housed.owned _ p there)
      ⟨k, p, present, requested, free, there, rfl⟩ ?_ ?_
    · intro s carried
      rw [← Option.some.inj carried]
      exact alone
    · intro n carried
      rw [← Option.some.inj carried]
      exact ⟨unexpected, ch, reply, pending⟩

theorem Orderly.surrender (orderly : Orderly w) (ref : Guest.Ref) (x : Realm)
    (present : w.realms[ref.realm]? = some x) : Orderly (w.surrender ref x).2 := by
  obtain ⟨y, left, kept⟩ := Act.surrender_eq w ref x present
  rw [left]
  apply orderly.withRealm ref.realm x y present
  rcases kept with rfl | released
  · rfl
  · exact x.place_release y _ released

/-- A value that is delivered leaves everything in order. -/
theorem Orderly.settled (orderly : Orderly w) (t : TokenId) (k : Token)
    (present : w.token? t = some k) (idle : Idle w.runtime.waiting w.posted t k) (r : RealmId)
    (x : Realm) (destination : w.realms[r]? = some x) (n : ReplyId)
    (ch : Channel (Except Fault Handle)) (reply : w.reply? n = some ch)
    (unexpected : n ∉ expected w.runtime.waiting w.posted)
    (outcome : Except Fault Host.Value) : Orderly (w.settled t k r x n ch outcome) := by
  have quiet := orderly.replying.quiet n ch reply
  unfold World.settled
  cases outcome with
  | error e =>
    have answered := orderly.withReply n ch reply (·.answer (.error e)) (ch.answer_quiet _ quiet)
      fun member => absurd member unexpected
    exact answered.withToken t k _ present ⟨rfl, rfl, rfl⟩ (Or.inr idle)
  | ok v =>
    have retained := orderly.withRealm r x (x.retainFor ch v) destination (x.place_retainFor ch v)
    have answered := retained.withReply n ch reply (·.answer (.ok (x.retain v).1))
      (ch.answer_quiet _ quiet) fun member => absurd member unexpected
    exact answered.withToken t k _ present ⟨rfl, rfl, rfl⟩ (Or.inr idle)

theorem Orderly.orphanedReplies (thread : ThreadIndex) (cs : List Continuation) (w : World)
    (orderly : Orderly w)
    (unexpected : ∀ c ∈ cs, c.reply ∉ expected w.runtime.waiting w.posted ∧
      ∃ ch, w.reply? c.reply = some ch) :
    Orderly { w with replies := Membrane.orphanedReplies thread cs w.replies } := by
  induction cs generalizing w with
  | nil => exact orderly
  | cons c cs ih =>
    obtain ⟨free, ch, reply⟩ := unexpected c List.mem_cons_self
    have first := orderly.withReply c.reply ch reply (c.orphaned thread)
      (Act.orphaned_quiet thread c ch (orderly.replying.quiet _ ch reply))
      fun member => absurd member free
    refine ih _ first fun d member => ?_
    obtain ⟨free, other, there⟩ := unexpected d (List.mem_cons_of_mem c member)
    refine ⟨free, ?_⟩
    rw [w.reply?_withReply c.reply ch reply (c.orphaned thread), Function.update_apply]
    split
    · exact ⟨_, rfl⟩
    · exact ⟨other, there⟩

theorem Orderly.retired (orderly : Orderly w) (c : Context) : Orderly (w.retired c) :=
  { orderly with
    registered := fun p member => orderly.registered p (List.mem_filter.mp member).1 }

theorem Orderly.detached (orderly : Orderly w) (c : Context) (x : Realm) :
    Orderly (w.detached c x) := by
  have left : Orderly { w with runtime := (w.runtime.remove c.thread).2 } := by
    refine orderly.withRuntime _ List.filter_sublist List.filter_sublist ?_ (.refl _) rfl
      (Nat.le_refl _)
    intro d member
    obtain ⟨former, outside⟩ := List.mem_filter.mp member
    obtain ⟨a, attached, same⟩ := orderly.awaited.attached d former
    refine ⟨a, List.mem_filter.mpr ⟨attached, ?_⟩, same⟩
    simp only [Runtime.involves, Bool.not_eq_true', Bool.or_eq_false_iff, beq_eq_false_iff_ne]
      at outside
    rw [bne_iff_ne, same]
    exact outside.1
  have replied := Orderly.orphanedReplies c.thread (w.runtime.remove c.thread).1 _ left (by
    intro d member
    obtain ⟨former, involved⟩ := List.mem_filter.mp member
    obtain ⟨ch, reply, _⟩ := orderly.waiting_reply d former
    exact ⟨expected_filter _ _ _ orderly.replying.once d former involved, ch, reply⟩)
  unfold World.detached
  split
  · exact replied.retired c
  · exact replied

theorem Orderly.looped (orderly : Orderly w) (clock : Clock) : Orderly (w.looped clock) := by
  have posted : (w.looped clock).posted = w.posted := by
    simp only [World.posted, World.looped, Array.toList_push, List.flatMap_append,
      List.flatMap_singleton, World.postedOn, EventLoop.empty, List.append_nil, List.map_nil]
  have owners : ∀ l i, w.owner? l = some i → (w.looped clock).owner? l = some i := by
    intro l i owner
    obtain ⟨c, present, _⟩ := w.exists_loop l i owner
    have inside := (Array.getElem?_eq_some_iff.mp present).1
    rw [World.owner?, World.looped, getElem?_pushed, if_neg (Nat.ne_of_lt inside)]
    exact owner
  refine { orderly with housed := ?_, queued := ?_, replying := ?_ }
  · exact { orderly.housed with
      owned := fun r p there => owners _ _ (orderly.housed.owned r p there) }
  · rw [posted]
    exact orderly.queued
  · rw [posted]
    exact orderly.replying

theorem Orderly.staffed (orderly : Orderly w) (heap : Host.Heap) (executors : Array Executor)
    (registry : List (ThreadId × ExecutorId)) (current : List (ThreadId × Context))
    (listed : ∀ p ∈ registry, p.2 < executors.size) :
    Orderly (w.staffed heap executors registry current) :=
  { orderly with registered := listed }

/-- A token that is transferred gets the number that was used up for it. -/
theorem Orderly.transferred (orderly : Orderly w) (ref : Guest.Ref) (x y : Realm)
    (present : w.realms[ref.realm]? = some x) (retained : x.retainHandle ref.handle = .ok y) :
    Orderly ((w.numbered.withRealm ref.realm y).issued
      ⟨ref, x.thread, w.runtime.nextCorrelation, .created, 1⟩) := by
  have numbered : Orderly w.numbered :=
    orderly.withRuntime _ (.refl _) (.refl _) orderly.awaited.attached (.refl _) rfl
      (Nat.le_succ _)
  have place := x.place_retainHandle y _ retained
  have housed := numbered.withRealm ref.realm x y present place
  refine housed.issued_token _ x.place (Nat.lt_succ_self _) ?_ ?_ rfl
  · intro t l there
    exact Nat.ne_of_lt (orderly.issued.numbered t l there)
  · rw [w.numbered.place?_withRealm ref.realm x y present place]
    exact w.place?_of_present ref.realm x present

/-- A poll takes nothing away that is still to be sent. -/
theorem Orderly.polled (orderly : Orderly w) (n : ReplyId) (ch : Channel (Except Fault Handle))
    (reply : w.reply? n = some ch) : Orderly (w.withReply n fun ch => (ch.poll none).2) := by
  have quiet := orderly.replying.quiet n ch reply
  refine orderly.withReply n ch reply _ ?_ fun member => ?_
  · unfold Channel.poll
    split <;> first | rfl | exact quiet
  · obtain ⟨c, there, pending⟩ := orderly.replying.pending n member
    rw [reply, Option.some.injEq] at there
    subst there
    rcases pending with waiting | abandoned
    · exact Or.inl (by simp only [Channel.poll, waiting])
    · exact Or.inr (by simp only [Channel.poll, abandoned])

/-- The token of a job that was taken is not about any other job or receiver. -/
theorem Taken.idle (i : ThreadId) (t : TokenId) (r : RealmId) (n : ReplyId)
    (outcome : Except Fault Host.Value) (taken : Taken w i (.deliver t r n outcome)) (k : Token)
    (present : w.token? t = some k) : Idle w.runtime.waiting w.posted t k := by
  obtain ⟨l, _, there, _, free, _⟩ := taken.proper
  rw [present, Option.some.injEq] at there
  subst there
  exact ⟨free, taken.alone t rfl⟩

theorem Orderly.served (orderly : Orderly w) (l : LoopId) (i : ThreadId)
    (owner : w.owner? l = some i) (t : TokenId) (w' : World)
    (next : w.next? l = some (.serve t, w')) (k : Token) (present : w.token? t = some k)
    (c : Continuation)
    (waits : w.runtime.waiting.find? (·.correlation == k.correlation) = some c) (x : Realm)
    (source : w.realms[k.source.realm]? = some x) :
    Orderly (((w'.resumed k.correlation).surrender k.source x).2.forward t k c
      ((w'.resumed k.correlation).surrender k.source x).1) := by
  obtain ⟨orderly', taken⟩ := orderly.next l i owner _ w' next
  obtain ⟨q, rfl⟩ := next_eq l i owner _ w' next
  obtain ⟨k', _, there, requested, _⟩ := taken.proper
  change w.token? t = some k' at there
  rw [present, Option.some.injEq] at there
  subst there
  obtain ⟨_, free, unexpected⟩ := orderly'.resumed_free k c waits
  obtain ⟨ch, reply, pending⟩ := orderly'.waiting_reply c (List.mem_of_find?_eq_some waits)
  have resumed := orderly'.resumed k.correlation
  have given := resumed.surrender k.source x source
  obtain ⟨y, left, _⟩ :=
    Act.surrender_eq ((w.withQueue l fun _ => q).resumed k.correlation) k.source x source
  rw [left] at given ⊢
  exact given.forward t k present requested (taken.alone t rfl) c free unexpected ch reply pending _

theorem Orderly.delivered (orderly : Orderly w) (l : LoopId) (i : ThreadId)
    (owner : w.owner? l = some i) (t : TokenId) (r : RealmId) (n : ReplyId)
    (outcome : Except Fault Host.Value) (w' : World)
    (next : w.next? l = some (.deliver t r n outcome, w')) (k : Token)
    (present : w.token? t = some k) (x : Realm) (destination : w.realms[r]? = some x)
    (ch : Channel (Except Fault Handle)) (reply : w.reply? n = some ch) :
    Orderly (w'.settled t k r x n ch outcome) := by
  obtain ⟨orderly', taken⟩ := orderly.next l i owner _ w' next
  obtain ⟨q, rfl⟩ := next_eq l i owner _ w' next
  exact orderly'.settled t k present (taken.idle i t r n outcome k present) r x destination n ch
    reply (taken.sender n rfl).1 outcome

/-- What a move does keeps everything in order. -/
theorem Step.orderly {m : Move} {outcome : Except Halt Answer} {w' : World}
    (step : Step w m outcome w') (orderly : Orderly w) (allowed : m.Allowed w) : Orderly w' := by
  cases step with
  | makeLoop i clock => exact orderly.looped clock
  | attachFull i l => exact orderly
  | attach i l heap globalObject e executors registry current owner few listed =>
    exact (orderly.staffed heap executors registry current listed).joined _ l few rfl rfl owner
  | detach i c x present thread => exact orderly.detached c x
  | retain i r v x present => exact orderly.withRealm r x _ present rfl
  | copy i ref x y present retained =>
    exact orderly.withRealm ref.realm x y present (x.place_retainHandle y _ retained)
  | copyRefused i ref x e present refused => exact orderly
  | release i ref x y present released =>
    exact orderly.withRealm ref.realm x y present (x.place_release y _ released)
  | releaseRefused i ref x e present refused => exact orderly
  | drop i ref x present => exact orderly.lost ref
  | transferForeign i c ref => exact orderly
  | transfer i c ref x y present retained => exact orderly.transferred ref x y present retained
  | transferRefused i c ref x e present refused =>
    exact orderly.withRuntime _ (.refl _) (.refl _) orderly.awaited.attached (.refl _) rfl
      (Nat.le_succ _)
  | copyToken i t k present => exact orderly.recount t k _ present ⟨rfl, rfl, rfl⟩ rfl
  | dropToken i t k present => exact orderly.dropCopy t k present
  | receiveAgain i t c k present claimed => exact orderly
  | receiveLocal i t c k present created here =>
    have idle := orderly.idle_of_unclaimed t k present (created.trans_ne nofun)
    refine (orderly.withToken t k k.fulfilled present ⟨rfl, rfl, rfl⟩ (Or.inr idle)).receiving
      (.ready (some (.ok k.source))) (fun n r l other => by cases other) ?_
    intro ref same
    cases same
    obtain ⟨p, there, _⟩ := orderly.issued.housed t k present
    exact ⟨p, there⟩
  | receiveUnavailable i t c k present created apart gone =>
    exact (orderly.withToken t k k.claimed present ⟨rfl, rfl, rfl⟩ (Or.inl rfl)).receiving
      (.ready (some (.error (.threadUnavailable k.thread)))) (fun n r l other => by cases other)
      (fun ref other => by cases other)
  | receiveAsked i t c k present created apart source attached =>
    exact orderly.asked t k present created c apart source attached
  | pollReady i id answer present => exact orderly.withReceive id _ present _ (Or.inr rfl)
  | pollWaiting i id n r l present ch reply => exact orderly.polled n ch reply
  | pollGone i id gone => exact orderly
  | dropRead i id answer present empty => exact orderly.withReceive id _ present _ (Or.inl rfl)
  | dropReady i id ref present => exact (orderly.withReceive id _ present _ (Or.inl rfl)).lost ref
  | dropWaiting i id n r l present ch reply =>
    have dropped := orderly.withReceive id _ present none (Or.inl rfl)
    exact (dropped.withReply n ch reply (·.abandon) rfl fun _ => Or.inr rfl).withQueue l _
      fun q => ⟨rfl, rfl, rfl⟩
  | dropGone i id outcome gone harmless => exact orderly
  | turnIdle l idle => exact orderly
  | serveDetached l t w' next k present detached =>
    obtain ⟨i, owner⟩ := allowed
    obtain ⟨q, rfl⟩ := next_eq l i owner _ w' next
    exact (orderly.next l i owner _ _ next).1.recount t k _ present ⟨rfl, rfl, rfl⟩ rfl
  | serveUnregistered l t w' next k present attached gone =>
    obtain ⟨i, owner⟩ := allowed
    obtain ⟨q, rfl⟩ := next_eq l i owner _ w' next
    exact (orderly.next l i owner _ _ next).1.recount t k _ present ⟨rfl, rfl, rfl⟩ rfl
  | serve l t w' next k present attached c waits x source =>
    obtain ⟨i, owner⟩ := allowed
    exact orderly.served l i owner t w' next k present c waits x source
  | deliver l t r n outcome w' next k present x destination ch reply =>
    obtain ⟨i, owner⟩ := allowed
    exact orderly.delivered l i owner t r n outcome w' next k present x destination ch reply
  | collect l r w' next x y present collected =>
    obtain ⟨i, owner⟩ := allowed
    obtain ⟨q, rfl⟩ := next_eq l i owner _ w' next
    apply (orderly.next l i owner _ _ next).1.withRealm r x y present
    rcases collected_cases x y _ collected with rfl | rfl
    · rfl
    · exact x.place_collect

theorem create_orderly (config : Config) : Orderly (.create config) := by
  have noPlace : ∀ r, (World.create config).place? r = none := fun r => rfl
  have noToken : ∀ t, (World.create config).token? t = none := fun t => rfl
  have noReply : ∀ n, (World.create config).reply? n = none := fun n => rfl
  have noReceive : ∀ id, (World.create config).receive? id = none := fun id => rfl
  refine ⟨⟨rfl, ?_, ?_, ?_⟩, ?_, ?_, ⟨?_, ?_, ?_⟩, ⟨?_, ?_, ?_, .nil⟩, ⟨?_, .nil⟩,
    ⟨?_, .nil, ?_⟩, ⟨?_, ?_⟩⟩
  · exact fun r p there => by rw [noPlace] at there; cases there
  · exact fun r p there => by rw [noPlace] at there; cases there
  · exact fun r p there => by rw [noPlace] at there; cases there
  · exact fun p member => absurd member List.not_mem_nil
  · exact fun a member => absurd member List.not_mem_nil
  · exact fun t k there => by rw [noToken] at there; cases there
  · exact fun t k there => by rw [noToken] at there; cases there
  · exact fun s t k l there => by rw [noToken] at there; cases there
  · exact fun c member => absurd member List.not_mem_nil
  · exact fun c member => absurd member List.not_mem_nil
  · exact fun c member => absurd member List.not_mem_nil
  · exact fun p member => absurd member List.not_mem_nil
  · exact fun n ch there => by rw [noReply] at there; cases there
  · exact fun n member => absurd member List.not_mem_nil
  · exact fun id n r l there => by rw [noReceive] at there; cases there
  · exact fun id ref there => by rw [noReceive] at there; cases there

/-- A move on its thread is a step of that thread. -/
theorem Move.perform_eq (m : Move) (w : World) :
    m.perform w = ((m.act.exec { w with here := m.thread w }).1,
      { (m.act.exec { w with here := m.thread w }).2 with here := w.here }) :=
  Act.exec_asThread _ _ w

theorem Move.world_perform (m : Move) (w : World) :
    (m.perform w).2 = { (m.act.exec { w with here := m.thread w }).2 with here := w.here } :=
  congrArg Prod.snd (m.perform_eq w)

theorem Move.perform_of_exec (m : Move) (w : World) (outcome : Except Halt Answer) (v : World)
    (done : m.act.exec { w with here := m.thread w } = (outcome, v)) :
    m.perform w = (outcome, { v with here := w.here }) := by
  rw [m.perform_eq, done]

theorem Move.step (orderly : Orderly w) (m : Move) (allowed : m.Allowed w) :
    Step { w with here := m.thread w } m (m.perform w).1
      (m.act.exec { w with here := m.thread w }).2 := by
  rw [m.perform_eq]
  exact step_of_allowed (orderly.running _) m allowed rfl

theorem Run.orderly {config : Config} {rule : Rule} {past : List Record}
    (run : Run config rule past w) : Orderly w := by
  induction run with
  | start => exact create_orderly config
  | step m run allowed permitted ih =>
    rw [m.perform_eq]
    exact ((m.step ih allowed).orderly (ih.running _) allowed).running _

end Transfer

end Membrane
