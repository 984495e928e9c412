import Membrane.Proofs.Transfer.Hands
/-!
Where a reply comes from: the receive that made it. What waits for a reply, what is on its way to it
and what may be read of it all belong to that receive.
-/

set_option autoImplicit false

namespace Membrane.Transfer

/-- The token, the context and the number of the receive that made a reply. -/
def asker? (n : ReplyId) : List Record → Option (TokenId × Context × ReceiveId)
  | [] => none
  | r :: past =>
    match r.move, r.outcome with
    | .receive _ t c, .ok (.receive id) =>
      if r.before.replies.size = n then some (t, c, id) else asker? n past
    | _, _ => asker? n past

/-- What is under way agrees with the receives that were made. -/
structure Linked (past : List Record) (w : World) : Prop where
  waits : ∀ id n r l, w.receive? id = some (.waiting n r l) →
    ∃ t c, asker? n past = some (t, c, id) ∧ r = c.realm
  continues : ∀ d ∈ w.runtime.waiting, ∃ t k c id, asker? d.reply past = some (t, c, id) ∧
    w.token? t = some k ∧ k.correlation = d.correlation ∧ c.thread = d.destination ∧ IsContext w c
  delivers : ∀ i t r n v, (i, .deliver t r n (.ok v)) ∈ w.posted →
    (∃ c id, asker? n past = some (t, c, id) ∧ r = c.realm) ∧ ServedAs t v past

/-- Nothing new is under way. -/
structure Carries (w w' : World) : Prop where
  places : ∀ r p, w.place? r = some p → w'.place? r = some p
  stays : ∀ t k, w.token? t = some k → ∃ l, w'.token? t = some l ∧ Alike k l
  waiting : ∀ c ∈ w'.runtime.waiting, c ∈ w.runtime.waiting
  delivers : ∀ i t r n o, (i, .deliver t r n o) ∈ w'.posted → (i, .deliver t r n o) ∈ w.posted
  receives : ∀ id n r l, w'.receive? id = some (.waiting n r l) →
    w.receive? id = some (.waiting n r l)

variable {past : List Record} {w w' u : World} {m : Move} {outcome : Except Halt Answer}

theorem asker?_cons_of_lt (n : ReplyId) (r : Record) (old : n < r.before.replies.size) :
    asker? n (r :: past) = asker? n past := by
  rw [asker?]
  split
  · rw [if_neg (Nat.ne_of_gt old)]
  · rfl

theorem asker?_receive (i : ThreadId) (t : TokenId) (c : Context) (id : ReceiveId) :
    asker? u.replies.size (⟨u, .receive i t c, .ok (.receive id)⟩ :: past) = some (t, c, id) := by
  simp only [asker?, ↓reduceIte]

/-- Whoever made a reply is on record. -/
theorem exists_receive (n : ReplyId) (t : TokenId) (c : Context) (id : ReceiveId)
    (made : asker? n past = some (t, c, id)) :
    ∃ r ∈ past, ∃ i, r.move = .receive i t c ∧ r.outcome = .ok (.receive id) := by
  induction past with
  | nil => cases made
  | cons r past ih =>
    rw [asker?] at made
    split at made
    · next i s d j move outcome =>
      split at made
      · cases made
        exact ⟨r, List.mem_cons_self, i, move, outcome⟩
      · obtain ⟨r', member, rest⟩ := ih made
        exact ⟨r', List.mem_cons_of_mem r member, rest⟩
    · obtain ⟨r', member, rest⟩ := ih made
      exact ⟨r', List.mem_cons_of_mem r member, rest⟩

theorem ServedAs.cons (t : TokenId) (v : Host.Value) (served : ServedAs t v past) (r : Record) :
    ServedAs t v (r :: past) := by
  obtain ⟨s, member, rest⟩ := served
  exact ⟨s, List.mem_cons_of_mem r member, rest⟩

theorem Carries.refl (w : World) : Carries w w :=
  ⟨fun _ _ there => there, fun _ k there => ⟨k, there, .refl k⟩, fun _ member => member,
    fun _ _ _ _ _ member => member, fun _ _ _ _ there => there⟩

theorem Carries.trans (v : World) (first : Carries w v) (second : Carries v w') :
    Carries w w' := by
  refine ⟨fun r p there => second.places r p (first.places r p there), ?_,
    fun c member => first.waiting c (second.waiting c member),
    fun i t r n o member => first.delivers i t r n o (second.delivers i t r n o member),
    fun id n r l there => first.receives id n r l (second.receives id n r l there)⟩
  intro t k there
  obtain ⟨l, now, alike⟩ := first.stays t k there
  obtain ⟨k', later, alike'⟩ := second.stays t l now
  exact ⟨k', later, alike.trans _ alike'⟩

theorem carries_withRealm (r : RealmId) (x y : Realm) (present : w.realms[r]? = some x)
    (same : y.place = x.place) : Carries w (w.withRealm r y) := by
  refine { Carries.refl w with places := fun s p there => ?_ }
  rw [w.place?_withRealm r x y present same]
  exact there

theorem carries_withToken (t : TokenId) (k l : Token) (present : w.token? t = some k)
    (alike : Alike k l) : Carries w (w.withToken t l) := by
  refine { Carries.refl w with stays := fun s m there => ?_ }
  rw [w.token?_withToken t k l present]
  exact exists_update Alike.refl present alike there

theorem carries_withReply (n : ReplyId)
    (f : Channel (Except Fault Handle) → Channel (Except Fault Handle)) :
    Carries w (w.withReply n f) :=
  { Carries.refl w with }

/-- A receive that is looked at or let go does not wait. -/
theorem carries_withReceive (id : ReceiveId) (x : Receive) (y : Option Receive)
    (present : w.receive? id = some x) (done : ∀ n r l, y ≠ some (.waiting n r l)) :
    Carries w (w.withReceive id y) := by
  refine { Carries.refl w with receives := fun j n r l there => ?_ }
  rw [w.receive?_withReceive id x present y, Function.update_apply] at there
  split at there
  · exact absurd there (done n r l)
  · exact there

theorem carries_receiving (x : Receive) (done : ∀ n r l, x ≠ .waiting n r l) :
    Carries w (w.receiving x) := by
  refine { Carries.refl w with receives := fun j n r l there => ?_ }
  rw [w.receive?_receiving x] at there
  obtain ⟨-, same⟩ | ⟨-, former⟩ := of_update_eq_some there
  · exact absurd same.symm (done n r l)
  · exact former

theorem carries_withQueue (l : LoopId) (f : EventLoop Job → EventLoop Job)
    (kept : ∀ q, (f q).owner = q.owner ∧ (f q).microtasks = q.microtasks ∧ (f q).inbox = q.inbox) :
    Carries w (w.withQueue l f) :=
  { Carries.refl w with
    delivers := fun _ _ _ _ _ member => (w.posted_withQueue_of_kept l f kept).mem_iff.mp member }

theorem carries_next (l : LoopId) (i : ThreadId) (owner : w.owner? l = some i) (job : Job)
    (next : w.next? l = some (job, w')) : Carries w w' := by
  obtain ⟨posted, _, q, rfl⟩ := w.posted_next l i owner job w' next
  exact { Carries.refl w with
    delivers := fun _ _ _ _ _ member => posted.mem_iff.mpr (List.mem_cons_of_mem _ member) }

theorem carries_post (l : LoopId) (job : Job) (i : ThreadId) (owner : w.owner? l = some i)
    (other : ∀ t r n o, job ≠ .deliver t r n o) : Carries w (w.post l job) := by
  refine { Carries.refl w with delivers := fun j t r n o member => ?_ }
  rcases List.mem_cons.mp ((w.posted_post l job i owner).mem_iff.mp member) with new | old
  · cases new
    exact absurd rfl (other t r n o)
  · exact old

theorem carries_note (orderly : Orderly w) (ref : Guest.Ref) : Carries w (w.note ref) := by
  unfold World.note
  split
  · exact .refl w
  · next x present =>
    have noted := carries_withRealm ref.realm x (x.scheduleFinalizer ref.handle).2 present rfl
    split
    · exact noted.trans _ (carries_post x.loop (.collect ref.realm) x.owner
        (orderly.housed.owned _ _ (w.place?_of_present ref.realm x present))
        fun _ _ _ _ other => by cases other)
    · exact noted

theorem carries_lost (orderly : Orderly w) (ref : Guest.Ref) : Carries w (w.lost ref) := by
  unfold World.lost
  split
  · exact .refl w
  · split
    · exact carries_note orderly ref
    · exact .refl w

theorem carries_detached (c : Context) (x : Realm) : Carries w (w.detached c x) := by
  obtain ⟨_, _, realms, tokens, loops⟩ := runtime_detached (w := w) c x
  have receives : (w.detached c x).receives = w.receives := by
    unfold World.detached
    split <;> rfl
  refine
    { places := fun r p there => ?_
      stays := fun t k there => ⟨k, ?_, .refl k⟩
      waiting := fun d member => ((mem_waiting_detached c x d).mp member).1
      delivers := fun i t r n o member => ?_
      receives := fun id n r l there => ?_ }
  · rw [World.place?, realms]
    exact there
  · rw [World.token?, tokens]
    exact there
  · rw [World.posted, loops] at member
    exact member
  · rw [World.receive?, receives] at there
    exact there

theorem carries_joined (x : Realm) (l : LoopId) : Carries w (w.joined x l) := by
  refine { Carries.refl w with places := fun r p there => ?_ }
  rw [w.place?_joined x l]
  exact update_of_free w.place?_size _ there

theorem carries_issued (k : Token) : Carries w (w.issued k) := by
  refine { Carries.refl w with stays := fun t l there => ⟨l, ?_, .refl l⟩ }
  rw [w.token?_issued k]
  exact update_of_free w.token?_size k there

theorem carries_looped (clock : Clock) : Carries w (w.looped clock) := by
  refine { Carries.refl w with delivers := fun i t r n o member => ?_ }
  simpa only [World.posted, World.looped, Array.toList_push, List.flatMap_append,
    List.flatMap_singleton, World.postedOn, EventLoop.empty, List.append_nil, List.map_nil]
    using member

theorem carries_resumed (correlation : Nat) : Carries w (w.resumed correlation) :=
  { Carries.refl w with waiting := fun _ member => (List.mem_filter.mp member).1 }

theorem carries_surrender (ref : Guest.Ref) (x : Realm) (present : w.realms[ref.realm]? = some x) :
    Carries w (w.surrender ref x).2 := by
  obtain ⟨y, left, kept⟩ := Act.surrender_eq w ref x present
  rw [left]
  apply carries_withRealm ref.realm x y present
  rcases kept with rfl | released
  · rfl
  · exact x.place_release y _ released

theorem carries_settled (t : TokenId) (k : Token) (present : w.token? t = some k) (r : RealmId)
    (x : Realm) (destination : w.realms[r]? = some x) (n : ReplyId)
    (ch : Channel (Except Fault Handle)) (outcome : Except Fault Host.Value) :
    Carries w (w.settled t k r x n ch outcome) := by
  unfold World.settled
  cases outcome with
  | error e =>
    exact (carries_withReply n (·.answer (.error e))).trans _
      (carries_withToken t k k.fulfilled.dropped present ⟨rfl, rfl, rfl⟩)
  | ok v =>
    have retained := carries_withRealm r x (x.retainFor ch v) destination (x.place_retainFor ch v)
    exact (retained.trans _ (carries_withReply n (·.answer (.ok (x.retain v).1)))).trans _
      (carries_withToken t k k.fulfilled.dropped present ⟨rfl, rfl, rfl⟩)

theorem asker?_kept (n : ReplyId) (a : TokenId × Context × ReceiveId)
    (ch : Channel (Except Fault Handle)) (present : w.reply? n = some ch)
    (made : asker? n past = some a) (r : Record) (before : r.before.replies = w.replies) :
    asker? n (r :: past) = some a := by
  rw [asker?_cons_of_lt n r (by rw [before]; exact (Array.getElem?_eq_some_iff.mp present).1)]
  exact made

/-- A move on record changes nothing of what was on record before. -/
theorem Linked.cons (linked : Linked past w) (orderly : Orderly w) (r : Record)
    (before : r.before.replies = w.replies) : Linked (r :: past) w := by
  refine ⟨?_, ?_, ?_⟩
  · intro id n s l there
    obtain ⟨t, c, made, same⟩ := linked.waits id n s l there
    obtain ⟨ch, reply⟩ := orderly.received.waits id n s l there
    exact ⟨t, c, asker?_kept n _ ch reply made r before, same⟩
  · intro d member
    obtain ⟨t, k, c, id, made, rest⟩ := linked.continues d member
    obtain ⟨ch, reply, _⟩ := orderly.waiting_reply d member
    exact ⟨t, k, c, id, asker?_kept _ _ ch reply made r before, rest⟩
  · intro i t s n v member
    obtain ⟨⟨c, id, made, same⟩, served⟩ := linked.delivers i t s n v member
    obtain ⟨ch, reply, _⟩ := orderly.replying.pending n
      (List.mem_append_right _ (List.mem_filterMap.mpr ⟨_, member, rfl⟩))
    exact ⟨⟨c, id, asker?_kept n _ ch reply made r before, same⟩, served.cons t v r⟩

/-- What is under way goes on if nothing new is. -/
theorem Linked.carried (linked : Linked past w) (change : Carries w w') : Linked past w' := by
  refine ⟨fun id n s l there => linked.waits id n s l (change.receives id n s l there), ?_,
    fun i t s n v member => linked.delivers i t s n v (change.delivers i t s n _ member)⟩
  intro d member
  obtain ⟨t, k, c, id, made, there, correlation, thread, p, home, rest⟩ :=
    linked.continues d (change.waiting d member)
  obtain ⟨l, now, alike⟩ := change.stays t k there
  exact ⟨t, l, c, id, made, now, by rw [alike.correlation, correlation], thread, p,
    change.places _ p home, rest⟩

/-- A receive that asks the source is on record with the reply that it waits for. -/
theorem Linked.asked (linked : Linked past w) (orderly : Orderly w) (i : ThreadId) (t : TokenId)
    (c : Context) (context : IsContext w c) (k : Token) (present : w.token? t = some k)
    (source : Attachment) (attached : w.runtime.attachment? k.thread = some source)
    (replies : u.replies = w.replies) :
    Linked (⟨u, .receive i t c, .ok (.receive w.receives.size)⟩ :: past)
      (w.asked t k c source) := by
  have old := linked.cons orderly ⟨u, .receive i t c, .ok (.receive w.receives.size)⟩ replies
  have made : asker? w.replies.size (⟨u, .receive i t c, .ok (.receive w.receives.size)⟩ :: past) =
      some (t, c, w.receives.size) := by
    rw [← replies]
    exact asker?_receive i t c _
  obtain ⟨p, _, _, owner⟩ := orderly.source_loop t k present source attached
  let asking := ((w.withToken t k.claimed.copied).expecting (w.continuation k c)).withQueue c.loop
    (·.hold)
  have claimed := carries_withToken t k k.claimed.copied present ⟨rfl, rfl, rfl⟩
  have held : asking.posted.Perm w.posted :=
    World.posted_withQueue_of_kept _ c.loop (·.hold) fun q => ⟨rfl, rfl, rfl⟩
  have still : asking.owner? source.loop = some p.owner :=
    (congrFun (World.owner?_withQueue _ c.loop (·.hold) fun _ _ => rfl) source.loop).trans owner
  have posted : (w.asked t k c source).posted.Perm ((p.owner, .serve t) :: asking.posted) :=
    asking.posted_post source.loop (.serve t) p.owner still
  refine ⟨?_, ?_, ?_⟩
  · intro id n s l there
    have receives : (w.asked t k c source).receive? = Function.update w.receive? w.receives.size
        (some (.waiting w.replies.size c.realm c.loop)) :=
      w.receive?_receiving (.waiting w.replies.size c.realm c.loop)
    rw [receives] at there
    obtain ⟨rfl, same⟩ | ⟨-, former⟩ := of_update_eq_some there
    · cases same
      exact ⟨t, c, made, rfl⟩
    · exact old.waits id n s l former
  · intro d member
    rcases List.mem_append.mp member with former | new
    · obtain ⟨s, l, e, id, asker, there, rest⟩ := (old.carried claimed).continues d former
      exact ⟨s, l, e, id, asker, there, rest⟩
    · obtain rfl := List.mem_singleton.mp new
      refine ⟨t, k.claimed.copied, c, _, made, ?_, rfl, rfl, context⟩
      exact (congrFun (w.token?_withToken t k k.claimed.copied present) t).trans
        (Function.update_self ..)
  · intro j s r n v member
    rcases List.mem_cons.mp (posted.mem_iff.mp member) with new | former
    · cases new
    · exact old.delivers j s r n v (held.mem_iff.mp former)

/-- A value on its way to its destination is on record with the request that was served. -/
theorem Linked.forward (linked : Linked past w) (orderly : Orderly w) (t : TokenId) (k : Token)
    (present : w.token? t = some k) (d : Continuation) (c : Context) (id : ReceiveId)
    (made : asker? d.reply past = some (t, c, id)) (thread : c.thread = d.destination)
    (context : IsContext w c) (outcome : Except Fault Host.Value)
    (served : ∀ v, outcome = .ok v → ServedAs t v past) :
    Linked past (w.forward t k d outcome) := by
  unfold World.forward
  cases destination : w.runtime.attachment? d.destination with
  | none =>
    exact linked.carried ((carries_withReply d.reply (·.shut)).trans _
      (carries_withToken t k k.dropped present ⟨rfl, rfl, rfl⟩))
  | some a =>
    obtain ⟨member, aThread⟩ := mem_of_attachment _ _ _ destination
    obtain ⟨p, there, pThread, loop⟩ := orderly.listed a member
    obtain ⟨q, home, qThread, _⟩ := context
    obtain ⟨same, _⟩ := orderly.place_unique a.realm c.realm p q there home
      (by rw [pThread, aThread, qThread, thread])
    have posted := w.posted_post a.loop (.deliver t a.realm d.reply outcome) p.owner
      (loop ▸ orderly.housed.owned _ p there)
    refine ⟨linked.waits, linked.continues, ?_⟩
    intro i s r n v delivers
    rcases List.mem_cons.mp (posted.mem_iff.mp delivers) with new | old
    · cases new
      exact ⟨⟨c, id, made, same⟩, served v rfl⟩
    · exact linked.delivers i s r n v old

/-- What is given up for a token is what its source stands for. -/
theorem surrender_value (w : World) (ref : Guest.Ref) (x : Realm)
    (present : w.realms[ref.realm]? = some x) (v : Host.Value)
    (given : (w.surrender ref x).1 = .ok v) : w.value? ref = some v := by
  have stands : x.table.get ref.handle = .ok v := by
    unfold World.surrender at given
    split at given
    · cases given
    · next v' stands =>
      split at given
      · rw [stands, ← given]
      · cases given
  rw [World.value?, World.table?, present]
  exact (RefTable.get_eq_ok_iff _ v).mp stands

theorem Linked.served (linked : Linked past w) (orderly : Orderly w) (l : LoopId) (i : ThreadId)
    (owner : w.owner? l = some i) (t : TokenId) (v : World)
    (next : w.next? l = some (.serve t, v)) (k : Token) (present : w.token? t = some k)
    (attached : w.runtime.isAttached k.thread = true) (d : Continuation)
    (waits : w.runtime.waiting.find? (·.correlation == k.correlation) = some d) (x : Realm)
    (source : w.realms[k.source.realm]? = some x) (still : u = { w with here := u.here }) :
    Linked (⟨u, .turn l, .ok .done⟩ :: past)
      (((v.resumed k.correlation).surrender k.source x).2.forward t k d
        ((v.resumed k.correlation).surrender k.source x).1) := by
  have old := linked.cons orderly ⟨u, .turn l, .ok .done⟩ (by rw [still])
  have found := List.find?_some waits
  have number : d.correlation = k.correlation := beq_iff_eq.mp found
  obtain ⟨s, k', c, id, made, there, correlation, thread, context⟩ :=
    old.continues d (List.mem_of_find?_eq_some waits)
  obtain rfl := orderly.issued.distinct s t k' k there present (correlation.trans number)
  have serves : (⟨u, .turn l, .ok .done⟩ : Record).Serves s := by
    rw [still]
    exact Or.inl ⟨l, _, k, rfl, next?_running w u.here l _ v next, present, attached, rfl⟩
  have stands : u.value? k.source = w.value? k.source := by rw [still]; rfl
  have taking := carries_next l i owner _ next
  obtain ⟨orderly', _⟩ := orderly.next l i owner _ v next
  obtain ⟨q, rfl⟩ := next_eq l i owner _ v next
  let resumed := (w.withQueue l fun _ => q).resumed k.correlation
  have change : Carries w (resumed.surrender k.source x).2 :=
    (taking.trans _ (carries_resumed k.correlation)).trans _
      (carries_surrender k.source x source)
  have given : Orderly (resumed.surrender k.source x).2 :=
    (orderly'.resumed k.correlation).surrender k.source x source
  obtain ⟨l', now, _⟩ := change.stays s k present
  obtain ⟨p, home, rest⟩ := context
  obtain ⟨y, left, _⟩ := Act.surrender_eq resumed k.source x source
  have unchanged : (resumed.surrender k.source x).2.token? s = some k := by rw [left]; exact present
  refine (old.carried change).forward given s k unchanged d c id made thread
    ⟨p, change.places _ p home, rest⟩ _ fun value outcome => ?_
  refine ⟨_, List.mem_cons_self, serves, k, by rw [still]; exact present, ?_⟩
  exact stands.trans (surrender_value resumed k.source x source value outcome)

/-- Whatever a move comes to, what is under way belongs to a receive that is on record. -/
theorem Step.linked (step : Step w m outcome w') (linked : Linked past w) (orderly : Orderly w)
    (allowed : m.Allowed w) (still : u = { w with here := u.here }) :
    Linked (⟨u, m, outcome⟩ :: past) w' := by
  have replies : u.replies = w.replies := by rw [still]
  -- What was under way is so still after the move is on record. Left is what the move itself changes.
  have old := linked.cons orderly ⟨u, m, outcome⟩ replies
  cases step with
  | makeLoop i clock => exact old.carried (carries_looped clock)
  | attachFull i l => exact old
  | attach i l heap globalObject e executors registry current owner few listed =>
    have staffed : Carries w (w.staffed heap executors registry current) :=
      { Carries.refl w with }
    exact old.carried (staffed.trans _ (carries_joined _ l))
  | detach i c x present thread => exact old.carried (carries_detached c x)
  | retain i r v x present => exact old.carried (carries_withRealm r x _ present rfl)
  | copy i ref x y present retained =>
    exact old.carried (carries_withRealm _ x y present (x.place_retainHandle y _ retained))
  | copyRefused i ref x e present refused => exact old
  | release i ref x y present released =>
    exact old.carried (carries_withRealm _ x y present (x.place_release y _ released))
  | releaseRefused i ref x e present refused => exact old
  | drop i ref x present => exact old.carried (carries_lost orderly ref)
  | transferForeign i c ref => exact old
  | transfer i c ref x y present retained =>
    have numbered : Carries w w.numbered := { Carries.refl w with }
    have housed := numbered.trans _
      (carries_withRealm _ x y present (x.place_retainHandle y _ retained))
    exact old.carried (housed.trans _ (carries_issued _))
  | transferRefused i c ref x e present refused =>
    exact { old with }
  | copyToken i t k present =>
    exact old.carried (carries_withToken t k _ present ⟨rfl, rfl, rfl⟩)
  | dropToken i t k present =>
    have dropped := carries_withToken t k k.dropped present ⟨rfl, rfl, rfl⟩
    have kept := orderly.recount t k k.dropped present ⟨rfl, rfl, rfl⟩ rfl
    unfold World.dropCopy
    split
    · exact old.carried (dropped.trans _ (carries_note kept k.source))
    · exact old.carried dropped
  | receiveAgain i t c k present claimed => exact old
  | receiveLocal i t c k present created here =>
    have claimed := carries_withToken t k k.fulfilled present ⟨rfl, rfl, rfl⟩
    exact old.carried (claimed.trans _ (carries_receiving _ fun _ _ _ other => by cases other))
  | receiveUnavailable i t c k present created apart gone =>
    have claimed := carries_withToken t k k.claimed present ⟨rfl, rfl, rfl⟩
    exact old.carried (claimed.trans _ (carries_receiving _ fun _ _ _ other => by cases other))
  | receiveAsked i t c k present created apart source attached =>
    exact linked.asked orderly i t c allowed.1 k present source attached replies
  | pollReady i id answer present =>
    exact old.carried (carries_withReceive id _ _ present fun _ _ _ other => by cases other)
  | pollWaiting i id n r l present ch reply => exact old.carried (carries_withReply n _)
  | pollGone i id gone => exact old
  | dropRead i id answer present empty =>
    exact old.carried (carries_withReceive id _ _ present fun _ _ _ other => by cases other)
  | dropReady i id ref present =>
    have gone := carries_withReceive id _ none present fun _ _ _ other => by cases other
    exact old.carried (gone.trans _
      (carries_lost (orderly.withReceive id _ present _ (Or.inl rfl)) ref))
  | dropWaiting i id n r l present ch reply =>
    have gone := carries_withReceive id _ none present fun _ _ _ other => by cases other
    exact old.carried ((gone.trans _ (carries_withReply n _)).trans _
      (carries_withQueue l _ fun q => ⟨rfl, rfl, rfl⟩))
  | dropGone i id outcome gone harmless => exact old
  | turnIdle l idle => exact old
  | serveDetached l t v next k present detached =>
    obtain ⟨i, owner⟩ := allowed
    have taking := carries_next l i owner _ next
    obtain ⟨q, rfl⟩ := next_eq l i owner _ v next
    exact old.carried (taking.trans _ (carries_withToken t k _ present ⟨rfl, rfl, rfl⟩))
  | serveUnregistered l t v next k present attached gone =>
    obtain ⟨i, owner⟩ := allowed
    have taking := carries_next l i owner _ next
    obtain ⟨q, rfl⟩ := next_eq l i owner _ v next
    exact old.carried (taking.trans _ (carries_withToken t k _ present ⟨rfl, rfl, rfl⟩))
  | serve l t v next k present attached c waits x source =>
    obtain ⟨i, owner⟩ := allowed
    exact linked.served orderly l i owner t v next k present attached c waits x source still
  | deliver l t r n outcome v next k present x destination ch reply =>
    obtain ⟨i, owner⟩ := allowed
    have taking := carries_next l i owner _ next
    obtain ⟨q, rfl⟩ := next_eq l i owner _ v next
    have settled := carries_settled (w := w.withQueue l fun _ => q) t k present r x destination n
      ch outcome
    exact old.carried (taking.trans _ settled)
  | collect l r v next x y present collected =>
    obtain ⟨i, owner⟩ := allowed
    have taking := carries_next l i owner _ next
    obtain ⟨q, rfl⟩ := next_eq l i owner _ v next
    refine old.carried (taking.trans _ (carries_withRealm r x y present ?_))
    rcases collected_cases x y _ collected with rfl | rfl
    · rfl
    · exact x.place_collect

theorem Linked.running (linked : Linked past w) (i : ThreadId) :
    Linked past { w with here := i } :=
  { linked with }

theorem Run.linked {config : Config} {rule : Rule} (run : Run config rule past w) :
    Linked past w := by
  induction run with
  | start =>
    refine ⟨fun id n r l there => ?_, fun d member => absurd member List.not_mem_nil,
      fun i t r n v member => absurd member List.not_mem_nil⟩
    have noReceive : (World.create config).receive? id = none := rfl
    rw [noReceive] at there
    cases there
  | step m run allowed permitted ih =>
    have step := m.step run.orderly allowed
    rw [m.perform_eq] at step ⊢
    exact (step.linked (ih.running _) (run.orderly.running _) allowed rfl).running _

end Membrane.Transfer
