import Membrane.Proofs.Transfer.Keep
/-!
What most moves leave alone: who is attached, which tokens were received, who waits, and which
requests are posted.
-/

set_option autoImplicit false

namespace Membrane.Transfer

/-- A token but for its copies. -/
def essence (k : Token) : Token := { k with copies := 0 }

/-- Nothing has changed that transfers are about. -/
structure Aside (w w' : World) : Prop where
  attached : w'.runtime.attached = w.runtime.attached
  waiting : w'.runtime.waiting = w.runtime.waiting
  count : w'.realms.size = w.realms.size
  tokens : ∀ t, (w'.token? t).map essence = (w.token? t).map essence
  posted : ∀ p ∈ w'.posted, p ∈ w.posted ∨ p.2.token? = none

variable {w w' : World}

theorem Aside.refl (w : World) : Aside w w :=
  ⟨rfl, rfl, rfl, fun _ => rfl, fun _ member => Or.inl member⟩

theorem Aside.trans (u v : World) (first : Aside w u) (second : Aside u v) : Aside w v := by
  refine ⟨second.attached.trans first.attached, second.waiting.trans first.waiting,
    second.count.trans first.count, fun t => (second.tokens t).trans (first.tokens t), ?_⟩
  intro p member
  rcases second.posted p member with old | free
  · exact first.posted p old
  · exact Or.inr free

theorem aside_withRealm (r : RealmId) (x : Realm) : Aside w (w.withRealm r x) :=
  { Aside.refl w with count := Array.size_setIfInBounds }

theorem aside_withToken (t : TokenId) (k l : Token) (present : w.token? t = some k)
    (same : essence l = essence k) : Aside w (w.withToken t l) := by
  refine { Aside.refl w with tokens := fun s => ?_ }
  rw [w.token?_withToken t k l present, Function.update_apply]
  split
  · next here => rw [here, present, Option.map_some, Option.map_some, same]
  · rfl

theorem aside_withQueue (l : LoopId) (f : EventLoop Job → EventLoop Job)
    (kept : ∀ q, (f q).owner = q.owner ∧ (f q).microtasks = q.microtasks ∧ (f q).inbox = q.inbox) :
    Aside w (w.withQueue l f) :=
  { Aside.refl w with
    posted := fun _ member => Or.inl ((w.posted_withQueue_of_kept l f kept).mem_iff.mp member) }

theorem aside_withReceive (id : ReceiveId) (x : Option Receive) : Aside w (w.withReceive id x) :=
  { Aside.refl w with }

theorem aside_withReply (n : ReplyId)
    (f : Channel (Except Fault Handle) → Channel (Except Fault Handle)) :
    Aside w (w.withReply n f) :=
  { Aside.refl w with }

theorem aside_note (orderly : Orderly w) (ref : Guest.Ref) : Aside w (w.note ref) := by
  unfold World.note
  split
  · exact .refl w
  · next x present =>
    have noted := aside_withRealm (w := w) ref.realm (x.scheduleFinalizer ref.handle).2
    split
    · refine noted.trans _ _ { Aside.refl _ with posted := fun p member => ?_ }
      have owner := orderly.housed.owned _ _ (w.place?_of_present ref.realm x present)
      have more := World.posted_post (w.withRealm ref.realm (x.scheduleFinalizer ref.handle).2)
        x.loop (.collect ref.realm) x.owner owner
      rcases List.mem_cons.mp (more.mem_iff.mp member) with rfl | old
      · exact Or.inr rfl
      · exact Or.inl old
    · exact noted

theorem aside_lost (orderly : Orderly w) (ref : Guest.Ref) : Aside w (w.lost ref) := by
  unfold World.lost
  split
  · exact .refl w
  · split
    · exact aside_note orderly ref
    · exact .refl w

/-- The moves that transfers are about. -/
def Move.isTelling : Move → Bool
  | .attach _ _ | .detach _ _ | .transfer _ _ _ | .receive _ _ _ | .turn _ => true
  | _ => false

theorem Step.aside {m : Move} {outcome : Except Halt Answer}
    (step : Step w m outcome w') (orderly : Orderly w) (telling : m.isTelling = false) :
    Aside w w' := by
  cases step with
  | makeLoop i clock =>
    refine { Aside.refl w with posted := fun p member => Or.inl ?_ }
    simpa only [World.posted, World.looped, Array.toList_push, List.flatMap_append,
      List.flatMap_singleton, World.postedOn, EventLoop.empty, List.append_nil, List.map_nil]
      using member
  | retain i r v x present => exact aside_withRealm r _
  | copy i ref x y present retained => exact aside_withRealm ref.realm y
  | copyRefused i ref x e present refused => exact .refl w
  | release i ref x y present released => exact aside_withRealm ref.realm y
  | releaseRefused i ref x e present refused => exact .refl w
  | drop i ref x present => exact aside_lost orderly ref
  | copyToken i t k present => exact aside_withToken t k _ present rfl
  | dropToken i t k present =>
    have dropped := aside_withToken t k k.dropped present rfl
    have still := orderly.recount t k k.dropped present ⟨rfl, rfl, rfl⟩ rfl
    unfold World.dropCopy
    split
    · exact dropped.trans _ _ (aside_note still k.source)
    · exact dropped
  | pollReady i id answer present => exact aside_withReceive id _
  | pollWaiting i id n r l present ch reply => exact aside_withReply n _
  | pollGone i id gone => exact .refl w
  | dropRead i id answer present empty => exact aside_withReceive id none
  | dropReady i id ref present =>
    exact (aside_withReceive id none).trans _ _
      (aside_lost (orderly.withReceive id _ present _ (Or.inl rfl)) ref)
  | dropWaiting i id n r l present ch reply =>
    exact ((aside_withReceive id none).trans _ _ (aside_withReply n _)).trans _ _
      (aside_withQueue l _ fun q => ⟨rfl, rfl, rfl⟩)
  | dropGone i id outcome gone harmless => exact .refl w
  | attachFull | attach | detach | transferForeign | transfer | transferRefused | receiveAgain
  | receiveLocal | receiveUnavailable | receiveAsked | turnIdle | serveDetached
  | serveUnregistered | serve | deliver | collect => cases telling
theorem Aside.former (aside : Aside w w') (t : TokenId) (k : Token)
    (present : w'.token? t = some k) : ∃ l, w.token? t = some l ∧ essence l = essence k := by
  have same := aside.tokens t
  rw [present, Option.map_some] at same
  exact Option.map_eq_some_iff.mp same.symm

theorem Aside.later (aside : Aside w w') (t : TokenId) (k : Token)
    (present : w.token? t = some k) : ∃ l, w'.token? t = some l ∧ essence l = essence k := by
  have same := aside.tokens t
  rw [present, Option.map_some] at same
  exact Option.map_eq_some_iff.mp same

theorem essence_eq (k l : Token) (same : essence k = essence l) :
    k.source = l.source ∧ k.thread = l.thread ∧ k.correlation = l.correlation ∧
      k.state = l.state := by
  simp only [essence, Token.mk.injEq] at same
  exact ⟨same.1, same.2.1, same.2.2.1, same.2.2.2.1⟩

/-- What a move leaves that neither detaches a thread nor receives a token first: receivers stop to
wait only for requests that are gone, and what is new was never spoken of. -/
structure Unspoken (w w' : World) : Prop where
  attached : ∀ a ∈ w'.runtime.attached, a ∈ w.runtime.attached ∨
    a.thread.val.toNat = w.realms.size
  count : w.realms.size ≤ w'.realms.size
  tokens : ∀ t k, w'.token? t = some k → (∃ l, w.token? t = some l ∧ Alike l k ∧
    (k.state = .created ↔ l.state = .created)) ∨ (w.token? t = none ∧ k.state = .created)
  stays : ∀ t k, w.token? t = some k → ∃ l, w'.token? t = some l ∧ Alike k l
  waiting : ∀ c ∈ w'.runtime.waiting, c ∈ w.runtime.waiting
  posted : ∀ i t, (i, .serve t) ∈ w'.posted → (i, .serve t) ∈ w.posted
  waits : ∀ i t k c, (i, .serve t) ∈ w'.posted → w.token? t = some k → c ∈ w.runtime.waiting →
    c.correlation = k.correlation → c ∈ w'.runtime.waiting

theorem Unspoken.refl (w : World) : Unspoken w w where
  attached _ member := Or.inl member
  count := Nat.le_refl _
  tokens _ k there := Or.inl ⟨k, there, .refl k, Iff.rfl⟩
  stays _ k there := ⟨k, there, .refl k⟩
  waiting _ member := member
  posted _ _ member := member
  waits _ _ _ _ _ _ member _ := member

theorem Aside.unspoken (aside : Aside w w') : Unspoken w w' where
  attached a member := by
    rw [aside.attached] at member
    exact Or.inl member
  count := Nat.le_of_eq aside.count.symm
  tokens t k present := by
    obtain ⟨l, former, same⟩ := aside.former t k present
    obtain ⟨source, thread, correlation, state⟩ := essence_eq l k same
    exact Or.inl ⟨l, former, ⟨source.symm, thread.symm, correlation.symm⟩, by rw [state]⟩
  stays t k present := by
    obtain ⟨l, now, same⟩ := aside.later t k present
    obtain ⟨source, thread, correlation, _⟩ := essence_eq l k same
    exact ⟨l, now, ⟨source, thread, correlation⟩⟩
  waiting c member := by
    rw [aside.waiting] at member
    exact member
  posted i t member := (aside.posted _ member).resolve_right fun free => by cases free
  waits i t k c _ _ member _ := by
    rw [aside.waiting]
    exact member

theorem unspoken_joined (orderly : Orderly w) (x : Realm) (l : LoopId) :
    Unspoken w (w.joined x l) := by
  refine { Unspoken.refl w with attached := fun a member => ?_, count := ?_ }
  · rcases List.mem_append.mp member with old | new
    · exact Or.inl old
    · rw [List.mem_singleton.mp new]
      exact Or.inr orderly.housed.counted.symm
  · show w.realms.size ≤ (w.realms.push x).size
    rw [Array.size_push]
    exact Nat.le_succ _

theorem unspoken_issued (k : Token) (created : k.state = .created) : Unspoken w (w.issued k) := by
  have tokens := w.token?_issued k
  refine { Unspoken.refl w with tokens := fun t l present => ?_, stays := fun t l present => ?_ }
  · rw [tokens] at present
    obtain ⟨rfl, rfl⟩ | ⟨-, former⟩ := of_update_eq_some present
    · exact Or.inr ⟨w.token?_size, created⟩
    · exact Or.inl ⟨l, former, .refl l, Iff.rfl⟩
  · exact ⟨l, by rw [tokens, update_of_free w.token?_size k present], .refl l⟩

theorem Unspoken.trans (v : World) (first : Unspoken w v) (second : Unspoken v w')
    (counts : v.realms.size = w.realms.size) : Unspoken w w' where
  attached a member := by
    rcases second.attached a member with old | new
    · exact first.attached a old
    · exact Or.inr (new.trans counts)
  count := Nat.le_trans first.count second.count
  tokens t k present := by
    rcases second.tokens t k present with ⟨l, former, alike, state⟩ | ⟨absent, created⟩
    · rcases first.tokens t l former with ⟨n, origin, alike', state'⟩ | ⟨absent, created⟩
      · exact Or.inl ⟨n, origin, alike'.trans _ alike, state.trans state'⟩
      · exact Or.inr ⟨absent, state.mpr created⟩
    · refine Or.inr ⟨?_, created⟩
      by_contra known
      obtain ⟨l, present'⟩ := Option.ne_none_iff_exists'.mp known
      obtain ⟨n, now, _⟩ := first.stays t l present'
      rw [absent] at now
      cases now
  stays t k present := by
    obtain ⟨l, now, alike⟩ := first.stays t k present
    obtain ⟨n, later, alike'⟩ := second.stays t l now
    exact ⟨n, later, alike.trans _ alike'⟩
  waiting c member := first.waiting c (second.waiting c member)
  posted i t member := first.posted i t (second.posted i t member)
  waits i t k c member present waits same := by
    obtain ⟨l, now, alike⟩ := first.stays t k present
    refine second.waits i t l c member now ?_ (by rw [alike.correlation, same])
    exact first.waits i t k c (second.posted i t member) present waits same

/-- Taking a job from a loop changes nothing else. -/
theorem aside_next (l : LoopId) (i : ThreadId) (owner : w.owner? l = some i) (job : Job)
    (next : w.next? l = some (job, w')) : Aside w w' := by
  obtain ⟨posted, _, q, rfl⟩ := w.posted_next l i owner job w' next
  exact { Aside.refl w with
    posted := fun p member => Or.inl (posted.mem_iff.mpr (List.mem_cons_of_mem _ member)) }

theorem unspoken_resumed (orderly : Orderly w) (t : TokenId) (k : Token)
    (present : w.token? t = some k) (alone : ∀ p ∈ w.posted, p.2.token? ≠ some t) :
    Unspoken w (w.resumed k.correlation) := by
  refine { Unspoken.refl w with
    waiting := fun c member => (List.mem_filter.mp member).1
    waits := fun i s l c member there waits same => ?_ }
  refine List.mem_filter.mpr ⟨waits, ?_⟩
  rw [bne_iff_ne, same]
  intro shared
  have one := orderly.issued.distinct s t l k there present shared
  subst one
  exact alone _ member rfl

/-- Sending on touches one token and one reply, or posts a delivery. -/
theorem unspoken_forward (orderly : Orderly w) (t : TokenId) (k : Token)
    (present : w.token? t = some k) (c : Continuation) (outcome : Except Fault Host.Value) :
    Unspoken w (w.forward t k c outcome) := by
  unfold World.forward
  cases destination : w.runtime.attachment? c.destination with
  | none =>
    exact ((aside_withReply c.reply _).trans _ _
      (aside_withToken t k k.dropped present rfl)).unspoken
  | some d =>
    obtain ⟨member, _⟩ := mem_of_attachment _ _ _ destination
    obtain ⟨p, there, _, loop⟩ := orderly.listed d member
    have posted := w.posted_post d.loop (.deliver t d.realm c.reply outcome) p.owner
      (loop ▸ orderly.housed.owned _ p there)
    refine { Unspoken.refl w with
      posted := fun i s member => ?_
      waits := fun _ _ _ _ _ _ waits _ => waits }
    rcases List.mem_cons.mp (posted.mem_iff.mp member) with new | old
    · cases new
    · exact old

theorem unspoken_fulfilled (t : TokenId) (k : Token) (present : w.token? t = some k)
    (claimed : k.state ≠ .created) : Unspoken w (w.withToken t k.fulfilled.dropped) := by
  have tokens := w.token?_withToken t k k.fulfilled.dropped present
  refine { Unspoken.refl w with tokens := fun s l there => ?_, stays := fun s l there => ?_ }
  · rw [tokens] at there
    obtain ⟨rfl, rfl⟩ | ⟨-, former⟩ := of_update_eq_some there
    · exact Or.inl ⟨k, present, ⟨rfl, rfl, rfl⟩,
        iff_of_false (by simp only [Token.dropped, Token.fulfilled, reduceCtorEq,
          not_false_eq_true]) claimed⟩
    · exact Or.inl ⟨l, former, .refl l, Iff.rfl⟩
  · rw [tokens]
    exact exists_update Alike.refl present ⟨rfl, rfl, rfl⟩ there

theorem unspoken_settled (t : TokenId) (k : Token) (present : w.token? t = some k)
    (claimed : k.state ≠ .created) (r : RealmId) (x : Realm) (n : ReplyId)
    (ch : Channel (Except Fault Handle)) (outcome : Except Fault Host.Value) :
    Unspoken w (w.settled t k r x n ch outcome) := by
  unfold World.settled
  cases outcome with
  | error e =>
    exact (aside_withReply n (·.answer (.error e))).unspoken.trans _
      (unspoken_fulfilled t k present claimed) rfl
  | ok v =>
    have answered := (aside_withRealm (w := w) r (x.retainFor ch v)).trans _ _
      (aside_withReply n (·.answer (.ok (x.retain v).1)))
    exact answered.unspoken.trans _ (unspoken_fulfilled t k present claimed) answered.count

theorem unspoken_attached (orderly : Orderly w) (l : LoopId) (heap : Host.Heap)
    (globalObject : ObjectId) (executors : Array Executor)
    (registry : List (ThreadId × ExecutorId)) (current : List (ThreadId × Context))
    (listed : ∀ p ∈ registry, p.2 < executors.size) :
    Unspoken w
      ((w.staffed heap executors registry current).joined (w.newRealm l globalObject) l) := by
  have staffed : Aside w (w.staffed heap executors registry current) := { Aside.refl w with }
  exact staffed.unspoken.trans _
    (unspoken_joined (orderly.staffed heap executors registry current listed) _ l) rfl

theorem unspoken_transferred (ref : Guest.Ref) (x y : Realm) :
    Unspoken w ((w.numbered.withRealm ref.realm y).issued
      ⟨ref, x.thread, w.runtime.nextCorrelation, .created, 1⟩) := by
  have numbered : Aside w w.numbered := { Aside.refl w with }
  have housed := numbered.trans _ _ (aside_withRealm ref.realm y)
  exact housed.unspoken.trans _ (unspoken_issued _ rfl) housed.count

/-- A request that is served is gone when its receiver stops to wait. -/
theorem unspoken_served (orderly : Orderly w) (l : LoopId) (i : ThreadId)
    (owner : w.owner? l = some i) (t : TokenId) (next : w.next? l = some (.serve t, w'))
    (k : Token) (present : w.token? t = some k) (c : Continuation) (x : Realm)
    (source : w.realms[k.source.realm]? = some x) :
    Unspoken w (((w'.resumed k.correlation).surrender k.source x).2.forward t k c
      ((w'.resumed k.correlation).surrender k.source x).1) := by
  obtain ⟨orderly', taken⟩ := orderly.next l i owner _ w' next
  have taking := aside_next l i owner _ next
  obtain ⟨q, rfl⟩ := next_eq l i owner _ w' next
  have resumed := unspoken_resumed orderly' t k present (taken.alone t rfl)
  have given := (orderly'.resumed k.correlation).surrender k.source x source
  obtain ⟨y, left, _⟩ :=
    Act.surrender_eq ((w.withQueue l fun _ => q).resumed k.correlation) k.source x source
  rw [left] at given ⊢
  have housed := aside_withRealm (w := (w.withQueue l fun _ => q).resumed k.correlation)
    k.source.realm y
  have forwarded := unspoken_forward given t k present c
    ((w.withQueue l fun _ => q).resumed k.correlation |>.surrender k.source x).1
  exact taking.unspoken.trans _
    (resumed.trans _ (housed.unspoken.trans _ forwarded housed.count) rfl) taking.count

/-- The moves that are spoken of are a detach and the first receive of a token. -/
theorem Step.unspoken {m : Move} {outcome : Except Halt Answer} (step : Step w m outcome w')
    (orderly : Orderly w) (allowed : m.Allowed w) (stays : ∀ i c, m ≠ .detach i c)
    (again : ∀ i t c k, m = .receive i t c → w.token? t = some k → k.state ≠ .created) :
    Unspoken w w' := by
  by_cases telling : m.isTelling = false
  · exact (step.aside orderly telling).unspoken
  cases step with
  | attachFull i l => exact (Aside.refl w).unspoken
  | attach i l heap globalObject e executors registry current owner few listed =>
    exact unspoken_attached orderly l heap globalObject executors registry current listed
  | detach i c x present thread => exact absurd rfl (stays i c)
  | transferForeign i c ref => exact (Aside.refl w).unspoken
  | transfer i c ref x y present retained => exact unspoken_transferred ref x y
  | transferRefused i c ref x e present refused =>
    have numbered : Aside w w.numbered := { Aside.refl w with }
    exact numbered.unspoken
  | receiveAgain i t c k present claimed => exact (Aside.refl w).unspoken
  | receiveLocal i t c k present created here => exact absurd created (again i t c k rfl present)
  | receiveUnavailable i t c k present created apart gone =>
    exact absurd created (again i t c k rfl present)
  | receiveAsked i t c k present created apart source attached =>
    exact absurd created (again i t c k rfl present)
  | turnIdle l idle => exact (Aside.refl w).unspoken
  | serveDetached l t w' next k present detached =>
    obtain ⟨i, owner⟩ := allowed
    have taking := aside_next l i owner _ next
    obtain ⟨q, rfl⟩ := next_eq l i owner _ w' next
    exact (taking.trans _ _ (aside_withToken t k k.dropped present rfl)).unspoken
  | serveUnregistered l t w' next k present attached gone =>
    obtain ⟨i, owner⟩ := allowed
    have taking := aside_next l i owner _ next
    obtain ⟨q, rfl⟩ := next_eq l i owner _ w' next
    exact (taking.trans _ _ (aside_withToken t k k.dropped present rfl)).unspoken
  | serve l t w' next k present attached c waits x source =>
    obtain ⟨i, owner⟩ := allowed
    exact unspoken_served orderly l i owner t next k present c x source
  | deliver l t r n outcome w' next k present x destination ch reply =>
    obtain ⟨i, owner⟩ := allowed
    have taking := aside_next l i owner _ next
    obtain ⟨_, taken⟩ := orderly.next l i owner _ w' next
    obtain ⟨q, rfl⟩ := next_eq l i owner _ w' next
    obtain ⟨k', _, there, requested, _⟩ := taken.proper
    have same : k = k' := Option.some.inj (present.symm.trans there)
    have claimed : k.state ≠ .created :=
      ((congrArg Token.state same).trans requested).trans_ne nofun
    have settled := unspoken_settled (w := w.withQueue l fun _ => q) t k present claimed r x n ch
      outcome
    exact taking.unspoken.trans _ settled taking.count
  | collect l r w' next x y present collected =>
    obtain ⟨i, owner⟩ := allowed
    exact ((aside_next l i owner _ next).trans _ _ (aside_withRealm r y)).unspoken
  | makeLoop | retain | copy | copyRefused | release | releaseRefused | drop | copyToken | dropToken
  | pollReady | pollWaiting | pollGone | dropRead | dropReady | dropWaiting | dropGone =>
    exact absurd rfl telling

end Membrane.Transfer
