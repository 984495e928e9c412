import Membrane.Proofs.Transfer.Account
/-!
A job that is posted stays so until a loop takes it. What a realm has noted waits for a collection that
is posted, as long as its thread is attached.
-/

set_option autoImplicit false

namespace Membrane.Transfer

variable {past : List Record} {w w' v u : World} {m : Move} {o : Except Halt Answer}

/-- No job is gone, and a realm that notes something has its collection posted. -/
structure Keeps (w w' : World) : Prop where
  posted : ∀ p ∈ w.posted, p ∈ w'.posted
  noted : ∀ r, noted w' r ≠ 0 → noted w r ≠ 0 ∨ ∃ i, (i, .collect r) ∈ w'.posted

theorem Keeps.trans (v : World) (first : Keeps w v) (second : Keeps v w') : Keeps w w' := by
  refine ⟨fun p member => second.posted p (first.posted p member), fun r some => ?_⟩
  rcases second.noted r some with before | collects
  · exact (first.noted r before).imp_right fun ⟨i, there⟩ => ⟨i, second.posted _ there⟩
  · exact Or.inr collects

theorem keeps_of_same (loops : w'.loops = w.loops) (same : noted w' = noted w) : Keeps w w' := by
  refine ⟨fun p member => ?_, fun r some => Or.inl (same ▸ some)⟩
  rw [World.posted, loops]
  exact member

theorem keeps_withRealm (r : RealmId) (x y : Realm) (present : w.realms[r]? = some x)
    (same : y.finalizers = x.finalizers) : Keeps w (w.withRealm r y) :=
  keeps_of_same rfl (rests_withRealm r x y present same).noted

theorem keeps_withQueue (l : LoopId) (f : EventLoop Job → EventLoop Job)
    (kept : ∀ q, (f q).owner = q.owner ∧ (f q).microtasks = q.microtasks ∧ (f q).inbox = q.inbox) :
    Keeps w (w.withQueue l f) :=
  ⟨fun _ member => (w.posted_withQueue_of_kept l f kept).mem_iff.mpr member,
    fun _ some => Or.inl some⟩

theorem keeps_post (l : LoopId) (job : Job) (i : ThreadId) (owner : w.owner? l = some i) :
    Keeps w (w.post l job) :=
  ⟨fun _ member => (w.posted_post l job i owner).mem_iff.mpr (List.mem_cons_of_mem _ member),
    fun _ some => Or.inl some⟩

/-- What is noted first has its collection posted. What is noted later waits for the same one. -/
theorem keeps_note (orderly : Orderly w) (ref : Guest.Ref) : Keeps w (w.note ref) := by
  unfold World.note
  split
  · exact keeps_of_same rfl rfl
  · next x present =>
    have owner := orderly.housed.owned _ _ (w.place?_of_present ref.realm x present)
    have notes := noted_withRealm ref.realm x (x.scheduleFinalizer ref.handle).2 present
    have elsewhere : ∀ r, r ≠ ref.realm →
        noted (w.withRealm ref.realm (x.scheduleFinalizer ref.handle).2) r = noted w r :=
      fun r apart => by rw [notes, Function.update_of_ne apart]
    have posts := w.withRealm ref.realm (x.scheduleFinalizer ref.handle).2 |>.posted_post x.loop
      (.collect ref.realm) x.owner owner
    dsimp only
    split
    · refine ⟨fun p member => posts.mem_iff.mpr (List.mem_cons_of_mem _ member), fun r some => ?_⟩
      by_cases here : r = ref.realm
      · exact Or.inr ⟨x.owner, here ▸ posts.mem_iff.mpr List.mem_cons_self⟩
      · exact Or.inl (elsewhere r here ▸ some)
    · next more =>
      refine ⟨fun p member => member, fun r some => Or.inl ?_⟩
      by_cases here : r = ref.realm
      · rw [here, noted_of_present ref.realm x present]
        intro empty
        exact more (List.isEmpty_iff.mpr (Multiset.coe_eq_zero _ |>.mp empty))
      · exact elsewhere r here ▸ some

theorem keeps_lost (orderly : Orderly w) (ref : Guest.Ref) : Keeps w (w.lost ref) := by
  unfold World.lost
  split
  · exact keeps_of_same rfl rfl
  · split
    · exact keeps_note orderly ref
    · exact keeps_of_same rfl rfl

theorem keeps_dropCopy (orderly : Orderly w) (t : TokenId) (k : Token)
    (present : w.token? t = some k) : Keeps w (w.dropCopy t k) := by
  have dropped : Keeps w (w.withToken t k.dropped) := keeps_of_same rfl rfl
  have still := orderly.recount t k k.dropped present ⟨rfl, rfl, rfl⟩ rfl
  unfold World.dropCopy
  split
  · exact dropped.trans _ (keeps_note still k.source)
  · exact dropped

theorem keeps_forward (orderly : Orderly w) (t : TokenId) (k : Token) (c : Continuation)
    (outcome : Except Fault Host.Value) : Keeps w (w.forward t k c outcome) := by
  unfold World.forward
  cases destination : w.runtime.attachment? c.destination with
  | none => exact keeps_of_same rfl rfl
  | some d =>
    obtain ⟨member, _⟩ := mem_of_attachment _ _ _ destination
    obtain ⟨p, there, _, loop⟩ := orderly.listed d member
    exact keeps_post d.loop _ p.owner (loop ▸ orderly.housed.owned _ p there)

theorem keeps_settled (t : TokenId) (k : Token) (r : RealmId) (x : Realm)
    (destination : w.realms[r]? = some x) (n : ReplyId) (ch : Channel (Except Fault Handle))
    (outcome : Except Fault Host.Value) : Keeps w (w.settled t k r x n ch outcome) := by
  unfold World.settled
  cases outcome with
  | error e => exact keeps_of_same rfl rfl
  | ok value =>
    have housed := keeps_withRealm r x (x.retainFor ch value) destination (by
      rw [x.retainFor_eq])
    exact housed.trans _ (keeps_of_same rfl rfl)

theorem keeps_served (orderly : Orderly w) (l : LoopId) (i : ThreadId)
    (owner : w.owner? l = some i) (t : TokenId) (next : w.next? l = some (.serve t, v)) (k : Token)
    (c : Continuation) (x : Realm) (source : w.realms[k.source.realm]? = some x) :
    Keeps v (((v.resumed k.correlation).surrender k.source x).2.forward t k c
      ((v.resumed k.correlation).surrender k.source x).1) := by
  obtain ⟨orderly', _⟩ := orderly.next l i owner _ v next
  obtain ⟨q, rfl⟩ := next_eq l i owner _ v next
  let resumed := (w.withQueue l fun _ => q).resumed k.correlation
  have given : Orderly (resumed.surrender k.source x).2 :=
    (orderly'.resumed k.correlation).surrender k.source x source
  obtain ⟨y, left, same⟩ := Act.surrender_eq resumed k.source x source
  rw [left] at given
  rw [left]
  have finalizers : y.finalizers = x.finalizers := by
    rcases same with rfl | released
    · rfl
    · obtain ⟨t', _, rfl⟩ := x.release_eq_ok y k.source.handle released
      rfl
  have housed : Keeps resumed (resumed.withRealm k.source.realm y) :=
    keeps_withRealm k.source.realm x y source finalizers
  have taking : Keeps (w.withQueue l fun _ => q) resumed := keeps_of_same rfl rfl
  exact (taking.trans _ housed).trans _ (keeps_forward given t k c _)

/-- Besides the job that a loop takes, every job stays. -/
theorem Step.keeps (step : Step w m o w') (orderly : Orderly w) (allowed : m.Allowed w) :
    (∃ l job v, m = .turn l ∧ w.next? l = some (job, v) ∧ Keeps v w') ∨ Keeps w w' := by
  have same : Keeps w w := keeps_of_same rfl rfl
  cases step with
  | makeLoop i clock =>
    refine Or.inr ⟨fun p member => ?_, fun r some => Or.inl some⟩
    simpa only [World.posted, World.looped, Array.toList_push, List.flatMap_append,
      List.flatMap_singleton, World.postedOn, EventLoop.empty, List.append_nil, List.map_nil]
      using member
  | attach i l heap globalObject e executors registry current owner few listed =>
    have staffed : Keeps w (w.staffed heap executors registry current) := keeps_of_same rfl rfl
    exact Or.inr (staffed.trans _
      (keeps_of_same rfl (rests_joined (w.newRealm l globalObject) rfl l).noted))
  | detach i c x present thread =>
    exact Or.inr (keeps_of_same (runtime_detached c x).2.2.2.2 (rests_detached c x).noted)
  | retain i r v x present => exact Or.inr (keeps_withRealm r x _ present rfl)
  | copy i ref x y present retained =>
    obtain ⟨t, _, rfl⟩ := x.retainHandle_eq_ok y ref.handle retained
    exact Or.inr (keeps_withRealm ref.realm x _ present rfl)
  | release i ref x y present released =>
    obtain ⟨t, _, rfl⟩ := x.release_eq_ok y ref.handle released
    exact Or.inr (keeps_withRealm ref.realm x _ present rfl)
  | drop i ref x present => exact Or.inr (keeps_lost orderly ref)
  | transfer i c ref x y present retained =>
    obtain ⟨t, _, rfl⟩ := x.retainHandle_eq_ok y ref.handle retained
    have numbered : Keeps w w.numbered := keeps_of_same rfl rfl
    have housed := numbered.trans _ (keeps_withRealm ref.realm x { x with table := t } present rfl)
    exact Or.inr (housed.trans _ (keeps_of_same rfl rfl))
  | dropToken i t k present => exact Or.inr (keeps_dropCopy orderly t k present)
  | receiveAsked i t c k present created apart source attached =>
    obtain ⟨j, posts⟩ := posted_asked orderly t k present c source attached
    exact Or.inr ⟨fun p member => posts.mem_iff.mpr (List.mem_cons_of_mem _ member),
      fun r some => Or.inl some⟩
  | dropReady i id ref present =>
    have gone : Keeps w (w.withReceive id none) := keeps_of_same rfl rfl
    exact Or.inr (gone.trans _
      (keeps_lost (orderly.withReceive id _ present _ (Or.inl rfl)) ref))
  | dropWaiting i id n r l present ch reply =>
    have left : Keeps w ((w.withReceive id none).withReply n (·.abandon)) := keeps_of_same rfl rfl
    exact Or.inr (left.trans _ (keeps_withQueue l (·.letGo) fun q => ⟨rfl, rfl, rfl⟩))
  | serveDetached l t v next | serveUnregistered l t v next =>
    exact Or.inl ⟨l, _, v, rfl, next, keeps_of_same rfl rfl⟩
  | serve l t v next k present attached c waits x source =>
    obtain ⟨i, owner⟩ := allowed
    exact Or.inl ⟨l, _, v, rfl, next, keeps_served orderly l i owner t next k c x source⟩
  | deliver l t r n outcome v next k present x destination ch reply =>
    obtain ⟨i, owner⟩ := allowed
    obtain ⟨q, rfl⟩ := next_eq l i owner _ v next
    exact Or.inl ⟨l, _, _, rfl, next,
      keeps_settled (w := w.withQueue l fun _ => q) t k r x destination n ch outcome⟩
  | collect l r v next x y present collected =>
    obtain ⟨i, owner⟩ := allowed
    obtain ⟨q, rfl⟩ := next_eq l i owner _ v next
    refine Or.inl ⟨l, _, _, rfl, next, ?_⟩
    rcases collected_cases x y _ collected with rfl | rfl
    · exact keeps_withRealm (w := w.withQueue l fun _ => q) r y y present rfl
    · refine ⟨fun p member => member, fun s some => Or.inl ?_⟩
      rw [noted_withRealm (w := w.withQueue l fun _ => q) r x _ present, Function.update_apply,
        x.collect_eq] at some
      split at some
      · exact absurd rfl some
      · exact some
  | _ => exact Or.inr (keeps_of_same rfl rfl)

/-- A job stays posted until a loop takes it. -/
theorem Step.posted (step : Step w m o w') (orderly : Orderly w) (allowed : m.Allowed w)
    (p : ThreadId × Job) (member : p ∈ w.posted) :
    p ∈ w'.posted ∨ ∃ l, m = .turn l ∧ w.job? l = some p.2 := by
  rcases step.keeps orderly allowed with ⟨l, job, v, rfl, next, kept⟩ | kept
  · obtain ⟨i, owner⟩ := allowed
    rcases List.mem_cons.mp ((w.posted_next l i owner job v next).1.mem_iff.mp member) with
      rfl | rest
    · exact Or.inr ⟨l, rfl, w.job?_of_next l job v next⟩
    · exact Or.inl (kept.posted p rest)
  · exact Or.inl (kept.posted p member)

/-- The realm of a thread that is attached is there to collect. -/
theorem holdsRealm_of_attached (a : Attachment) (member : a ∈ w.runtime.attached) :
    w.holdsRealm a.realm = true := by
  have listed : a.realm ∈ w.runtime.attached.map (·.realm) := List.mem_map_of_mem member
  rw [World.holdsRealm, List.contains_iff_mem, World.heldRealms]
  simp only [List.mem_append, listed, or_true, true_or]

/-- The collection of a realm whose thread is attached gives back all that was noted. -/
theorem Step.collects (l : LoopId) (step : Step w (.turn l) o w') (allowed : (Move.turn l).Allowed w)
    (a : Attachment) (member : a ∈ w.runtime.attached)
    (job : w.job? l = some (.collect a.realm)) :
    ∃ q x, w.realms[a.realm]? = some x ∧
      w' = (w.withQueue l fun _ => q).withRealm a.realm x.collect.2 := by
  obtain ⟨u, taken⟩ := w.exists_next l _ job
  cases step with
  | turnIdle l idle => rw [idle] at taken; cases taken
  | serveDetached l t v other | serveUnregistered l t v other | serve l t v other
    | deliver l t r n outcome v other => rw [other] at taken; cases taken
  | collect l r v next x y present collected =>
    rw [next] at taken
    cases taken
    obtain ⟨i, owner⟩ := allowed
    obtain ⟨q, rfl⟩ := next_eq l i owner _ _ next
    have held : (w.withQueue l fun _ => q).holdsRealm a.realm = true :=
      holdsRealm_of_attached a member
    rw [held, if_pos rfl] at collected
    exact ⟨q, x, present, by rw [collected]⟩

/-- What the realms of attached threads have noted waits for a collection. -/
def Waits (w : World) : Prop :=
  ∀ a ∈ w.runtime.attached, noted w a.realm ≠ 0 → ∃ i, (i, .collect a.realm) ∈ w.posted

theorem Step.waits (step : Step w m o w') (waits : Waits w) (orderly : Orderly w)
    (history : History past w) (allowed : m.Allowed w) : Waits w' := by
  intro a member some
  have former : (noted w a.realm ≠ 0) ∨ ∃ i, (i, .collect a.realm) ∈ w'.posted := by
    rcases step.keeps orderly allowed with ⟨l, job, v, rfl, next, kept⟩ | kept
    · obtain ⟨i, owner⟩ := allowed
      obtain ⟨q, rfl⟩ := next_eq l i owner _ v next
      exact kept.noted a.realm some
    · exact kept.noted a.realm some
  rcases former with before | collects
  · have old : a ∈ w.runtime.attached := by
      refine ((step.newcomers orderly history allowed).2 a member).resolve_right fun new => ?_
      obtain ⟨p, there, thread, _⟩ := (step.orderly orderly allowed).listed a member
      have number := (step.orderly orderly allowed).housed.numbered _ p there
      rw [thread, new] at number
      refine before ?_
      rw [noted, ← number, Array.getElem?_eq_none (Nat.le_refl _)]
      rfl
    obtain ⟨i, posted⟩ := waits a old before
    rcases step.posted orderly allowed _ posted with stays | ⟨l, rfl, job⟩
    · exact ⟨i, stays⟩
    · obtain ⟨q, x, present, rfl⟩ := step.collects l allowed a old job
      rw [noted_collected (w := w.withQueue l fun _ => q) a.realm x present, Function.update_self]
        at some
      exact absurd rfl some
  · exact collects

theorem Run.waits {config : Config} {rule : Rule} (run : Run config rule past w) : Waits w := by
  induction run with
  | start => exact fun a member => absurd member List.not_mem_nil
  | step m run allowed permitted ih =>
    have step := m.step run.orderly allowed
    rw [m.perform_eq] at step ⊢
    exact step.waits ih (run.orderly.running _) (run.history.running _) allowed

end Membrane.Transfer
