import Membrane.Proofs.Transfer.History
/-!
What becomes of transfers when a thread is detached. Receivers that wait for it learn so once, the
requests that were posted to it come to nothing, and so do the receives that are still to come.
-/

set_option autoImplicit false

namespace Membrane.Transfer

/-- The answer that a move read from a reply. -/
def Record.told? (n : ReplyId) (r : Record) : Option (Except Fault Guest.Ref) :=
  match r.move, r.outcome with
  | .poll _ id, .ok (.read answer) =>
    match r.before.receive? id with
    | some (.waiting m _ _) => if m = n then answer else none
    | _ => none
  | _, _ => none

/-- The answers that were read from a reply. -/
def told (n : ReplyId) (past : List Record) : List (Except Fault Guest.Ref) :=
  past.filterMap (Record.told? n)

/-- What a detach of a thread leaves. -/
structure Leaving (thread : ThreadIndex) (w w' : World) : Prop where
  gone : w'.runtime.isAttached thread = false
  unnamed : ∀ d ∈ w'.runtime.waiting, d.source ≠ thread ∧ d.destination ≠ thread
  others : w'.runtime.waiting =
    w.runtime.waiting.filter fun d => d.source ≠ thread ∧ d.destination ≠ thread
  still : ∀ a, a.thread ≠ thread → (a ∈ w'.runtime.attached ↔ a ∈ w.runtime.attached)
  resumed : ∀ d ∈ w.runtime.waiting, d.source = thread → ∃ ch, w.reply? d.reply = some ch ∧
    (ch.state = .waiting ∧
        w'.reply? d.reply = some ⟨.sent (.error (.threadUnavailable thread)), none⟩ ∨
      ch.state = .abandoned ∧ w'.reply? d.reply = some ch)
  untouched : ∀ n, (∀ d ∈ w.runtime.waiting, d.reply = n → d.source ≠ thread ∧
    d.destination ≠ thread) → w'.reply? n = w.reply? n

variable {w w' : World} {past : List Record} {m : Move} {outcome : Except Halt Answer}

theorem replies_detached (c : Context) (x : Realm) :
    (w.detached c x).replies =
      orphanedReplies c.thread (w.runtime.waiting.filter (Runtime.involves c.thread))
        w.replies := by
  unfold World.detached
  split <;> rfl

theorem Orderly.waiting_once (orderly : Orderly w) : (w.runtime.waiting.map (·.reply)).Nodup :=
  (List.nodup_append.mp orderly.replying.once).1

theorem involves_iff (thread : ThreadIndex) (d : Continuation) :
    Runtime.involves thread d = true ↔ d.source = thread ∨ d.destination = thread := by
  simp only [Runtime.involves, Bool.or_eq_true, beq_iff_eq]

theorem Orderly.leaving (orderly : Orderly w) (c : Context) (x : Realm) :
    Leaving c.thread w (w.detached c x) := by
  have replies := replies_detached (w := w) c x
  refine
    { gone := ?_
      unnamed := fun d member => ((mem_waiting_detached c x d).mp member).2
      others := ?_
      still := fun a apart => ?_
      resumed := fun d member source => ?_
      untouched := fun n apart => ?_ }
  · rw [Bool.eq_false_iff]
    intro attached
    obtain ⟨a, member, same⟩ := (isAttached_iff _ _).mp attached
    exact ((mem_attached_detached c x a).mp member).2 same
  · rw [(runtime_detached c x).2.1]
    refine List.filter_congr fun d _ => ?_
    by_cases named : Runtime.involves c.thread d = true
    · have either := (involves_iff c.thread d).mp named
      rw [named, Bool.not_true, eq_comm, decide_eq_false_iff_not]
      tauto
    · have neither := mt (involves_iff c.thread d).mpr named
      rw [Bool.not_eq_true] at named
      rw [named, Bool.not_false, eq_comm, decide_eq_true_iff]
      tauto
  · rw [mem_attached_detached]
    exact and_iff_left apart
  · obtain ⟨ch, present, pending⟩ := orderly.waiting_reply d member
    have lost : d ∈ w.runtime.waiting.filter (Runtime.involves c.thread) :=
      List.mem_filter.mpr ⟨member, (involves_iff c.thread d).mpr (Or.inl source)⟩
    have once : ((w.runtime.waiting.filter (Runtime.involves c.thread)).map (·.reply)).Nodup :=
      (List.filter_sublist.map _).nodup orderly.waiting_once
    have after : (w.detached c x).reply? d.reply = some (d.orphaned c.thread ch) := by
      rw [World.reply?, replies, orphanedReplies_of_mem c.thread d _ _ once lost]
      exact congrArg (Option.map _) present
    refine ⟨ch, present, pending.imp (fun waits => ⟨waits, ?_⟩) fun abandoned => ⟨abandoned, ?_⟩⟩
    · rw [after]
      simp only [Continuation.orphaned, source, ↓reduceIte, Channel.answer, Channel.isWaiting, waits]
    · rw [after, d.orphaned_of_not_waiting c.thread ch]
      rw [Channel.isWaiting, abandoned]
  · rw [World.reply?, replies, orphanedReplies_of_apart, World.reply?]
    intro d member same
    obtain ⟨waits, named⟩ := List.mem_filter.mp member
    have neither := apart d waits same
    exact ((involves_iff c.thread d).mp named).elim neither.1 neither.2

theorem Orderly.perform_detach (orderly : Orderly w) (i : ThreadId) (c : Context)
    (context : IsContext w c) :
    ∃ v, (Move.detach i c).perform w = (.ok .done, v) ∧ Leaving c.thread w v := by
  obtain ⟨x, present, _, _⟩ := context.exists_realm
  have running := orderly.running i
  have inside : ∀ d ∈ w.runtime.waiting, d.reply < w.replies.size := by
    intro d member
    obtain ⟨ch, there, _⟩ := orderly.waiting_reply d member
    exact (Array.getElem?_eq_some_iff.mp there).1
  have done := Act.exec_detach { w with here := i } c x present running.quiet inside
  have left := running.leaving c x
  refine ⟨_, Move.perform_of_exec _ w _ (World.detached { w with here := i } c x) ?_,
    left.gone, left.unnamed, left.others, left.still, left.resumed, left.untouched⟩
  simp only [Move.thread, Move.act, Act.exec_bind, done, Act.goOn_ok, Act.exec_pure]

/-- Nothing is sent to those who do not wait any longer. -/
def Settles (w w' : World) : Prop :=
  ∀ n ch, w.reply? n = some ch → ch.isWaiting = false → w'.reply? n = some ch

theorem settles_of_same (same : w'.replies = w.replies) : Settles w w' := by
  intro n ch present _
  rw [World.reply?, same]
  exact present

theorem Settles.withReply (n : ReplyId)
    (f : Channel (Except Fault Handle) → Channel (Except Fault Handle))
    (kept : ∀ ch, ch.isWaiting = false → f ch = ch) (same : w'.replies = w.replies.modify n f) :
    Settles w w' := by
  intro j ch present done
  have found : w.replies[j]? = some ch := present
  rw [World.reply?, same, Array.getElem?_modify, found]
  split
  · rw [Option.map_some, kept ch done]
  · rfl

theorem replies_note (w : World) (ref : Guest.Ref) : (w.note ref).replies = w.replies := by
  unfold World.note
  split
  · rfl
  · dsimp only
    split <;> rfl

theorem replies_lost (ref : Guest.Ref) : (w.lost ref).replies = w.replies := by
  unfold World.lost
  split
  · rfl
  · split
    · exact replies_note w ref
    · rfl

theorem replies_dropCopy (t : TokenId) (k : Token) : (w.dropCopy t k).replies = w.replies := by
  unfold World.dropCopy
  split
  · exact replies_note (w.withToken t k.dropped) k.source
  · rfl

theorem replies_surrender (ref : Guest.Ref) (x : Realm) :
    (w.surrender ref x).2.replies = w.replies := by
  unfold World.surrender
  repeat' split
  all_goals rfl

theorem replies_next (l : LoopId) (job : Job) (next : w.next? l = some (job, w')) :
    w'.replies = w.replies := by
  simp only [World.next?, Option.bind_eq_some_iff, Option.map_eq_some_iff] at next
  obtain ⟨_, _, _, _, taken⟩ := next
  cases taken
  rfl

/-- The moves that look at a reply. -/
def Move.isLooking : Move → Bool
  | .poll _ _ | .dropReceive _ _ => true
  | _ => false

theorem Step.settles (step : Step w m outcome w') (blind : m.isLooking = false) :
    Settles w w' := by
  cases step with
  | detach i c x present thread =>
    intro n ch found done
    rw [World.reply?, replies_detached]
    exact orphanedReplies_of_not_waiting c.thread n ch done _ _ found
  | drop i ref x present => exact settles_of_same (replies_lost ref)
  | dropToken i t k present => exact settles_of_same (replies_dropCopy t k)
  | receiveAsked i t c k present created apart source attached =>
    intro n ch found done
    have pushed : (w.asked t k c source).replies = w.replies.push .create := rfl
    have inside : n < w.replies.size := (Array.getElem?_eq_some_iff.mp found).1
    rw [World.reply?, pushed, Array.getElem?_push_lt inside, ← Array.getElem?_eq_getElem]
    exact found
  | serveDetached l t v next k present detached =>
    have before := replies_next l _ next
    exact settles_of_same before
  | serveUnregistered l t v next k present attached gone =>
    have before := replies_next l _ next
    exact settles_of_same before
  | serve l t v next k present attached c waits x source =>
    have taken := replies_next l _ next
    have before : ((v.resumed k.correlation).surrender k.source x).2.replies = w.replies :=
      (replies_surrender k.source x).trans taken
    unfold World.forward
    split
    · apply Settles.withReply c.reply (·.shut) (fun ch => ch.shut_of_not_waiting)
      rw [← before]
      rfl
    · exact settles_of_same before
  | deliver l t r n outcome v next k present x destination ch reply =>
    have before := replies_next l _ next
    unfold World.settled
    cases outcome with
    | error e =>
      refine Settles.withReply n (·.answer (.error e))
        (fun ch => ch.answer_of_not_waiting _) ?_
      rw [← before]
      rfl
    | ok value =>
      refine Settles.withReply n (·.answer (.ok (x.retain value).1))
        (fun ch => ch.answer_of_not_waiting _) ?_
      rw [← before]
      rfl
  | collect l r v next x y present collected =>
    have before := replies_next l _ next
    exact settles_of_same before
  | pollReady | pollWaiting | pollGone | dropRead | dropReady | dropWaiting | dropGone => cases blind
  | _ => exact settles_of_same rfl

/-- A reply that was answered with a failure: the failure is there to be read, or it was read once,
and the receiver may be gone. -/
def Resumes (e : Fault) (n : ReplyId) (later : List Record) (w : World) : Prop :=
  told n later = [] ∧ (w.reply? n = some ⟨.sent (.error e), none⟩ ∨
      w.reply? n = some ⟨.abandoned, none⟩) ∨
    told n later = [.error e] ∧ (w.reply? n = some ⟨.taken, none⟩ ∨
      w.reply? n = some ⟨.abandoned, none⟩)

variable {e : Fault} {n : ReplyId} {later : List Record}

/-- A detach answers those who wait for the thread, or nobody is there any more to be answered. -/
theorem Leaving.resumes (thread : ThreadIndex) (leaving : Leaving thread w w') (d : Continuation)
    (member : d ∈ w.runtime.waiting) (source : d.source = thread) (orderly : Orderly w) :
    Resumes (.threadUnavailable thread) d.reply [] w' := by
  obtain ⟨⟨state, waiter⟩, present, ⟨_, sent⟩ | ⟨abandoned, kept⟩⟩ :=
    leaving.resumed d member source
  · exact Or.inl ⟨rfl, Or.inl sent⟩
  · obtain rfl : waiter = none := orderly.replying.quiet _ _ present
    obtain rfl : state = .abandoned := abandoned
    exact Or.inl ⟨rfl, Or.inr kept⟩

theorem told_cons_of_none (r : Record) (silent : r.told? n = none) :
    told n (r :: later) = told n later := by
  rw [told, List.filterMap_cons, silent, ← told]

theorem told_cons_of_some (r : Record) (answer : Except Fault Guest.Ref)
    (speaks : r.told? n = some answer) : told n (r :: later) = answer :: told n later := by
  rw [told, List.filterMap_cons, speaks, ← told]

/-- What is read of a reply is read by a receive that waits for it. -/
theorem told?_eq_none (u : World)
    (apart : ∀ i id, m = .poll i id → ∀ r l, u.receive? id ≠ some (.waiting n r l)) :
    Record.told? n ⟨u, m, outcome⟩ = none := by
  unfold Record.told?
  split
  · next i id answer same _ =>
    split
    · next k r l there =>
      split
      · next here => exact absurd (here ▸ there) (apart i id same r l)
      · rfl
    · rfl
  · rfl

theorem told?_poll (u : World) (i : ThreadId) (id : ReceiveId) (r : RealmId) (l : LoopId)
    (there : u.receive? id = some (.waiting n r l)) (answer : Option (Except Fault Guest.Ref)) :
    Record.told? n ⟨u, .poll i id, .ok (.read answer)⟩ = answer := by
  simp only [Record.told?, there, ↓reduceIte]

theorem told?_halt (u : World) (h : Halt) : Record.told? n ⟨u, m, .error h⟩ = none := by
  unfold Record.told?
  split
  · next same => cases same
  · rfl

/-- A reply that stays and is not read goes on as it is. -/
theorem Resumes.same (resumes : Resumes e n later w) (r : Record) (silent : r.told? n = none)
    (same : w'.reply? n = w.reply? n) : Resumes e n (r :: later) w' := by
  unfold Resumes
  rw [told_cons_of_none r silent, same]
  exact resumes

/-- A reply whose receiver goes is not read any more. -/
theorem Resumes.left (resumes : Resumes e n later w) (r : Record) (silent : r.told? n = none)
    (left : w'.reply? n = some ⟨.abandoned, none⟩) : Resumes e n (r :: later) w' := by
  unfold Resumes
  rw [told_cons_of_none r silent]
  exact resumes.imp (fun unread => ⟨unread.1, Or.inr left⟩) fun read => ⟨read.1, Or.inr left⟩

theorem Resumes.done (resumes : Resumes e n later w) :
    ∃ ch, w.reply? n = some ch ∧ ch.isWaiting = false := by
  rcases resumes with ⟨_, there | there⟩ | ⟨_, there | there⟩
  all_goals exact ⟨_, there, rfl⟩

/-- The first poll reads the failure, and none after it reads anything. -/
theorem Resumes.polled (resumes : Resumes e n later w) (u : World)
    (same : u.receive? = w.receive?) (i : ThreadId) (id : ReceiveId) (r : RealmId) (l : LoopId)
    (there : w.receive? id = some (.waiting n r l)) (ch : Channel (Except Fault Handle))
    (reply : w.reply? n = some ch) :
    Resumes e n (⟨u, .poll i id, (Receipt.read r (ch.poll none).1).map .read⟩ :: later)
      (w.withReply n fun ch => (ch.poll none).2) := by
  have after := w.reply?_withReply n ch reply (fun ch => (ch.poll none).2)
  have found := congrFun after n
  rw [Function.update_self] at found
  have there' := (congrFun same id).trans there
  rcases resumes with ⟨unread, sent | abandoned⟩ | ⟨read, taken | abandoned⟩
  · obtain rfl := Option.some.inj (reply.symm.trans sent)
    refine Or.inr ⟨?_, Or.inl found⟩
    refine (told_cons_of_some _ (.error e) (told?_poll u i id r l there' _)).trans ?_
    rw [unread]
  · obtain rfl := Option.some.inj (reply.symm.trans abandoned)
    exact Or.inl ⟨(told_cons_of_none _ (told?_halt u _)).trans unread, Or.inr found⟩
  · obtain rfl := Option.some.inj (reply.symm.trans taken)
    exact Or.inr ⟨(told_cons_of_none _ (told?_halt u _)).trans read, Or.inl found⟩
  · obtain rfl := Option.some.inj (reply.symm.trans abandoned)
    exact Or.inr ⟨(told_cons_of_none _ (told?_halt u _)).trans read, Or.inr found⟩

theorem reply?_withReply_of_ne (k : ReplyId) (apart : n ≠ k)
    (f : Channel (Except Fault Handle) → Channel (Except Fault Handle)) :
    (w.withReply k f).reply? n = w.reply? n := by
  rw [World.reply?, World.replies_withReply, if_neg (Ne.symm apart), World.reply?]

theorem Step.resumes (step : Step w m outcome w') (resumes : Resumes e n later w) (u : World)
    (same : u.receive? = w.receive?) : Resumes e n (⟨u, m, outcome⟩ :: later) w' := by
  obtain ⟨ch, present, done⟩ := resumes.done
  by_cases blind : m.isLooking = false
  · have kept := step.settles blind n ch present done
    refine resumes.same _ (told?_eq_none u ?_) (kept.trans present.symm)
    rintro i id rfl
    cases blind
  cases step with
  | pollReady i id answer there =>
    refine resumes.same _ (told?_eq_none u ?_) rfl
    intro j id' same' r l waits
    cases same'
    rw [same, there] at waits
    cases waits
  | pollWaiting i id k r l there ch' reply =>
    by_cases here : n = k
    · subst here
      exact resumes.polled u same i id r l there ch' reply
    · refine resumes.same _ (told?_eq_none u ?_) (reply?_withReply_of_ne k here _)
      intro j id' same' r' l' waits
      cases same'
      rw [same, there] at waits
      cases waits
      exact here rfl
  | pollGone i id gone => exact resumes.same _ (told?_halt u _) rfl
  | dropRead i id answer there empty =>
    exact resumes.same _ (told?_eq_none u fun j id' other => by cases other) rfl
  | dropReady i id ref there =>
    refine resumes.same _ (told?_eq_none u fun j id' other => by cases other) ?_
    rw [World.reply?, replies_lost]
    rfl
  | dropWaiting i id k r l there ch' reply =>
    have silent : Record.told? n ⟨u, .dropReceive i id, .ok .done⟩ = none :=
      told?_eq_none u fun j id' other => by cases other
    by_cases here : n = k
    · subst here
      have after := (w.withReceive id none).reply?_withReply n ch' reply (·.abandon)
      exact resumes.left _ silent ((congrFun after n).trans (Function.update_self ..))
    · exact resumes.same _ silent (reply?_withReply_of_ne (w := w.withReceive id none) k here _)
  | dropGone i id outcome gone harmless =>
    exact resumes.same _ (told?_eq_none u fun j id' other => by cases other) rfl
  | _ => exact absurd rfl blind

/-- A failure is told once, whatever is done after it was sent. -/
theorem Run.resumes {config : Config} {rule : Rule} (later past : List Record)
    (run : Run config rule (later ++ past) w') (w : World)
    (start : ∀ v, Run config rule past v → v = w) (first : Resumes e n [] w) :
    Resumes e n later w' := by
  induction later generalizing w' with
  | nil =>
    obtain rfl := start _ run
    exact first
  | cons r later ih =>
    obtain _ | ⟨m, before, allowed, permitted⟩ := run
    have step := m.step before.orderly allowed
    have known := ih before
    rw [m.perform_eq] at step ⊢
    exact step.resumes known _ rfl

theorem History.unavailable (history : History past w) (thread : ThreadIndex)
    (departed : Departed thread past) : w.runtime.attachment? thread = none := by
  refine List.find?_eq_none.mpr fun a member => ?_
  rw [beq_iff_eq]
  exact (history.departed thread departed).2 a member

/-- A receive from a thread that is gone is answered at once, and nothing else comes of it. -/
theorem History.receive_unavailable (history : History past w) (i : ThreadId) (t : TokenId)
    (c : Context) (k : Token) (present : w.token? t = some k) (departed : Departed k.thread past)
    (apart : c.thread ≠ k.thread) (created : k.state = .created) :
    (Move.receive i t c).perform w = (.ok (.receive w.receives.size),
      (w.withToken t k.claimed).receiving
        (.ready (some (.error (.threadUnavailable k.thread))))) := by
  have done := Act.exec_receive_unavailable { w with here := i } t k present created c apart
    (history.unavailable k.thread departed)
  refine Move.perform_of_exec _ w _ (World.receiving (World.withToken { w with here := i } t
    k.claimed) (.ready (some (.error (.threadUnavailable k.thread))))) ?_
  simp only [Move.thread, Move.act, Act.exec_bind, done, Act.goOn_ok, Act.exec_pure]

theorem receive_again (w : World) (i : ThreadId) (t : TokenId) (c : Context) (k : Token)
    (present : w.token? t = some k) (claimed : k.state ≠ .created) :
    (Move.receive i t c).perform w =
      (.error (.misuse (.doubleReceive k.correlation)), w) := by
  have refused := Act.exec_receive_again { w with here := i } t k present claimed c
  apply Move.perform_of_exec _ w _ { w with here := i }
  simp only [Move.thread, Move.act, Act.exec_bind, refused, Act.goOn_error]

theorem next?_running (w : World) (i : ThreadId) (l : LoopId) (job : Job) (v : World)
    (next : w.next? l = some (job, v)) :
    World.next? { w with here := i } l = some (job, { v with here := i }) := by
  simp only [World.next?, Option.bind_eq_some_iff, Option.map_eq_some_iff] at next ⊢
  obtain ⟨c, present, taken, jobs, same⟩ := next
  refine ⟨c, present, taken, jobs, ?_⟩
  cases same
  rfl

/-- A turn that comes to a request does what serving it does, and ends in the same way. The token is
received and its source is there. -/
theorem Orderly.perform_request (orderly : Orderly w) (l : LoopId) (i : ThreadId)
    (owner : w.owner? l = some i) (t : TokenId) (v : World)
    (next : w.next? l = some (.serve t, v)) (k : Token) (present : w.token? t = some k)
    (outcome : Except Halt Unit)
    (served : ∀ u, World.token? u t = some k → k.state ≠ .created →
      (∃ x, u.realms[k.source.realm]? = some x) → u.runtime = w.runtime →
      Act.exec (Act.serve t) u = (outcome, u.withToken t k.dropped)) :
    (Move.turn l).perform w = (outcome.map fun _ => .done, v.withToken t k.dropped) := by
  have running := next?_running w ((w.owner? l).getD 0) l _ v next
  obtain ⟨q, rfl⟩ := next_eq l i owner _ v next
  obtain ⟨k', _, there, requested, _⟩ := (orderly.next l i owner _ _ next).2.proper
  obtain rfl : k = k' := Option.some.inj (present.symm.trans there)
  obtain ⟨x, source, _⟩ := orderly.exists_source t k present
  have done := served { w.withQueue l (fun _ => q) with here := (w.owner? l).getD 0 } there
    (requested.trans_ne nofun) ⟨x, source⟩ rfl
  refine Move.perform_of_exec _ w _
    (World.withToken { w.withQueue l (fun _ => q) with here := (w.owner? l).getD 0 } t k.dropped) ?_
  simp only [Move.thread, Move.act, Act.exec_bind, Act.exec_turn _ l _ _ running, Act.performJob,
    done]
  cases outcome with
  | error halt => rfl
  | ok done => rfl

/-- A request to a thread that is gone is let go. -/
theorem History.serve_stale (history : History past w) (orderly : Orderly w) (l : LoopId)
    (i : ThreadId) (owner : w.owner? l = some i) (t : TokenId) (v : World)
    (next : w.next? l = some (.serve t, v)) (k : Token) (present : w.token? t = some k)
    (departed : Departed k.thread past) :
    (Move.turn l).perform w = (.ok .done, v.withToken t k.dropped) := by
  have detached : w.runtime.isAttached k.thread = false := by
    rw [Runtime.isAttached, history.unavailable k.thread departed, Option.isSome_none]
  refine orderly.perform_request l i owner t v next k present (.ok ()) ?_
  rintro u there claimed ⟨x, source⟩ same
  exact Act.exec_serve_detached u t k there claimed x source (same ▸ detached)

/-- Whatever threads do in whatever order, receivers wait for threads that are attached. A thread that
is detached leaves nobody that waits for it or on it, and nothing else of those that wait changes:
each that waited for it learns once that it is gone. From then on a receive from it is told so at
once, and a request that was posted to it is let go. -/
theorem departure (config : Config) (past : List Record) (w : World)
    (run : Run config .free past w) :
    (∀ d ∈ w.runtime.waiting, w.runtime.isAttached d.source = true) ∧
    (∀ i c, IsContext w c → ∃ v, (Move.detach i c).perform w = (.ok .done, v) ∧
      Leaving c.thread w v ∧
      ∀ later w', Run config .free (later ++ ⟨w, .detach i c, .ok .done⟩ :: past) w' →
        ∀ d ∈ w.runtime.waiting, d.source = c.thread →
          Resumes (.threadUnavailable c.thread) d.reply later w') ∧
    ∀ t k, w.token? t = some k → Departed k.thread past →
      (∀ i c, c.thread ≠ k.thread → (Move.receive i t c).perform w =
        if k.state = .created then (.ok (.receive w.receives.size),
          (w.withToken t k.claimed).receiving
            (.ready (some (.error (.threadUnavailable k.thread)))))
        else (.error (.misuse (.doubleReceive k.correlation)), w)) ∧
      ∀ l i v, w.owner? l = some i → w.next? l = some (.serve t, v) →
        (∃ q, v = w.withQueue l fun _ => q) ∧
        (Move.turn l).perform w = (.ok .done, v.withToken t k.dropped) := by
  have orderly := run.orderly
  have history := run.history
  refine ⟨?_, ?_, ?_⟩
  · exact fun d member => (isAttached_iff _ _).mpr (orderly.awaited.attached d member)
  · intro i c context
    obtain ⟨v, done, leaving⟩ := orderly.perform_detach i c context
    refine ⟨v, done, leaving, fun later w' after d member source => ?_⟩
    exact Run.resumes later _ after v (fun u before => before.last.trans (congrArg Prod.snd done))
      (leaving.resumes _ d member source orderly)
  · intro t k present departed
    refine ⟨fun i c apart => ?_, fun l i v owner next => ⟨next_eq l i owner _ v next, ?_⟩⟩
    · split
      · next created => exact history.receive_unavailable i t c k present departed apart created
      · next claimed => exact receive_again w i t c k present claimed
    · exact history.serve_stale orderly l i owner t v next k present departed

/-- A thread is detached that another one waits for. -/
theorem departure_asked : let w := (play [] (.create .default) asking).2
    w.runtime.waiting = [⟨1, ⟨0⟩, ⟨1⟩, 0⟩] ∧
      ((Move.detach 0 (contextOf 0)).perform w).2.runtime.waiting = [] ∧
      ((Move.detach 0 (contextOf 0)).perform w).2.reply? 0 =
        some ⟨.sent (.error (.threadUnavailable ⟨0⟩)), none⟩ := by
  intro w
  have run : Run .default .free (play [] (.create .default) asking).1 w :=
    Run.start.play asking (by decide +kernel) (permitted_free _ _ _)
  have waits : w.runtime.waiting = [⟨1, ⟨0⟩, ⟨1⟩, 0⟩] := by decide +kernel
  obtain ⟨v, done, left, _⟩ :=
    (departure .default _ w run).2.1 0 (contextOf 0) (by decide +kernel)
  obtain ⟨ch, there, ⟨_, sent⟩ | ⟨abandoned, _⟩⟩ :=
    left.resumed ⟨1, ⟨0⟩, ⟨1⟩, 0⟩ (by rw [waits]; exact List.mem_singleton_self _) rfl
  · refine ⟨waits, ?_, ?_⟩
    · rw [done, left.others, waits]
      rfl
    · rw [done]
      exact sent
  · have waiting : w.reply? 0 = some ⟨.waiting, none⟩ := by decide +kernel
    rw [waiting] at there
    cases there
    cases abandoned

end Membrane.Transfer
