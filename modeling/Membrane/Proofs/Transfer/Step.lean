import Membrane.Proofs.Transfer.Run
/-!
What a move comes to, case by case. Everything else that is said of moves is read off these cases.
-/

set_option autoImplicit false

namespace Membrane

namespace World

variable (w : World)

/-- There is one more loop, of the running thread. -/
def looped (clock : Clock) : World :=
  { w with loops := w.loops.push ⟨.empty w.here, clock, []⟩ }

end World

namespace Transfer

/-- A move of the running thread with its outcome and the world after it. -/
inductive Step (w : World) : Move → Except Halt Answer → World → Prop
  | makeLoop (i : ThreadId) (clock : Clock) :
      Step w (.makeLoop i) (.ok (.loop w.loops.size)) (w.looped clock)
  | attachFull (i : ThreadId) (l : LoopId) : Step w (.attach i l) (.error .noRoom) w
  | attach (i : ThreadId) (l : LoopId) (heap : Host.Heap) (globalObject : ObjectId)
      (e : ExecutorId) (executors : Array Executor) (registry : List (ThreadId × ExecutorId))
      (current : List (ThreadId × Context)) (owner : w.owner? l = some w.here)
      (few : w.realms.size + 1 < 2 ^ 32) (listed : ∀ p ∈ registry, p.2 < executors.size) :
      Step w (.attach i l)
        (.ok (.context ⟨⟨w.runtime.nextThread⟩, w.realms.size, e, l⟩))
        ((w.staffed heap executors registry current).joined (w.newRealm l globalObject) l)
  | detach (i : ThreadId) (c : Context) (x : Realm) (present : w.realms[c.realm]? = some x)
      (thread : x.thread = c.thread) : Step w (.detach i c) (.ok .done) (w.detached c x)
  | retain (i : ThreadId) (r : RealmId) (v : Host.Value) (x : Realm)
      (present : w.realms[r]? = some x) :
      Step w (.retain i r v) (.ok (.ref (.ok ⟨r, (x.retain v).1⟩)))
        (w.withRealm r (x.retain v).2)
  | copy (i : ThreadId) (ref : Guest.Ref) (x y : Realm) (present : w.realms[ref.realm]? = some x)
      (retained : x.retainHandle ref.handle = .ok y) :
      Step w (.copy i ref) (.ok (.ref (.ok ref))) (w.withRealm ref.realm y)
  | copyRefused (i : ThreadId) (ref : Guest.Ref) (x : Realm) (e : Fault)
      (present : w.realms[ref.realm]? = some x) (refused : x.retainHandle ref.handle = .error e) :
      Step w (.copy i ref) (.ok (.ref (.error e))) w
  | release (i : ThreadId) (ref : Guest.Ref) (x y : Realm)
      (present : w.realms[ref.realm]? = some x) (released : x.release ref.handle = .ok y) :
      Step w (.release i ref) (.ok (.released (.ok ()))) (w.withRealm ref.realm y)
  | releaseRefused (i : ThreadId) (ref : Guest.Ref) (x : Realm) (e : Fault)
      (present : w.realms[ref.realm]? = some x) (refused : x.release ref.handle = .error e) :
      Step w (.release i ref) (.ok (.released (.error e))) w
  | drop (i : ThreadId) (ref : Guest.Ref) (x : Realm) (present : w.realms[ref.realm]? = some x) :
      Step w (.drop i ref) (.ok .done) (w.lost ref)
  | transferForeign (i : ThreadId) (c : Context) (ref : Guest.Ref) :
      Step w (.transfer i c ref)
        (.ok (.token (.error (.invalidReference ref.handle .transferAcross)))) w
  | transfer (i : ThreadId) (c : Context) (ref : Guest.Ref) (x y : Realm)
      (present : w.realms[ref.realm]? = some x)
      (retained : x.retainHandle ref.handle = .ok y) :
      Step w (.transfer i c ref) (.ok (.token (.ok w.tokens.size)))
        ((w.numbered.withRealm ref.realm y).issued
          ⟨ref, x.thread, w.runtime.nextCorrelation, .created, 1⟩)
  | transferRefused (i : ThreadId) (c : Context) (ref : Guest.Ref) (x : Realm) (e : Fault)
      (present : w.realms[ref.realm]? = some x) (refused : x.retainHandle ref.handle = .error e) :
      Step w (.transfer i c ref) (.ok (.token (.error e))) w.numbered
  | copyToken (i : ThreadId) (t : TokenId) (k : Token) (present : w.token? t = some k) :
      Step w (.copyToken i t) (.ok .done) (w.withToken t k.copied)
  | dropToken (i : ThreadId) (t : TokenId) (k : Token) (present : w.token? t = some k) :
      Step w (.dropToken i t) (.ok .done) (w.dropCopy t k)
  | receiveAgain (i : ThreadId) (t : TokenId) (c : Context) (k : Token)
      (present : w.token? t = some k) (claimed : k.state ≠ .created) :
      Step w (.receive i t c) (.error (.misuse (.doubleReceive k.correlation))) w
  | receiveLocal (i : ThreadId) (t : TokenId) (c : Context) (k : Token)
      (present : w.token? t = some k) (created : k.state = .created) (here : c.thread = k.thread) :
      Step w (.receive i t c) (.ok (.receive w.receives.size))
        ((w.withToken t k.fulfilled).receiving (.ready (some (.ok k.source))))
  | receiveUnavailable (i : ThreadId) (t : TokenId) (c : Context) (k : Token)
      (present : w.token? t = some k) (created : k.state = .created) (apart : c.thread ≠ k.thread)
      (gone : w.runtime.attachment? k.thread = none) :
      Step w (.receive i t c) (.ok (.receive w.receives.size))
        ((w.withToken t k.claimed).receiving
          (.ready (some (.error (.threadUnavailable k.thread)))))
  | receiveAsked (i : ThreadId) (t : TokenId) (c : Context) (k : Token)
      (present : w.token? t = some k) (created : k.state = .created) (apart : c.thread ≠ k.thread)
      (source : Attachment) (attached : w.runtime.attachment? k.thread = some source) :
      Step w (.receive i t c) (.ok (.receive w.receives.size)) (w.asked t k c source)
  | pollReady (i : ThreadId) (id : ReceiveId) (answer : Option (Except Fault Guest.Ref))
      (present : w.receive? id = some (.ready answer)) :
      Step w (.poll i id) (.ok (.read (some (answer.getD (.error .transferAborted)))))
        (w.withReceive id (some (.ready none)))
  | pollWaiting (i : ThreadId) (id : ReceiveId) (n : ReplyId) (r : RealmId) (l : LoopId)
      (present : w.receive? id = some (.waiting n r l)) (ch : Channel (Except Fault Handle))
      (reply : w.reply? n = some ch) :
      Step w (.poll i id) ((Receipt.read r (ch.poll none).1).map .read)
        (w.withReply n fun ch => (ch.poll none).2)
  | pollGone (i : ThreadId) (id : ReceiveId) (gone : w.receive? id = none) :
      Step w (.poll i id) (.error .missing) w
  | dropRead (i : ThreadId) (id : ReceiveId) (answer : Option (Except Fault Guest.Ref))
      (present : w.receive? id = some (.ready answer)) (empty : ∀ ref, answer ≠ some (.ok ref)) :
      Step w (.dropReceive i id) (.ok .done) (w.withReceive id none)
  | dropReady (i : ThreadId) (id : ReceiveId) (ref : Guest.Ref)
      (present : w.receive? id = some (.ready (some (.ok ref)))) :
      Step w (.dropReceive i id) (.ok .done) ((w.withReceive id none).lost ref)
  | dropWaiting (i : ThreadId) (id : ReceiveId) (n : ReplyId) (r : RealmId) (l : LoopId)
      (present : w.receive? id = some (.waiting n r l)) (ch : Channel (Except Fault Handle))
      (reply : w.reply? n = some ch) :
      Step w (.dropReceive i id) (.ok .done)
        (((w.withReceive id none).withReply n (·.abandon)).withQueue l (·.letGo))
  | dropGone (i : ThreadId) (id : ReceiveId) (outcome : Except Halt Answer)
      (gone : w.receive? id = none) (harmless : outcome = .ok .done ∨ outcome = .error .missing) :
      Step w (.dropReceive i id) outcome w
  | turnIdle (l : LoopId) (idle : w.next? l = none) : Step w (.turn l) (.ok .done) w
  | serveDetached (l : LoopId) (t : TokenId) (w' : World)
      (next : w.next? l = some (.serve t, w')) (k : Token) (present : w.token? t = some k)
      (detached : w.runtime.isAttached k.thread = false) :
      Step w (.turn l) (.ok .done) (w'.withToken t k.dropped)
  | serveUnregistered (l : LoopId) (t : TokenId) (w' : World)
      (next : w.next? l = some (.serve t, w')) (k : Token) (present : w.token? t = some k)
      (attached : w.runtime.isAttached k.thread = true)
      (gone : w.runtime.waiting.find? (·.correlation == k.correlation) = none) :
      Step w (.turn l) (.error (.misuse (.unregisteredContinuation k.correlation)))
        (w'.withToken t k.dropped)
  | serve (l : LoopId) (t : TokenId) (w' : World) (next : w.next? l = some (.serve t, w'))
      (k : Token) (present : w.token? t = some k)
      (attached : w.runtime.isAttached k.thread = true) (c : Continuation)
      (waits : w.runtime.waiting.find? (·.correlation == k.correlation) = some c) (x : Realm)
      (source : w.realms[k.source.realm]? = some x) :
      Step w (.turn l) (.ok .done)
        (((w'.resumed k.correlation).surrender k.source x).2.forward t k c
          ((w'.resumed k.correlation).surrender k.source x).1)
  | deliver (l : LoopId) (t : TokenId) (r : RealmId) (n : ReplyId)
      (outcome : Except Fault Host.Value) (w' : World)
      (next : w.next? l = some (.deliver t r n outcome, w')) (k : Token)
      (present : w.token? t = some k) (x : Realm) (destination : w.realms[r]? = some x)
      (ch : Channel (Except Fault Handle)) (reply : w.reply? n = some ch) :
      Step w (.turn l) (.ok .done) (w'.settled t k r x n ch outcome)
  | collect (l : LoopId) (r : RealmId) (w' : World) (next : w.next? l = some (.collect r, w'))
      (x y : Realm) (present : w.realms[r]? = some x)
      (collected : y = if w'.holdsRealm r then x.collect.2 else x) :
      Step w (.turn l) (.ok .done) (w'.withRealm r y)

/-- A collection of a realm gives back what was noted, or finds the realm gone. -/
theorem collected_cases (x y : Realm) (held : Bool)
    (collected : y = if held then x.collect.2 else x) : y = x ∨ y = x.collect.2 := by
  cases held with
  | false => exact Or.inl collected
  | true => exact Or.inr collected

variable {w : World}

/-- A context stands for a realm that is there. -/
theorem IsContext.exists_realm (c : Context) (context : IsContext w c) :
    ∃ x, w.realms[c.realm]? = some x ∧ x.thread = c.thread ∧ x.loop = c.loop := by
  obtain ⟨p, there, thread, loop⟩ := context
  obtain ⟨x, present, rfl⟩ := (w.place?_eq_some_iff _ p).mp there
  exact ⟨x, present, thread, loop⟩

theorem Owns.exists_realm (i : ThreadId) (r : RealmId) (owns : Owns w i r) :
    ∃ x, w.realms[r]? = some x ∧ x.owner = i := by
  obtain ⟨p, there, owner⟩ := owns
  obtain ⟨x, present, rfl⟩ := (w.place?_eq_some_iff _ p).mp there
  exact ⟨x, present, owner⟩

theorem Orderly.quiet (orderly : Orderly w) : w.Quiet := orderly.replying.quiet

theorem Orderly.waiting_reply (orderly : Orderly w) (c : Continuation)
    (member : c ∈ w.runtime.waiting) :
    ∃ ch, w.reply? c.reply = some ch ∧ (ch.state = .waiting ∨ ch.state = .abandoned) :=
  orderly.replying.pending c.reply (List.mem_append_left _ (List.mem_map_of_mem member))

theorem Orderly.exists_source (orderly : Orderly w) (t : TokenId) (k : Token)
    (present : w.token? t = some k) :
    ∃ x, w.realms[k.source.realm]? = some x ∧ x.thread = k.thread := by
  obtain ⟨p, there, thread⟩ := orderly.issued.housed t k present
  obtain ⟨x, source, rfl⟩ := (w.place?_eq_some_iff _ p).mp there
  exact ⟨x, source, thread⟩

theorem step_attach (orderly : Orderly w) (i : ThreadId) (l : LoopId)
    (owner : w.owner? l = some w.here) (few : w.realms.size + 1 < 2 ^ 32) :
    Step w (.attach i l) ((Move.attach i l).act.exec w).1 ((Move.attach i l).act.exec w).2 := by
  rcases Act.exec_attach w l orderly.registered with full |
    ⟨heap, globalObject, e, executors, registry, done, -, listed⟩
  · simp only [Move.act, Act.exec_bind, full, Act.goOn_error]
    exact .attachFull i l
  · simp only [Move.act, Act.exec_bind, done, Act.goOn_ok, Act.exec_pure]
    exact .attach i l heap globalObject e executors registry _ owner few listed

theorem step_detach (orderly : Orderly w) (i : ThreadId) (c : Context) (context : IsContext w c) :
    Step w (.detach i c) ((Move.detach i c).act.exec w).1 ((Move.detach i c).act.exec w).2 := by
  obtain ⟨x, present, thread, _⟩ := context.exists_realm
  have inside : ∀ d ∈ w.runtime.waiting, d.reply < w.replies.size := by
    intro d member
    obtain ⟨ch, there, _⟩ := orderly.waiting_reply d member
    exact (Array.getElem?_eq_some_iff.mp there).1
  simp only [Move.act, Act.exec_bind, Act.exec_detach w c x present orderly.quiet inside,
    Act.goOn_ok, Act.exec_pure]
  exact .detach i c x present thread

theorem step_copy (i : ThreadId) (ref : Guest.Ref) (owns : Owns w w.here ref.realm) :
    Step w (.copy i ref) ((Move.copy i ref).act.exec w).1 ((Move.copy i ref).act.exec w).2 := by
  obtain ⟨x, present, owner⟩ := owns.exists_realm
  simp only [Move.act, Act.exec_bind, Act.copyRef, Act.exec_retainHandle w _ x present owner]
  cases result : x.retainHandle ref.handle with
  | ok y => exact .copy i ref x y present result
  | error e => exact .copyRefused i ref x e present result

theorem step_release (i : ThreadId) (ref : Guest.Ref) (owns : Owns w w.here ref.realm) :
    Step w (.release i ref) ((Move.release i ref).act.exec w).1
      ((Move.release i ref).act.exec w).2 := by
  obtain ⟨x, present, owner⟩ := owns.exists_realm
  simp only [Move.act, Act.exec_bind, Act.releaseRef, Act.exec_release w _ x present owner]
  cases result : x.release ref.handle with
  | ok y => exact .release i ref x y present result
  | error e => exact .releaseRefused i ref x e present result

theorem step_transfer (i : ThreadId) (c : Context) (ref : Guest.Ref)
    (owns : Owns w w.here ref.realm) :
    Step w (.transfer i c ref) ((Move.transfer i c ref).act.exec w).1
      ((Move.transfer i c ref).act.exec w).2 := by
  obtain ⟨x, present, owner⟩ := owns.exists_realm
  by_cases own : x.thread = c.thread
  · simp only [Move.act, Act.exec_bind, Act.exec_transfer w c ref x present own owner]
    cases result : x.retainHandle ref.handle with
    | ok y => exact .transfer i c ref x y present result
    | error e => exact .transferRefused i c ref x e present result
  · simp only [Move.act, Act.exec_bind, Act.exec_transfer_foreign w c ref x present own,
      Act.goOn_ok, Act.exec_pure]
    exact .transferForeign i c ref

theorem step_receive (i : ThreadId) (t : TokenId) (c : Context) (k : Token)
    (present : w.token? t = some k) :
    Step w (.receive i t c) ((Move.receive i t c).act.exec w).1
      ((Move.receive i t c).act.exec w).2 := by
  by_cases created : k.state = .created
  · by_cases here : c.thread = k.thread
    · simp only [Move.act, Act.exec_bind, Act.exec_receive_local w t k present created c here,
        Act.goOn_ok, Act.exec_pure]
      exact .receiveLocal i t c k present created here
    · cases source : w.runtime.attachment? k.thread with
      | none =>
        simp only [Move.act, Act.exec_bind,
          Act.exec_receive_unavailable w t k present created c here source, Act.goOn_ok,
          Act.exec_pure]
        exact .receiveUnavailable i t c k present created here source
      | some a =>
        simp only [Move.act, Act.exec_bind,
          Act.exec_receive_asked w t k present created c here a source, Act.goOn_ok, Act.exec_pure]
        exact .receiveAsked i t c k present created here a source
  · simp only [Move.act, Act.exec_bind, Act.exec_receive_again w t k present created c,
      Act.goOn_error]
    exact .receiveAgain i t c k present created

theorem step_poll (orderly : Orderly w) (i : ThreadId) (id : ReceiveId) :
    Step w (.poll i id) ((Move.poll i id).act.exec w).1 ((Move.poll i id).act.exec w).2 := by
  cases there : w.receive? id with
  | none =>
    have gone := (w.receive?_eq_none_iff id).mp there
    simp only [Move.act, Act.exec_bind, Act.exec_pollReceive_gone w id gone none, Act.goOn_error]
    exact .pollGone i id there
  | some x =>
    have present := (w.receive?_eq_some_iff id x).mp there
    cases x with
    | ready answer =>
      simp only [Move.act, Act.exec_bind, Act.exec_pollReceive_ready w id answer present,
        Act.goOn_ok, Act.exec_pure]
      exact .pollReady i id answer there
    | waiting n r l =>
      obtain ⟨ch, reply⟩ := orderly.received.waits id n r l there
      have step := Step.pollWaiting i id n r l there ch reply
      simp only [Move.act, Act.exec_bind, Act.exec_pollReceive_waiting w id n r l present ch reply]
      rcases seen : Receipt.read r (ch.poll none).1 with halt | a
      · rw [seen] at step
        exact step
      · rw [seen] at step
        exact step

theorem step_dropReceive (orderly : Orderly w) (i : ThreadId) (id : ReceiveId) :
    Step w (.dropReceive i id) ((Move.dropReceive i id).act.exec w).1
      ((Move.dropReceive i id).act.exec w).2 := by
  cases there : w.receive? id with
  | none =>
    have gone := (w.receive?_eq_none_iff id).mp there
    rcases Act.exec_dropReceive_gone w id gone with done | missing
    · simp only [Move.act, Act.exec_bind, done, Act.goOn_ok, Act.exec_pure]
      exact .dropGone i id _ there (Or.inl rfl)
    · simp only [Move.act, Act.exec_bind, missing, Act.goOn_error]
      exact .dropGone i id _ there (Or.inr rfl)
  | some x =>
    have present := (w.receive?_eq_some_iff id x).mp there
    cases x with
    | ready answer =>
      have homes : ∀ ref, answer = some (.ok ref) → ∃ x, w.realms[ref.realm]? = some x := by
        rintro ref rfl
        obtain ⟨p, home⟩ := orderly.received.housed id ref there
        obtain ⟨x, realm, _⟩ := (w.place?_eq_some_iff _ p).mp home
        exact ⟨x, realm⟩
      simp only [Move.act, Act.exec_bind, Act.exec_dropReceive_ready w id answer present homes,
        Act.goOn_ok, Act.exec_pure]
      rcases answer with _ | (e | ref)
      · exact .dropRead i id none there fun ref other => by cases other
      · exact .dropRead i id (some (.error e)) there fun ref other => by cases other
      · exact .dropReady i id ref there
    | waiting n r l =>
      obtain ⟨ch, reply⟩ := orderly.received.waits id n r l there
      simp only [Move.act, Act.exec_bind,
        Act.exec_dropReceive_waiting w id n r l present ch reply, Act.goOn_ok, Act.exec_pure]
      exact .dropWaiting i id n r l there ch reply

/-- The world in which a job is carried out that was taken from its loop. -/
theorem next_eq (l : LoopId) (i : ThreadId) (owner : w.owner? l = some i) (job : Job)
    (w' : World) (next : w.next? l = some (job, w')) : ∃ q, w' = w.withQueue l fun _ => q :=
  (w.posted_next l i owner job w' next).2.2

theorem step_serve (orderly : Orderly w) (l : LoopId) (owner : w.owner? l = some w.here)
    (t : TokenId) (w' : World) (next : w.next? l = some (.serve t, w')) :
    Step w (.turn l) ((Move.turn l).act.exec w).1 ((Move.turn l).act.exec w).2 := by
  obtain ⟨orderly', taken⟩ := orderly.next l _ owner _ w' next
  obtain ⟨q, same⟩ := next_eq l _ owner _ w' next
  obtain ⟨k, p, present, requested, there, runner⟩ := taken.proper
  obtain ⟨x, source, rfl⟩ := (w'.place?_eq_some_iff _ p).mp there
  have claimed : k.state ≠ .created := requested.trans_ne nofun
  have here : w'.here = w.here := by rw [same]; rfl
  have runtime : w'.runtime = w.runtime := by rw [same]; rfl
  have present' : w.token? t = some k := by rw [same] at present; exact present
  have source' : w.realms[k.source.realm]? = some x := by rw [same] at source; exact source
  simp only [Move.act, Act.exec_bind, Act.exec_turn w l _ w' next, Act.performJob]
  cases attached : w.runtime.isAttached k.thread with
  | false =>
    rw [Act.exec_serve_detached w' t k present claimed x source (by rw [runtime, attached])]
    exact .serveDetached l t w' next k present' attached
  | true =>
    cases waits : w.runtime.waiting.find? (·.correlation == k.correlation) with
    | none =>
      rw [Act.exec_serve_unregistered w' t k present claimed x source (by rw [runtime, attached])
        (by rw [runtime, waits])]
      exact .serveUnregistered l t w' next k present' attached waits
    | some c =>
      have member : c ∈ w'.runtime.waiting := by
        rw [runtime]
        exact List.mem_of_find?_eq_some waits
      obtain ⟨ch, reply, _⟩ := orderly'.waiting_reply c member
      rw [Act.exec_serve w' t k present claimed x source (by rw [here]; exact runner)
        (by rw [runtime, attached]) c (by rw [runtime, waits]) ch reply (orderly'.quiet _ ch reply)]
      exact .serve l t w' next k present' attached c waits x source'

theorem step_deliver (orderly : Orderly w) (l : LoopId) (owner : w.owner? l = some w.here)
    (t : TokenId) (r : RealmId) (n : ReplyId) (outcome : Except Fault Host.Value) (w' : World)
    (next : w.next? l = some (.deliver t r n outcome, w')) :
    Step w (.turn l) ((Move.turn l).act.exec w).1 ((Move.turn l).act.exec w).2 := by
  obtain ⟨orderly', taken⟩ := orderly.next l _ owner _ w' next
  obtain ⟨q, same⟩ := next_eq l _ owner _ w' next
  obtain ⟨k, p, present, requested, _, there, runner⟩ := taken.proper
  obtain ⟨x, destination, rfl⟩ := (w'.place?_eq_some_iff _ p).mp there
  obtain ⟨s, source, _⟩ := orderly'.exists_source t k present
  obtain ⟨_, ch, reply, _⟩ := taken.sender n rfl
  have here : w'.here = w.here := by rw [same]; rfl
  have quiet := orderly'.quiet n ch reply
  have step := Step.deliver l t r n outcome w' next k (by rw [same] at present; exact present) x
    (by rw [same] at destination; exact destination) ch (by rw [same] at reply; exact reply)
  simp only [Move.act, Act.exec_bind, Act.exec_turn w l _ w' next, Act.performJob]
  cases outcome with
  | error e =>
    rw [Act.exec_deliver_error w' t k present requested s source r n ch reply quiet e x]
    exact step
  | ok v =>
    rw [Act.exec_deliver_ok w' t k present requested s source r x destination
      (by rw [here]; exact runner) n ch reply quiet v]
    exact step

theorem step_collect (orderly : Orderly w) (l : LoopId) (owner : w.owner? l = some w.here)
    (r : RealmId) (w' : World) (next : w.next? l = some (.collect r, w')) :
    Step w (.turn l) ((Move.turn l).act.exec w).1 ((Move.turn l).act.exec w).2 := by
  obtain ⟨_, taken⟩ := orderly.next l _ owner _ w' next
  obtain ⟨q, same⟩ := next_eq l _ owner _ w' next
  obtain ⟨p, there, runner⟩ := taken.proper
  obtain ⟨x, present, rfl⟩ := (w'.place?_eq_some_iff _ p).mp there
  have here : w'.here = w.here := by rw [same]; rfl
  have present' : w.realms[r]? = some x := by rw [same] at present; exact present
  simp only [Move.act, Act.exec_bind, Act.exec_turn w l _ w' next, Act.performJob, Act.exec_get,
    Act.goOn_ok, Act.exec_ite]
  cases held : w'.holdsRealm r with
  | false =>
    have kept := Step.collect l r w' next x x present' (by simp only [held, Bool.false_eq_true, ↓reduceIte])
    rw [w'.withRealm_self r x present] at kept
    exact kept
  | true =>
    obtain ⟨count, y, done, collected⟩ :=
      Act.exec_collectGarbage w' r x present (by rw [here]; exact runner)
    have all : y = x.collect.2 := by
      rcases collected with ⟨rfl, empty⟩ | all
      · rw [y.collect_eq_self empty]
      · exact all
    simp only [↓reduceIte, done, Act.goOn_ok, Act.exec_pure]
    exact .collect l r w' next x y present' (by simp only [held, ↓reduceIte, all])

theorem step_turn (orderly : Orderly w) (l : LoopId) (owner : w.owner? l = some w.here) :
    Step w (.turn l) ((Move.turn l).act.exec w).1 ((Move.turn l).act.exec w).2 := by
  cases next : w.next? l with
  | none =>
    simp only [Move.act, Act.exec_bind, Act.exec_turn_idle w l _ owner next, Act.goOn_ok,
      Act.exec_pure]
    exact .turnIdle l next
  | some taken =>
    obtain ⟨job, w'⟩ := taken
    have proper := (orderly.next l _ owner job w' next).2.proper
    cases job with
    | serve t => exact step_serve orderly l owner t w' next
    | deliver t r n outcome => exact step_deliver orderly l owner t r n outcome w' next
    | collect r => exact step_collect orderly l owner r w' next
    | script | line | poll | fireSleeper | react | settle => exact proper.elim

/-- A move of the running thread that is allowed is one of the cases. -/
theorem step_of_allowed (orderly : Orderly w) (m : Move) (allowed : m.Allowed w)
    (running : w.here = m.thread w) : Step w m (m.act.exec w).1 (m.act.exec w).2 := by
  cases m with
  | makeLoop i => exact .makeLoop i _
  | attach i l => exact step_attach orderly i l (running ▸ allowed.1) allowed.2
  | detach i c => exact step_detach orderly i c allowed
  | retain i r v =>
    obtain ⟨x, present, owner⟩ := Owns.exists_realm i r allowed
    simp only [Move.act, Act.exec_bind, Act.exec_retain w r x present (owner.trans running.symm),
      Act.goOn_ok, Act.exec_pure]
    exact .retain i r v x present
  | copy i ref => exact step_copy i ref (running ▸ allowed)
  | release i ref => exact step_release i ref (running ▸ allowed)
  | drop i ref =>
    obtain ⟨p, there⟩ := allowed
    obtain ⟨x, present, _⟩ := (w.place?_eq_some_iff _ p).mp there
    simp only [Move.act, Act.exec_bind, Act.exec_dropRef w ref x present, Act.goOn_ok,
      Act.exec_pure]
    exact .drop i ref x present
  | transfer i c ref => exact step_transfer i c ref (running ▸ allowed.1)
  | copyToken i t =>
    obtain ⟨k, present⟩ := allowed
    simp only [Move.act, Act.exec_bind, Act.exec_copyToken w t k present, Act.goOn_ok,
      Act.exec_pure]
    exact .copyToken i t k present
  | dropToken i t =>
    obtain ⟨k, present⟩ := allowed
    obtain ⟨x, source, _⟩ := orderly.exists_source t k present
    simp only [Move.act, Act.exec_bind, Act.exec_dropToken w t k present x source, Act.goOn_ok,
      Act.exec_pure]
    exact .dropToken i t k present
  | receive i t c =>
    obtain ⟨_, k, present⟩ := allowed
    exact step_receive i t c k present
  | poll i id => exact step_poll orderly i id
  | dropReceive i id => exact step_dropReceive orderly i id
  | turn l =>
    obtain ⟨i, owner⟩ := allowed
    apply step_turn orderly l
    have runner : (Move.turn l).thread w = i := by
      show (w.owner? l).getD 0 = i
      rw [owner, Option.getD_some]
    rw [running, runner, owner]

end Transfer

end Membrane
