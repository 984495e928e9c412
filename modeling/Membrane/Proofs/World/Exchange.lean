import Membrane.Proofs.World.Realm
/-!
What the steps of a transfer come to, for tokens, realms and replies that are there.
-/

set_option autoImplicit false

namespace Membrane

/-- A token after the first receiver came. -/
def Token.claimed (k : Token) : Token := { k with state := .requested }

def Token.fulfilled (k : Token) : Token := { k with state := .fulfilled }

def Token.copied (k : Token) : Token := { k with copies := k.copies + 1 }

def Token.dropped (k : Token) : Token := { k with copies := k.copies - 1 }

/-- What a receive that waits comes to, seen from its reply. -/
def Receipt.read (r : RealmId) :
    Receipt (Except Fault Handle) → Except Halt (Option (Except Fault Guest.Ref))
  | .pending => .ok none
  | .value (.ok h) => .ok (some (.ok ⟨r, h⟩))
  | .value (.error e) => .ok (some (.error e))
  | .closed => .ok (some (.error .transferAborted))
  | .exhausted => .error (.panic Act.pollAfterReply)

namespace World

variable (w : World)

/-- A number for a transfer is used up. -/
def numbered : World :=
  { w with runtime := { w.runtime with nextCorrelation := w.runtime.nextCorrelation + 1 } }

/-- There is one more token. -/
def issued (x : Token) : World := { w with tokens := w.tokens.push x }

/-- A receiver waits for a new reply. -/
def expecting (c : Continuation) : World :=
  { w with
    replies := w.replies.push .create
    runtime := { w.runtime with waiting := w.runtime.waiting ++ [c] } }

/-- There is one more receive. -/
def receiving (x : Receive) : World := { w with receives := w.receives.push (some x) }

/-- What a receiver leaves behind that asks for the object of a token. -/
def continuation (k : Token) (c : Context) : Continuation :=
  { correlation := k.correlation, source := k.thread, destination := c.thread
    reply := w.replies.size }

/-- A receiver asks the source of a token for its object. -/
def asked (t : TokenId) (k : Token) (c : Context) (source : Attachment) : World :=
  ((((w.withToken t k.claimed.copied).expecting (w.continuation k c)).withQueue c.loop
    (·.hold)).post source.loop (.serve t)).receiving (.waiting w.replies.size c.realm c.loop)

/-- Nobody waits under a number any longer. -/
def resumed (correlation : Nat) : World :=
  { w with runtime := { w.runtime with
    waiting := w.runtime.waiting.filter (·.correlation != correlation) } }

/-- Gives a reference back for the value it stands for. -/
def surrender (ref : Guest.Ref) (x : Realm) : Except Fault Host.Value × World :=
  match x.table.get ref.handle with
  | .error e => (.error e, w)
  | .ok v =>
    match x.release ref.handle with
    | .ok x' => (.ok v, w.withRealm ref.realm x')
    | .error e => (.error e, w)

/-- Sends a value on to the thread that waits for it, if that is attached. -/
def forward (t : TokenId) (k : Token) (c : Continuation) (outcome : Except Fault Host.Value) :
    World :=
  match w.runtime.attachment? c.destination with
  | none => (w.withReply c.reply (·.shut)).withToken t k.dropped
  | some d => w.post d.loop (.deliver t d.realm c.reply outcome)

/-- The value that was served is at its destination. -/
def settled (t : TokenId) (k : Token) (r : RealmId) (x : Realm) (n : ReplyId)
    (ch : Channel (Except Fault Handle)) (outcome : Except Fault Host.Value) : World :=
  match outcome with
  | .error e => (w.withReply n (·.answer (.error e))).withToken t k.fulfilled.dropped
  | .ok v =>
    ((w.withRealm r (x.retainFor ch v)).withReply n (·.answer (.ok (x.retain v).1))).withToken t
      k.fulfilled.dropped

end World

namespace Act

open World

variable (w : World)

theorem exec_transfer_foreign (c : Context) (ref : Guest.Ref) (x : Realm)
    (present : w.realms[ref.realm]? = some x) (foreign : x.thread ≠ c.thread) :
    exec (transfer c ref) w = (.ok (.error (.invalidReference ref.handle .transferAcross)), w) := by
  simp only [transfer, exec_bind, exec_realm w _ x present, goOn_ok, exec_pure, foreign,
    ne_eq, not_false_eq_true, ↓reduceIte]

theorem exec_transfer (c : Context) (ref : Guest.Ref) (x : Realm)
    (present : w.realms[ref.realm]? = some x) (own : x.thread = c.thread)
    (owner : x.owner = w.here) :
    exec (transfer c ref) w =
      match x.retainHandle ref.handle with
      | .ok x' =>
        (.ok (.ok w.tokens.size), (w.numbered.withRealm ref.realm x').issued
          { source := ref, thread := x.thread, correlation := w.runtime.nextCorrelation
            state := .created, copies := 1 })
      | .error e => (.ok (.error e), w.numbered) := by
  simp only [transfer, exec_bind, exec_realm w _ x present, goOn_ok, own, ne_eq,
    not_true_eq_false, ↓reduceIte, exec_onRuntime, copyRef]
  have same : ({ w with
      runtime := { w.runtime with nextCorrelation := w.runtime.nextCorrelation + 1 } } : World) =
      w.numbered := rfl
  rw [same, exec_retainHandle w.numbered ref.realm x present owner]
  cases x.retainHandle ref.handle <;> rfl

theorem exec_fulfil (t : TokenId) (k : Token) (present : w.tokens[t]? = some k)
    (open_ : k.state ≠ .fulfilled) : exec (fulfil t) w = (.ok (), w.withToken t k.fulfilled) := by
  have done : k.fulfil = .ok k.fulfilled := by
    cases state : k.state with
    | fulfilled => exact absurd state open_
    | created => simp only [Token.fulfil, state, Token.fulfilled]
    | requested => simp only [Token.fulfil, state, Token.fulfilled]
  simp only [fulfil, exec_bind, exec_token w t k present, goOn_ok, done, exec_setToken]

/-- A token that was claimed is refused to everybody else. -/
theorem exec_receive_again (t : TokenId) (k : Token) (present : w.tokens[t]? = some k)
    (claimed : k.state ≠ .created) (c : Context) :
    exec (receive t c) w = (.error (.misuse (.doubleReceive k.correlation)), w) := by
  have refused : k.claim = .error (.doubleReceive k.correlation) := by
    cases state : k.state with
    | created => exact absurd state claimed
    | requested => simp only [Token.claim, state]
    | fulfilled => simp only [Token.claim, state]
  simp only [receive, exec_bind, exec_token w t k present, goOn_ok, refused, exec_misuse]

theorem claim_of_created (k : Token) (created : k.state = .created) :
    k.claim = .ok k.claimed := by
  simp only [Token.claim, created, Token.claimed]

/-- On the thread of its source a token changes hands at once. -/
theorem exec_receive_local (t : TokenId) (k : Token) (present : w.tokens[t]? = some k)
    (created : k.state = .created) (c : Context) (here : c.thread = k.thread) :
    exec (receive t c) w =
      (.ok w.receives.size,
        (w.withToken t k.fulfilled).receiving (.ready (some (.ok k.source)))) := by
  have after : (w.withToken t k.claimed).tokens[t]? = some k.claimed := by
    rw [tokens_withToken w t k _ present, if_pos rfl]
  have near : ¬ c.thread ≠ k.claimed.thread := fun apart => apart here
  simp only [receive, exec_bind, exec_token w t k present, goOn_ok, claim_of_created k created,
    exec_setToken, near, ↓reduceIte,
    exec_fulfil _ t _ after (by simp only [Token.claimed, ne_eq, reduceCtorEq, not_false_eq_true]),
    withToken_withToken, exec_newReceive]
  rfl

/-- If the source is not attached, the receiver learns so at once. -/
theorem exec_receive_unavailable (t : TokenId) (k : Token) (present : w.tokens[t]? = some k)
    (created : k.state = .created) (c : Context) (apart : c.thread ≠ k.thread)
    (gone : w.runtime.attachment? k.thread = none) :
    exec (receive t c) w =
      (.ok w.receives.size, (w.withToken t k.claimed).receiving
        (.ready (some (.error (.threadUnavailable k.thread))))) := by
  have after : (w.withToken t k.claimed).tokens[t]? = some k.claimed := by
    rw [tokens_withToken w t k _ present, if_pos rfl]
  have far : c.thread ≠ k.claimed.thread := apart
  have still : (w.withToken t k.claimed).runtime.attachment? k.claimed.thread = none := gone
  simp only [receive, exec_bind, exec_token w t k present, goOn_ok, claim_of_created k created,
    exec_setToken, far, ne_eq, not_false_eq_true, ↓reduceIte, requestObject,
    exec_token _ t _ after, exec_get, still, exec_newReceive]
  rfl

theorem exec_receive_asked (t : TokenId) (k : Token) (present : w.tokens[t]? = some k)
    (created : k.state = .created) (c : Context) (apart : c.thread ≠ k.thread)
    (source : Attachment) (attached : w.runtime.attachment? k.thread = some source) :
    exec (receive t c) w = (.ok w.receives.size, w.asked t k c source) := by
  have after : (w.withToken t k.claimed).tokens[t]? = some k.claimed := by
    rw [tokens_withToken w t k _ present, if_pos rfl]
  have far : c.thread ≠ k.claimed.thread := apart
  have still : (w.withToken t k.claimed).runtime.attachment? k.claimed.thread = some source :=
    attached
  have listed : (w.withToken t k.claimed).runtime.await?
      { correlation := k.claimed.correlation, source := k.claimed.thread, destination := c.thread
        reply := (w.withToken t k.claimed).replies.size } =
      some { w.runtime with waiting := w.runtime.waiting ++ [w.continuation k c] } := by
    have isAttached : (w.withToken t k.claimed).runtime.isAttached k.claimed.thread := by
      rw [Runtime.isAttached, still, Option.isSome_some]
    simp only [Runtime.await?, isAttached, ↓reduceIte]
    rfl
  let held := ((w.withToken t k.claimed).expecting (w.continuation k c)).withQueue c.loop (·.hold)
  have there : held.tokens[t]? = some k.claimed := after
  simp only [receive, exec_bind, exec_token w t k present, goOn_ok, claim_of_created k created,
    exec_setToken, far, ne_eq, not_false_eq_true, ↓reduceIte, requestObject,
    exec_token _ t _ after, exec_get, still, exec_modifyGet, listed, exec_modify, exec_onQueue]
  show goOn (exec (copyToken t) held) _ = _
  simp only [exec_copyToken held t _ there, goOn_ok, exec_bind, exec_queueMicrotask,
    exec_newReceive]
  simp only [held, asked, withToken, expecting, withQueue, post, receiving, continuation,
    Array.setIfInBounds_setIfInBounds]
  rfl

/-- A request whose source is detached is let go. -/
theorem exec_serve_detached (t : TokenId) (k : Token) (present : w.tokens[t]? = some k)
    (claimed : k.state ≠ .created) (x : Realm) (source : w.realms[k.source.realm]? = some x)
    (detached : w.runtime.isAttached k.thread = false) :
    exec (serve t) w = (.ok (), w.withToken t k.dropped) := by
  simp only [serve, exec_bind, exec_token w t k present, goOn_ok, exec_get, detached,
    Bool.not_false, ↓reduceIte, exec_dropToken w t k present x source,
    dropCopy_of_claimed w t k claimed]
  rfl

/-- A request that nobody waits for any longer is a misuse. -/
theorem exec_serve_unregistered (t : TokenId) (k : Token) (present : w.tokens[t]? = some k)
    (claimed : k.state ≠ .created) (x : Realm) (source : w.realms[k.source.realm]? = some x)
    (attached : w.runtime.isAttached k.thread = true)
    (gone : w.runtime.waiting.find? (·.correlation == k.correlation) = none) :
    exec (serve t) w =
      (.error (.misuse (.unregisteredContinuation k.correlation)), w.withToken t k.dropped) := by
  have none : w.runtime.resume? k.correlation = none := by
    simp only [Runtime.resume?, gone, Option.map_none]
  simp only [serve, exec_bind, exec_token w t k present, goOn_ok, exec_get, attached,
    Bool.not_true, Bool.false_eq_true, ↓reduceIte, none, exec_dropToken w t k present x source,
    dropCopy_of_claimed w t k claimed, exec_misuse]
  rfl

theorem exec_forward (t : TokenId) (k : Token) (present : w.tokens[t]? = some k)
    (claimed : k.state ≠ .created) (x : Realm) (source : w.realms[k.source.realm]? = some x)
    (c : Continuation) (ch : Channel (Except Fault Handle)) (reply : w.replies[c.reply]? = some ch)
    (quiet : ch.waiter = none) (outcome : Except Fault Host.Value) :
    exec (do
      match (← get).runtime.attachment? c.destination with
      | none => wakeAny (← onReply c.reply (·.closeSender))
      | some destination =>
        copyToken t
        queueMicrotask destination.loop (.deliver t destination.realm c.reply outcome)
      dropToken t) w = (.ok (), w.forward t k c outcome) := by
  cases there : w.runtime.attachment? c.destination with
  | none =>
    have after : (w.withReply c.reply fun ch => ch.closeSender.2).tokens[t]? = some k := present
    have source' : (w.withReply c.reply fun ch => ch.closeSender.2).realms[k.source.realm]? =
        some x := source
    simp only [exec_bind, exec_get, goOn_ok, there, exec_onReply w _ ch reply,
      ch.closeSender_eq quiet, exec_wakeAny_none, exec_dropToken _ t k after x source',
      dropCopy_of_claimed _ t k claimed, forward]
    rfl
  | some d =>
    let sent := (w.withToken t k.copied).post d.loop (.deliver t d.realm c.reply outcome)
    have after : sent.tokens[t]? = some k.copied := by
      show (w.withToken t k.copied).tokens[t]? = _
      rw [tokens_withToken w t k _ present, if_pos rfl]
    have back : (w.withToken t k.copied).withToken t k = w := by
      rw [withToken_withToken, withToken_self w t k present]
    simp only [exec_bind, exec_get, goOn_ok, there, exec_copyToken w t k present,
      exec_queueMicrotask]
    show exec (dropToken t) sent = _
    rw [exec_dropToken sent t k.copied after x source, dropCopy_of_claimed sent t k.copied claimed,
      forward, there]
    show (_, ((w.withToken t k.copied).withToken t k).post d.loop _) = _
    rw [back]

/-- Giving a reference back touches its realm only. -/
theorem surrender_eq (ref : Guest.Ref) (x : Realm) (present : w.realms[ref.realm]? = some x) :
    ∃ y, (w.surrender ref x).2 = w.withRealm ref.realm y ∧
      (y = x ∨ x.release ref.handle = .ok y) := by
  have unchanged := (w.withRealm_self ref.realm x present).symm
  unfold surrender
  cases x.table.get ref.handle with
  | error e => exact ⟨x, unchanged, Or.inl rfl⟩
  | ok v =>
    cases given : x.release ref.handle with
    | error e => exact ⟨x, unchanged, Or.inl rfl⟩
    | ok y => exact ⟨y, rfl, Or.inr rfl⟩

theorem exec_serve (t : TokenId) (k : Token) (present : w.tokens[t]? = some k)
    (claimed : k.state ≠ .created) (x : Realm) (source : w.realms[k.source.realm]? = some x)
    (owner : x.owner = w.here) (attached : w.runtime.isAttached k.thread = true)
    (c : Continuation)
    (waits : w.runtime.waiting.find? (·.correlation == k.correlation) = some c)
    (ch : Channel (Except Fault Handle)) (reply : w.replies[c.reply]? = some ch)
    (quiet : ch.waiter = none) :
    exec (serve t) w =
      (.ok (), ((w.resumed k.correlation).surrender k.source x).2.forward t k c
        ((w.resumed k.correlation).surrender k.source x).1) := by
  have taken : w.runtime.resume? k.correlation =
      some (c, (w.resumed k.correlation).runtime) := by
    simp only [Runtime.resume?, waits, Option.map_some]
    rfl
  have source' : (w.resumed k.correlation).realms[k.source.realm]? = some x := source
  simp only [serve, exec_bind, exec_token w t k present, goOn_ok, exec_get, attached,
    Bool.not_true, Bool.false_eq_true, ↓reduceIte, taken, exec_modify]
  show goOn (exec (read _ _) (w.resumed k.correlation)) _ = _
  rw [exec_read (w.resumed k.correlation) _ x source' owner, goOn_ok, surrender]
  cases x.table.get k.source.handle with
  | error e =>
    exact exec_forward (w.resumed k.correlation) t k present claimed x source' c ch reply quiet _
  | ok v =>
    simp only [exec_bind, releaseRef, exec_release (w.resumed k.correlation) _ x source' owner]
    cases x.release k.source.handle with
    | error e =>
      exact exec_forward (w.resumed k.correlation) t k present claimed x source' c ch reply quiet _
    | ok y =>
      have after : ((w.resumed k.correlation).withRealm k.source.realm y).realms[k.source.realm]? =
          some y := by rw [realms_withRealm _ _ x y source', if_pos rfl]
      exact exec_forward ((w.resumed k.correlation).withRealm k.source.realm y) t k present claimed y
        after c ch reply quiet _

/-- How a delivery sends its answer. -/
def sendTo (result : Except Fault Handle) (ch : Channel (Except Fault Handle)) :
    Option (Option TaskId) × Channel (Except Fault Handle) :=
  match ch.send? result with
  | some (waiter, ch) => (some waiter, ch)
  | none => (none, ch)

theorem exec_sendTo (n : ReplyId) (ch : Channel (Except Fault Handle))
    (reply : w.replies[n]? = some ch) (quiet : ch.waiter = none) (result : Except Fault Handle) :
    exec (onReply n (sendTo result)) w =
      (.ok (if ch.isWaiting then some none else none),
        w.withReply n (·.answer result)) := by
  have same : sendTo result ch =
      (if ch.isWaiting then some none else none, ch.answer result) := by
    rw [sendTo, ch.send?_eq result quiet]
    cases waits : ch.isWaiting <;> simp [Channel.answer, waits]
  rw [exec_onReply w n ch reply, same, withReply_congr w n ch reply _ (·.answer result)]
  exact congrArg Prod.snd same

theorem exec_deliver_error (t : TokenId) (k : Token) (present : w.tokens[t]? = some k)
    (asked : k.state = .requested) (s : Realm) (source : w.realms[k.source.realm]? = some s)
    (r : RealmId) (n : ReplyId) (ch : Channel (Except Fault Handle))
    (reply : w.replies[n]? = some ch) (quiet : ch.waiter = none) (e : Fault) (x : Realm) :
    exec (deliver t r n (.error e)) w = (.ok (), w.settled t k r x n ch (.error e)) := by
  have done : k.fulfilled.state ≠ .created := nofun
  have unserved : k.state ≠ .fulfilled := asked.trans_ne nofun
  let sent := (w.withToken t k.fulfilled).withReply n (·.answer (.error e))
  have after : sent.tokens[t]? = some k.fulfilled := by
    show (w.withToken t k.fulfilled).tokens[t]? = _
    rw [tokens_withToken w t k _ present, if_pos rfl]
  have dropped : exec (dropToken t) sent = (.ok (), w.settled t k r x n ch (.error e)) := by
    rw [exec_dropToken sent t k.fulfilled after s source, dropCopy_of_claimed sent t _ done]
    simp only [sent, settled, withReply, withToken, Array.setIfInBounds_setIfInBounds]
    rfl
  simp only [deliver, exec_bind, exec_pure, goOn_ok, exec_fulfil w t k present unserved]
  show goOn (exec (onReply n (sendTo (.error e))) _) _ = _
  rw [exec_sendTo (w.withToken t k.fulfilled) n ch reply quiet, goOn_ok]
  cases ch.isWaiting with
  | true => exact dropped
  | false => exact dropped

/-- A retained value that nobody waits for is given back. -/
theorem exec_deliver_ok (t : TokenId) (k : Token) (present : w.tokens[t]? = some k)
    (asked : k.state = .requested) (s : Realm) (source : w.realms[k.source.realm]? = some s)
    (r : RealmId) (x : Realm) (destination : w.realms[r]? = some x) (owner : x.owner = w.here)
    (n : ReplyId) (ch : Channel (Except Fault Handle)) (reply : w.replies[n]? = some ch)
    (quiet : ch.waiter = none) (v : Host.Value) :
    exec (deliver t r n (.ok v)) w = (.ok (), w.settled t k r x n ch (.ok v)) := by
  have done : k.fulfilled.state ≠ .created := nofun
  have unserved : k.state ≠ .fulfilled := asked.trans_ne nofun
  let retained := (w.withRealm r (x.retain v).2).withToken t k.fulfilled
  let sent := retained.withReply n (·.answer (.ok (x.retain v).1))
  have there : (w.withRealm r (x.retain v).2).realms[r]? = some (x.retain v).2 := by
    rw [realms_withRealm w r x _ destination, if_pos rfl]
  have dropped : ∀ y : Realm, exec (dropToken t) (sent.withRealm r y) =
      (.ok (), ((w.withRealm r y).withReply n (·.answer (.ok (x.retain v).1))).withToken t
        k.fulfilled.dropped) := by
    intro y
    have after : (sent.withRealm r y).tokens[t]? = some k.fulfilled := by
      show (w.withToken t k.fulfilled).tokens[t]? = _
      rw [tokens_withToken w t k _ present, if_pos rfl]
    obtain ⟨s', source'⟩ : ∃ s', (sent.withRealm r y).realms[k.source.realm]? = some s' := by
      show ∃ s', ((w.withRealm r (x.retain v).2).withRealm r y).realms[k.source.realm]? = some s'
      rw [withRealm_withRealm, realms_withRealm w r x y destination]
      split
      · exact ⟨y, rfl⟩
      · exact ⟨s, source⟩
    rw [exec_dropToken _ t k.fulfilled after s' source', dropCopy_of_claimed _ t _ done]
    simp only [sent, retained, withReply, withToken, withRealm, Array.setIfInBounds_setIfInBounds]
    rfl
  simp only [deliver, exec_bind, exec_retain w r x destination owner, exec_pure, goOn_ok,
    exec_fulfil (w.withRealm r (x.retain v).2) t k present unserved]
  show goOn (exec (onReply n (sendTo (.ok (x.retain v).1))) retained) _ = _
  rw [exec_sendTo retained n ch reply quiet, goOn_ok]
  cases waits : ch.isWaiting with
  | true =>
    have same : sent.withRealm r (x.retain v).2 = sent := sent.withRealm_self r _ there
    have left := dropped (x.retain v).2
    rw [same] at left
    simp only [settled, Realm.retainFor, waits, ↓reduceIte]
    exact left
  | false =>
    show exec (releaseQuietly r (x.retain v).1 >>= fun _ => dropToken t) sent = _
    rw [exec_bind, exec_releaseQuietly sent r _ there owner, goOn_ok, dropped]
    simp only [settled, Realm.retainFor, waits, Bool.false_eq_true, ↓reduceIte]

theorem exec_pollReceive_ready (id : ReceiveId) (answer : Option (Except Fault Guest.Ref))
    (present : w.receives[id]? = some (some (.ready answer))) :
    exec (pollReceive id none) w =
      (.ok (some (answer.getD (.error .transferAborted))),
        w.withReceive id (some (.ready none))) := by
  simp only [pollReceive, exec_bind, exec_fetch (fun w => w.receives[id]?) w _ present, goOn_ok,
    exec_setReceive, exec_pure]

theorem exec_pollReceive_waiting (id : ReceiveId) (n : ReplyId) (r : RealmId) (l : LoopId)
    (present : w.receives[id]? = some (some (.waiting n r l)))
    (ch : Channel (Except Fault Handle)) (reply : w.replies[n]? = some ch) :
    exec (pollReceive id none) w =
      (Receipt.read r (ch.poll none).1, w.withReply n fun ch => (ch.poll none).2) := by
  simp only [pollReceive, exec_bind, exec_fetch (fun w => w.receives[id]?) w _ present, goOn_ok,
    exec_onReply w n ch reply]
  rcases (ch.poll none).1 with _ | (e | h) | _ | _ <;> rfl

/-- A receive that is not there cannot be asked. -/
theorem exec_pollReceive_gone (id : ReceiveId)
    (gone : ∀ x, w.receives[id]? ≠ some (some x)) (waiter : Option TaskId) :
    exec (pollReceive id waiter) w = (.error .missing, w) := by
  simp only [pollReceive, fetch, exec_bind, exec_get, goOn_ok]
  rcases there : w.receives[id]? with _ | _ | x
  · rfl
  · rfl
  · exact absurd there (gone x)

end Act

end Membrane
