import Membrane.World.Thread
/-!
The steps of a transfer: making a token, receiving, serving a request, delivering a value, and
looking whether a receive has its answer.
-/

set_option autoImplicit false

namespace Membrane.Act

/-- Makes a token that owns a reference of its own. The correlation is used up even if the reference
cannot be taken. -/
def transfer (c : Context) (ref : Guest.Ref) : Act (Except Fault TokenId) := do
  let x ← realm ref.realm
  if x.thread ≠ c.thread then
    return .error (.invalidReference ref.handle .transferAcross)
  let correlation ← onRuntime fun r =>
    (r.nextCorrelation, { r with nextCorrelation := r.nextCorrelation + 1 })
  match ← copyRef ref with
  | .error e => return .error e
  | .ok source =>
    let t : Token := { source, thread := x.thread, correlation, state := .created, copies := 1 }
    modifyGet fun w => (.ok w.tokens.size, { w with tokens := w.tokens.push t })

def newReceive (x : Receive) : Act ReceiveId :=
  modifyGet fun w => (w.receives.size, { w with receives := w.receives.push (some x) })

/-- Marks a token as fulfilled. -/
def fulfil (t : TokenId) : Act Unit := do
  match (← token t).fulfil with
  | .ok x => setToken t x
  | .error m => misuse m

/-- Asks the source of a token for its object. The loop of the receiver is kept waiting. -/
def requestObject (t : TokenId) (c : Context) : Act ReceiveId := do
  let x ← token t
  match (← get).runtime.attachment? x.thread with
  | none => newReceive (.ready (some (.error (.threadUnavailable x.thread))))
  | some source =>
    let reply ← modifyGet fun w =>
      (w.replies.size, { w with replies := w.replies.push .create })
    let waiting : Continuation :=
      { correlation := x.correlation, source := x.thread, destination := c.thread, reply }
    match (← get).runtime.await? waiting with
    | none => newReceive (.ready (some (.error (.threadUnavailable x.thread))))
    | some runtime =>
      modify fun w => { w with runtime }
      onQueue c.loop (·.hold)
      copyToken t
      queueMicrotask source.loop (.serve t)
      newReceive (.waiting reply c.realm c.loop)

/-- Receives the object of a token. The first receiver gets it, any other one is a misuse. -/
def receive (t : TokenId) (c : Context) : Act ReceiveId := do
  match (← token t).claim with
  | .error m => misuse m
  | .ok x =>
    setToken t x
    if c.thread ≠ x.thread then requestObject t c
    else
      fulfil t
      newReceive (.ready (some (.ok x.source)))

/-- Serves a request on the thread of the source: the token's reference is given back and the value
goes to the destination. Nothing is done if the source is detached; a request that nobody waits for
is a misuse. -/
def serve (t : TokenId) : Act Unit := do
  let x ← token t
  if !(← get).runtime.isAttached x.thread then dropToken t
  else
    match (← get).runtime.resume? x.correlation with
    | none =>
      dropToken t
      misuse (.unregisteredContinuation x.correlation)
    | some (waiting, runtime) =>
      modify fun w => { w with runtime }
      let outcome ← match ← read x.source.realm x.source.handle with
        | .error e => pure (.error e)
        | .ok v => pure ((← releaseRef x.source).map fun _ => v)
      match (← get).runtime.attachment? waiting.destination with
      | none => wakeAny (← onReply waiting.reply (·.closeSender))
      | some destination =>
        copyToken t
        queueMicrotask destination.loop (.deliver t destination.realm waiting.reply outcome)
      dropToken t

/-- Retains a served value on the thread of the destination and answers the receiver. If it is gone,
the value is given back. -/
def deliver (t : TokenId) (r : RealmId) (reply : ReplyId) (outcome : Except Fault Host.Value) :
    Act Unit := do
  let result : Except Fault Handle ← match outcome with
    | .error e => pure (.error e)
    | .ok v => pure (.ok (← retain r v))
  fulfil t
  let sent ← onReply reply fun ch => match ch.send? result with
    | some (waiter, ch) => (some waiter, ch)
    | none => (none, ch)
  match sent, result with
  | some waiter, _ => wakeAny waiter
  | none, .ok h => releaseQuietly r h
  | none, .error _ => pure ()
  dropToken t

/-- What is reported when a receive is asked again after its reply was read. -/
def pollAfterReply : String := "called after complete"

/-- Looks whether a receive has its answer, and leaves behind who is to be woken. -/
def pollReceive (id : ReceiveId) (waiter : Option TaskId) :
    Act (Option (Except Fault Guest.Ref)) := do
  match ← fetch (·.receives[id]?) with
  | none => throw .missing
  | some (.ready answer) =>
    setReceive id (some (.ready none))
    return some (answer.getD (.error .transferAborted))
  | some (.waiting reply r _) =>
    match ← onReply reply (·.poll waiter) with
    | .pending => return none
    | .value (.ok h) => return some (.ok ⟨r, h⟩)
    | .value (.error e) => return some (.error e)
    | .closed => return some (.error .transferAborted)
    | .exhausted => throw (.panic pollAfterReply)

end Membrane.Act
