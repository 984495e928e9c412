import Membrane.World.Access
/-!
Owned things that are let go. A guest reference that is dropped without being given back is noted
for the next collection where weak references are in use, and lost otherwise. A token whose last
copy goes before anyone asked for its object has its reference noted in any case.
-/

set_option autoImplicit false

namespace Membrane.Act

/-- Takes another reference to what a reference points to. -/
def copyRef (ref : Guest.Ref) : Act (Except Fault Guest.Ref) := do
  return (← retainHandle ref.realm ref.handle).map fun _ => ref

/-- Gives a reference back. -/
def releaseRef (ref : Guest.Ref) : Act (Except Fault Unit) := release ref.realm ref.handle

/-- Lets go of a reference that was not given back. -/
def dropRef (ref : Guest.Ref) : Act Unit := do
  if (← realm ref.realm).features.weakRefs then scheduleFinalizer ref.realm ref.handle

def dropGuest (v : Guest.Value) : Act Unit := do
  match v.ref? with
  | some ref => dropRef ref
  | none => return ()

def releaseGuest (v : Guest.Value) : Act (Except Fault Unit) := do
  match v.ref? with
  | some ref => releaseRef ref
  | none => return .ok ()

/-- Gives a value back where nobody looks at a failure. -/
def releaseGuestQuietly (v : Guest.Value) : Act Unit := do
  let _ ← releaseGuest v

/-- A second value with a reference of its own. -/
def duplicate (v : Guest.Value) : Act (Except Fault Guest.Value) := do
  match v with
  | .object ref => return (← copyRef ref).map .object
  | .function ref => return (← copyRef ref).map .function
  | scalar => return .ok scalar

def token (t : TokenId) : Act Token := fetch (·.tokens[t]?)

def setToken (t : TokenId) (x : Token) : Act Unit :=
  modify fun w => { w with tokens := w.tokens.setIfInBounds t x }

/-- Makes another copy of a token. -/
def copyToken (t : TokenId) : Act Unit := do
  let x ← token t
  setToken t { x with copies := x.copies + 1 }

/-- Lets go of one copy of a token. -/
def dropToken (t : TokenId) : Act Unit := do
  let x ← token t
  setToken t { x with copies := x.copies - 1 }
  if x.copies ≤ 1 ∧ x.state = .created then scheduleFinalizer x.source.realm x.source.handle

def setReceive (id : ReceiveId) (x : Option Receive) : Act Unit :=
  modify fun w => { w with receives := w.receives.setIfInBounds id x }

/-- Applies a change of a channel for a reply that has a result. -/
def onReply {α : Type} (id : ReplyId)
    (f : Channel (Except Fault Handle) → α × Channel (Except Fault Handle)) : Act α := do
  let (a, c) := f (← fetch (·.replies[id]?))
  modify fun w => { w with replies := w.replies.setIfInBounds id c }
  return a

/-- Applies a change of the channel of a task's result that has a result. -/
def onResult {α : Type} (t : TaskId) (f : Channel String → α × Channel String) : Act α := do
  let x ← task t
  let (a, c) := f x.result
  setTask t { x with result := c }
  return a

/-- Applies a change of a channel for an outcome that has a result. -/
def onAwait {α : Type} (id : Nat) (f : Channel Outcome → α × Channel Outcome) : Act α := do
  let (a, c) := f (← fetch (·.awaits[id]?))
  modify fun w => { w with awaits := w.awaits.setIfInBounds id c }
  return a

/-- Lets go of a receive. What was sent to it and not read is lost; its loop waits no longer. -/
def dropReceive (id : ReceiveId) : Act Unit := do
  match (← fetch (·.receives[id]?)) with
  | none => return ()
  | some (.ready answer) =>
    setReceive id none
    match answer with
    | some (.ok ref) => dropRef ref
    | _ => return ()
  | some (.waiting reply _ loop) =>
    setReceive id none
    onReply reply fun c => ((), c.abandon)
    onQueue loop (·.letGo)

/-- Lets go of the handle by which the result of a task is read. -/
def dropJoin (t : TaskId) : Act Unit := onResult t fun c => ((), c.abandon)

/-- Lets go of what a task waits with. -/
def dropWait : Wait → Act Unit
  | .sleeping _ | .yielded => return ()
  | .joining t => dropJoin t
  | .awaiting _ channel ref => do
    onAwait channel fun c => ((), c.abandon)
    dropRef ref
  | .receiving token receive _ => do
    dropReceive receive
    dropToken token

/-- Lets go of what a step holds. -/
def dropStep : TaskStep → Act Unit
  | .join t => dropJoin t
  | .await ref => dropRef ref
  | .receive t _ _ => dropToken t
  | _ => return ()

/-- Lets go of a task that will not be polled again, and tells who waits for its result. -/
def dropTask (t : TaskId) : Act Unit := do
  let x ← task t
  setTask t { x with wait := none, steps := [] }
  match x.wait with
  | some wait => dropWait wait
  | none => pure ()
  x.steps.forM dropStep
  wakeAny (← onResult t (·.closeSender))

end Membrane.Act
