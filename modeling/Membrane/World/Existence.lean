import Membrane.World.Basic
/-!
Which things still exist. A realm exists while something refers to it. An object exists while
something outside of the heap refers to it or an object that exists does, so objects that refer to
one another stay. Where weak references are in use, a guest function whose function object is gone
is forgotten. A task that waits for a promise holds it. A loop goes when nothing holds it, and the
jobs that still wait in it go too; a job that holds its own loop stays with it.
-/

set_option autoImplicit false

namespace Membrane

namespace Script

mutual

/-- The outcomes that a job settles promises with, nested jobs included. -/
def settled : Script → List (PromiseId × Outcome)
  | .mk _ settle _ jobs _ => settle.toList ++ settledAll jobs

def settledAll : List (Moment × Script) → List (PromiseId × Outcome)
  | [] => []
  | (_, s) :: rest => settled s ++ settledAll rest

end

mutual

/-- The loops that a job shuts down, nested jobs included. -/
def shutDown : Script → List LoopId
  | .mk _ _ shutdown jobs _ => shutdown.toList ++ shutDownAll jobs

def shutDownAll : List (Moment × Script) → List LoopId
  | [] => []
  | (_, s) :: rest => shutDown s ++ shutDownAll rest

end

end Script

/-- The value of an outcome. -/
def Outcome.value : Outcome → Host.Value
  | .ok v | .error v => v

/-- The promise that a reaction registers another one on, and so holds. -/
def Reaction.held? : Reaction → Option PromiseId
  | .log p _ next => next.map fun _ => p
  | .line _ | .resume _ => none

namespace Job

/-- The host values that a job holds. -/
def values : Job → List Host.Value
  | .script _ s => s.settled.map (·.2.value)
  | .react _ outcome | .settle _ outcome => [outcome.value]
  | .deliver _ _ _ (.ok v) => [v]
  | .deliver _ _ _ (.error (.hostException v)) => [v]
  | _ => []

/-- The promises that a job holds. -/
def promises : Job → List PromiseId
  | .script _ s => s.settled.map (·.1)
  | .react reaction _ => reaction.held?.toList
  | .settle p _ => [p]
  | _ => []

/-- The realms that a job holds. -/
def realms : Job → List RealmId
  | .deliver _ r _ _ => [r]
  | _ => []

end Job

namespace TaskStep

/-- The realms that a step holds; a token holds its own. -/
def realms : TaskStep → List RealmId
  | .await ref => [ref.realm]
  | .receive _ context _ => [context.realm]
  | _ => []

/-- The context that a step holds. -/
def context? : TaskStep → Option Context
  | .receive _ context _ => some context
  | _ => none

end TaskStep

namespace World

/-- All jobs that were queued and not run. -/
def jobs (w : World) : List Job := w.loops.toList.flatMap (·.queue.jobs)

/-- The realms that a task holds. -/
def taskRealms (t : Task) : List RealmId :=
  t.steps.flatMap TaskStep.realms ++ match t.wait with
    | some (.awaiting _ _ ref) => [ref.realm]
    | _ => []

/-- The promise that a task waits for. -/
def awaitedPromise? (t : Task) : Option PromiseId :=
  match t.wait with
  | some (.awaiting p _ _) => some p
  | _ => none

/-- The realms that something refers to. -/
def heldRealms (w : World) : List RealmId :=
  w.registers.contexts.map (·.2.realm) ++
    w.runtime.attached.map (·.realm) ++
    w.current.map (·.2.realm) ++
    w.workers.toList.filterMap (fun x => if x.ended.isNone then some x.context.realm else none) ++
    w.registers.refs.map (·.2.realm) ++
    w.registers.dynamics.filterMap (fun (_, v) => v.ref?.map (·.realm)) ++
    w.registers.closures.map (·.2.ref.realm) ++
    w.registers.instances.map (·.2.realm) ++
    w.tokens.toList.filterMap (fun t => if 0 < t.copies then some t.source.realm else none) ++
    w.receives.toList.filterMap (fun
      | some (.waiting _ r _) => some r
      | some (.ready (some (.ok ref))) => some ref.realm
      | _ => none) ++
    w.tasks.toList.flatMap taskRealms ++
    w.jobs.flatMap Job.realms

def holdsRealm (w : World) (r : RealmId) : Bool := w.heldRealms.contains r

/-- The objects, promises and loops that exist, as far as is known. -/
structure Survivors where
  objects : Array Bool
  promises : Array Bool
  loops : Array Bool
deriving DecidableEq

/-- The jobs that wait in loops that exist. -/
def waitingJobs (w : World) (s : Survivors) : List Job :=
  (w.loops.toList.zip s.loops.toList).flatMap fun (c, exists_) =>
    if exists_ then c.queue.jobs else []

/-- The loop that an executor is installed on. -/
def executorLoop? (w : World) (e : ExecutorId) : Option LoopId :=
  (w.executors[e]?).bind (·.loop)

def contextLoops (w : World) (c : Context) : List LoopId :=
  c.loop :: (w.executorLoop? c.executor).toList

/-- The contexts that are held by name, by threads and by what tasks are still to do. -/
def heldContexts (w : World) : List Context :=
  w.registers.contexts.map (·.2) ++
    w.current.map (·.2) ++
    w.workers.toList.filterMap (fun x => if x.ended.isNone then some x.context else none) ++
    w.tasks.toList.flatMap (·.steps.filterMap TaskStep.context?)

/-- The executors that are held by name, by threads and by tasks. -/
def heldExecutors (w : World) : List ExecutorId :=
  w.registers.executors.map (·.2) ++
    w.runtime.executors.map (·.2) ++
    w.tasks.toList.filterMap fun t =>
      if t.wait.isSome || !t.steps.isEmpty then some t.executor else none

/-- The loops that a job holds: the one that it submits more jobs to, those that it shuts down, and
the one that its task is polled on. -/
def jobLoops (w : World) : Job → List LoopId
  | .script (.loop l) s => l :: s.shutDown
  | .script (.executor e) s => (w.executorLoop? e).toList ++ s.shutDown
  | .poll t => ((w.tasks[t]?).bind fun x => w.executorLoop? x.executor).toList
  | _ => []

/-- The loops that are referred to. -/
def referredLoops (w : World) (s : Survivors) : List LoopId :=
  w.registers.loops.map (·.2) ++
    w.registers.guards.map (·.2) ++
    w.registers.workers.filterMap (fun (_, i) => (w.workers[i]?).map (·.context.loop)) ++
    w.heldContexts.flatMap w.contextLoops ++
    w.heldExecutors.filterMap w.executorLoop? ++
    w.runtime.attached.map (·.loop) ++
    w.heldRealms.filterMap (fun r => (w.realms[r]?).map (·.loop)) ++
    w.receives.toList.filterMap (fun
      | some (.waiting _ _ l) => some l
      | _ => none) ++
    (w.promises.toList.zip s.promises.toList).filterMap (fun (p, exists_) =>
      if exists_ then some p.loop else none) ++
    (w.waitingJobs s).flatMap w.jobLoops

/-- Whether the function object of a guest function is gone and the function with it. -/
def isForgotten (w : World) (s : Survivors) (r : RealmId) (id : FunctionId) : Bool :=
  match w.realms[r]? with
  | none => false
  | some x =>
    x.features.weakRefs &&
      (w.heap.objects.toList.zip s.objects.toList).any fun (o, exists_) =>
        !exists_ && match o.kind with
          | .guestFunction r' id' => r' == r && id' == id
          | _ => false

/-- The guest functions that a realm still knows. -/
def knownFunctions (w : World) (s : Survivors) (r : RealmId) : List Guest.Function :=
  match w.realms[r]? with
  | none => []
  | some x => (x.closures.entries.filter fun (id, _) => !w.isForgotten s r id).map (·.2)

/-- The values that realms hold. -/
def realmValues (w : World) (s : Survivors) (r : RealmId) : List Host.Value :=
  match w.realms[r]? with
  | none => []
  | some x =>
    x.table.values ++ x.exception.toList ++ [.object x.globalObject] ++
      (w.knownFunctions s r).flatMap (·.holds)

/-- The values that are referred to from outside of the heap or by what exists. -/
def referredValues (w : World) (s : Survivors) : List Host.Value :=
  w.pins ++
    w.registers.values.map (·.2) ++
    w.heldRealms.eraseDups.flatMap (w.realmValues s) ++
    w.runtime.imports.flatMap (·.2.holds) ++
    (w.waitingJobs s).flatMap Job.values ++
    w.awaits.toList.filterMap (fun c => match c.state with
      | .sent outcome => some outcome.value
      | _ => none) ++
    (w.heap.objects.toList.zip s.objects.toList).flatMap (fun (o, exists_) =>
      if exists_ then o.references else []) ++
    (w.promises.toList.zip s.promises.toList).filterMap (fun (p, exists_) =>
      if exists_ then p.outcome?.map Outcome.value else none)

/-- The promises that hold themselves, through a reaction that waits. -/
def selfHeldPromises (w : World) (s : Survivors) : List PromiseId :=
  (List.range w.promises.size).filter fun p =>
    (s.promises[p]?.getD false) &&
      ((w.promises[p]?).map (·.reactions.any (·.held?.isSome))).getD false

/-- The promises that are referred to. -/
def referredPromises (w : World) (s : Survivors) : List PromiseId :=
  w.registers.promises.map (·.2) ++
    (w.waitingJobs s).flatMap Job.promises ++
    w.tasks.toList.filterMap awaitedPromise? ++
    w.selfHeldPromises s ++
    (w.heap.objects.toList.zip s.objects.toList).filterMap fun (o, exists_) =>
      match exists_, o.kind with
      | true, .promise p => some p
      | _, _ => none

/-- Keeps of the survivors those that are referred to. -/
def thin (w : World) (s : Survivors) : Survivors :=
  let mark (old new : Array Bool) (place : Nat) : Array Bool :=
    new.setIfInBounds place (old[place]?.getD false)
  { objects := (w.referredValues s).foldl
      (fun acc v => match v with
        | .object id => mark s.objects acc id
        | _ => acc)
      (Array.replicate w.heap.objects.size false)
    promises := (w.referredPromises s).foldl (mark s.promises)
      (Array.replicate w.promises.size false)
    loops := (w.referredLoops s).foldl (mark s.loops)
      (Array.replicate w.loops.size false) }

/-- Thins until nothing changes. -/
def settleDown (w : World) : Nat → Survivors → Survivors
  | 0, s => s
  | fuel + 1, s =>
    let t := w.thin s
    if t = s then s else settleDown w fuel t

/-- What exists. Every round but the last takes something away. -/
def survivors (w : World) : Survivors :=
  w.settleDown (w.heap.objects.size + w.promises.size + w.loops.size + 1)
    { objects := Array.replicate w.heap.objects.size true
      promises := Array.replicate w.promises.size true
      loops := Array.replicate w.loops.size true }

/-- Forgets the guest functions whose function objects are gone. -/
def sweep (w : World) : World :=
  if w.realms.all fun r => r.closures.entries.isEmpty then w
  else
    let s := w.survivors
    let held := w.heldRealms
    { w with realms := w.realms.mapIdx fun r x =>
        if held.contains r then
          { x with closures := { x.closures with
            entries := x.closures.entries.filter fun (id, _) => !w.isForgotten s r id } }
        else x }

end World

namespace Act

/-- Forgets the guest functions whose function objects are gone. -/
def sweep : Act Unit := modify World.sweep

/-- Takes the objects among some values into the hands of the call that is running. -/
def hold (values : List Host.Value) : Act Unit :=
  modify fun w => { w with pins := values.filter (·.object?.isSome) ++ w.pins }

/-- Runs an action whose result brings values, which stay in the hands of the call that asked. -/
def handing {α : Type} (values : α → List Host.Value) (act : Act α) : Act α := do
  let result ← act
  hold (values result)
  return result

/-- Runs an action while values are in its hands. What it takes into them goes with it. -/
def pinning {α : Type} (values : List Host.Value) (act : Act α) : Act α := do
  let pins := (← get).pins
  modify fun w => { w with pins := values ++ pins }
  let result ← attempt act
  modify fun w => { w with pins }
  match result with
  | .ok a => return a
  | .error halt => throw halt

end Act

end Membrane
