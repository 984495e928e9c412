import Membrane.World.Task
/-!
What each kind of job does when it is run.
-/

set_option autoImplicit false

namespace Membrane.Act

/-- Logs a settled promise under a tag. -/
def logOutcome (tag : String) : Outcome → Act Unit
  | .ok v => do log (tag ++ ": ok " ++ (← text v))
  | .error v => do log (tag ++ ": err " ++ (← text v))

/-- Runs a reaction with the outcome of its promise. -/
def react (reaction : Reaction) (outcome : Outcome) : Act Unit := do
  match reaction with
  | .line s => log s
  | .log p tag next =>
    logOutcome tag outcome
    match next with
    | some s => register p (.line s)
    | none => return ()
  | .resume channel =>
    wakeAny (← onAwait channel fun c => match c.send? outcome with
      | some (waiter, c) => (waiter, c)
      | none => (none, c))

/-- Runs a job of the session: what it is asked for, in this order. -/
def runScript (target : Target) : Script → Act Unit
  | .mk line settle? shutdown jobs panic => do
    log line
    match settle? with
    | some (p, outcome) =>
      let settled ← settle p outcome
      log ("settled " ++ if settled then "true" else "false")
    | none => pure ()
    match shutdown with
    | some l => onQueue l (·.shutdown)
    | none => pure ()
    jobs.forM fun (moment, s) => submit target moment (.script target s)
    match panic with
    | some message => throw (.panic message)
    | none => return ()

/-- The timer of a sleeper fires. -/
def fireSleeper (s : Nat) : Act Unit := do
  let (waiter, x) := (← fetch (·.sleepers[s]?)).fire
  modify fun w => { w with sleepers := w.sleepers.setIfInBounds s x }
  wakeAny waiter

/-- Does what a job is for. A realm that is gone has nothing to collect. -/
def performJob : Job → Act Unit
  | .script target s => runScript target s
  | .line s => log s
  | .poll t => pollTask t
  | .fireSleeper s => fireSleeper s
  | .collect r => do
    if (← get).holdsRealm r then
      let _ ← collectGarbage r
  | .react reaction outcome => react reaction outcome
  | .settle p outcome => do
    let _ ← settle p outcome
  | .serve t => serve t
  | .deliver t r reply outcome => deliver t r reply outcome

end Membrane.Act
