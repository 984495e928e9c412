import Membrane.World.Ownership
/-!
Threads of the machine and their place in the runtime. A thread that is attached gets a realm and
an executor, and is the one whose context the entry points act on. A context that is detached leaves
the receivers that wait for it or on it without a source.
-/

set_option autoImplicit false

namespace Membrane.Act

def onRuntime {α : Type} (f : Runtime → α × Runtime) : Act α :=
  modifyGet fun w => let (a, runtime) := f w.runtime; (a, { w with runtime })

/-- Adds a thread to the machine. There is no zero byte in its name. -/
def newThread (name : String) : Act ThreadId := do
  if name.contains '\x00' then throw (.badThreadName name)
  modifyGet fun w => (w.threads.size, { w with threads := w.threads.push name })

/-- The executor of the running thread, made when it is first looked up. -/
def currentExecutor : Act ExecutorId := do
  let w ← get
  match w.runtime.executors.lookup w.here with
  | some e => return e
  | none =>
    let e ← newExecutor (w.threads[w.here]?.getD "")
    onRuntime fun r => ((), { r with executors := r.executors ++ [(w.here, e)] })
    return e

/-- Takes the executor of the running thread out of the registry. -/
def removeExecutor : Act (Option ExecutorId) := do
  let here := (← get).here
  onRuntime fun r =>
    (r.executors.lookup here, { r with executors := r.executors.filter (·.1 != here) })

/-- The context attached last on the running thread. -/
def currentContext : Act (Option Context) := do
  let w ← get
  return w.current.lookup w.here

/-- Makes a context the current one of the running thread, or takes the current one away. -/
def setCurrent (c : Option Context) : Act Unit :=
  modify fun w =>
    { w with current := w.current.filter (·.1 != w.here) ++ (c.map (w.here, ·)).toList }

/-- The class of global objects. -/
def globalClass : String := "global"

/-- Attaches the running thread: a fresh realm on a loop, and the thread's executor, which is
installed on that loop unless it has one already. -/
def attach (l : LoopId) : Act Context := do
  let config := (← get).runtime.config
  assertRoom config.layout config.initialCapacity
  let globalObject ← newObject (.plain (some globalClass))
  let w ← get
  let thread : ThreadIndex := ⟨w.runtime.nextThread⟩
  let realm := w.realms.size
  let x := Realm.create thread w.here l w.runtime.features config.layout globalObject
  modify fun w => { w with realms := w.realms.push x }
  let executor ← currentExecutor
  let _ ← install executor l
  onRuntime fun r => ((), r.attach realm l)
  let c : Context := { thread, realm, executor, loop := l }
  setCurrent (some c)
  return c

/-- Resumes the receivers that lose a thread: those whose source it was learn so, the others are
left without a reply. -/
def orphan (thread : ThreadIndex) (c : Continuation) : Act Unit := do
  if c.source = thread then
    match ← onReply c.reply (fun ch => match ch.send? (.error (.threadUnavailable thread)) with
      | some (waiter, ch) => (waiter, ch)
      | none => (none, ch)) with
    | some t => wake t
    | none => return ()
  else wakeAny (← onReply c.reply (·.closeSender))

/-- Detaches a context. On the thread that owns its realm the executor of the thread goes too, and
so does the current context if it is this one. -/
def detach (c : Context) : Act Unit := do
  let orphans ← onRuntime (·.remove c.thread)
  orphans.forM (orphan c.thread)
  if (← realm c.realm).owner = (← get).here then
    let _ ← removeExecutor
    match ← currentContext with
    | some d => if d.thread = c.thread then setCurrent none
    | none => return ()

end Membrane.Act
