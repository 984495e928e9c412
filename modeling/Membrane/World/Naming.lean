import Membrane.World.Ownership
/-!
Names for what the session holds. Putting something under a name that is taken lets go of what was
there before, after the new thing is in place.
-/

set_option autoImplicit false

namespace Membrane

namespace Act

def registers : Act Registers := return (← get).registers

def setRegisters (f : Registers → Registers) : Act Unit :=
  modify fun w => { w with registers := f w.registers }

/-- What stands under a name, which is there. -/
def named {α : Type} (names : Registers → Names α) (name : String) : Act α :=
  fetch fun w => (names w.registers).lookup name

/-- Puts something under a name; what was there before is let go by the action given. -/
def keepNamed {α : Type} (names : Registers → Names α)
    (update : Registers → Names α → Registers) (discard : α → Act Unit) (name : String) (a : α) :
    Act Unit := do
  let old := (names (← registers)).lookup name
  setRegisters fun r => update r ((names r).put name a)
  match old with
  | some b => discard b
  | none => return ()

/-- Takes something from under its name. -/
def takeNamed {α : Type} (names : Registers → Names α)
    (update : Registers → Names α → Registers) (name : String) : Act α := do
  let a ← named names name
  setRegisters fun r => update r ((names r).erase name)
  return a

def nameValue (name : String) (v : Host.Value) : Act Unit :=
  keepNamed (·.values) (fun r n => { r with values := n }) (fun _ => return ()) name v

def nameContext (name : String) (c : Context) : Act Unit :=
  keepNamed (·.contexts) (fun r n => { r with contexts := n }) (fun _ => return ()) name c

def nameLoop (name : String) (l : LoopId) : Act Unit :=
  keepNamed (·.loops) (fun r n => { r with loops := n }) (fun _ => return ()) name l

def nameExecutor (name : String) (e : ExecutorId) : Act Unit :=
  keepNamed (·.executors) (fun r n => { r with executors := n }) (fun _ => return ()) name e

def nameRef (name : String) (ref : Guest.Ref) : Act Unit :=
  keepNamed (·.refs) (fun r n => { r with refs := n }) dropRef name ref

def takeRef (name : String) : Act Guest.Ref :=
  takeNamed (·.refs) (fun r n => { r with refs := n }) name

def nameDynamic (name : String) (v : Guest.Value) : Act Unit :=
  keepNamed (·.dynamics) (fun r n => { r with dynamics := n }) dropGuest name v

def takeDynamic (name : String) : Act Guest.Value :=
  takeNamed (·.dynamics) (fun r n => { r with dynamics := n }) name

def nameClosure (name : String) (c : Guest.Closure) : Act Unit :=
  keepNamed (·.closures) (fun r n => { r with closures := n }) (fun c => dropRef c.ref) name c

def takeClosure (name : String) : Act Guest.Closure :=
  takeNamed (·.closures) (fun r n => { r with closures := n }) name

def nameInstance (name : String) (ref : Guest.Ref) : Act Unit :=
  keepNamed (·.instances) (fun r n => { r with instances := n }) dropRef name ref

def takeInstance (name : String) : Act Guest.Ref :=
  takeNamed (·.instances) (fun r n => { r with instances := n }) name

def nameToken (name : String) (t : TokenId) : Act Unit :=
  keepNamed (·.tokens) (fun r n => { r with tokens := n }) dropToken name t

def takeToken (name : String) : Act TokenId :=
  takeNamed (·.tokens) (fun r n => { r with tokens := n }) name

def nameReceive (name : String) (id : ReceiveId) : Act Unit :=
  keepNamed (·.receives) (fun r n => { r with receives := n }) dropReceive name id

def nameTask (name : String) (t : TaskId) : Act Unit :=
  keepNamed (·.tasks) (fun r n => { r with tasks := n }) dropJoin name t

def takeTask (name : String) : Act TaskId :=
  takeNamed (·.tasks) (fun r n => { r with tasks := n }) name

def namePromise (name : String) (p : PromiseId) : Act Unit :=
  keepNamed (·.promises) (fun r n => { r with promises := n }) (fun _ => return ()) name p

def takeGuard (name : String) : Act LoopId :=
  takeNamed (·.guards) (fun r n => { r with guards := n }) name

def nameGuard (name : String) (l : LoopId) : Act Unit :=
  keepNamed (·.guards) (fun r n => { r with guards := n }) (fun l => onQueue l (·.letGo)) name l

end Act

end Membrane
