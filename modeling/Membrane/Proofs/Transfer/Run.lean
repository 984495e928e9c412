import Membrane.Proofs.Transfer.Order
/-!
Runs of a runtime. Threads make loops and attach themselves, retain and give back references, make
tokens, receive, ask their receives and let go of them; loops take turns at their jobs, which serve
requests, deliver values and collect. Each move is one step, and the steps come in any order.
-/

set_option autoImplicit false

namespace Membrane.Transfer

/-- A step of a thread, or of a loop on its thread. -/
inductive Move where
  | makeLoop (thread : ThreadId)
  | attach (thread : ThreadId) (loop : LoopId)
  | detach (thread : ThreadId) (context : Context)
  | retain (thread : ThreadId) (realm : RealmId) (value : Host.Value)
  | copy (thread : ThreadId) (ref : Guest.Ref)
  | release (thread : ThreadId) (ref : Guest.Ref)
  /-- Lets go of a reference without giving it back. -/
  | drop (thread : ThreadId) (ref : Guest.Ref)
  | transfer (thread : ThreadId) (context : Context) (ref : Guest.Ref)
  | copyToken (thread : ThreadId) (token : TokenId)
  | dropToken (thread : ThreadId) (token : TokenId)
  | receive (thread : ThreadId) (token : TokenId) (context : Context)
  /-- Looks whether a receive has its answer, and leaves nobody behind to be woken. -/
  | poll (thread : ThreadId) (receive : ReceiveId)
  | dropReceive (thread : ThreadId) (receive : ReceiveId)
  /-- A loop carries out the next of its jobs. -/
  | turn (loop : LoopId)
deriving DecidableEq

/-- What a move answers with. -/
inductive Answer where
  | done
  | loop (id : LoopId)
  | context (c : Context)
  | ref (result : Except Fault Guest.Ref)
  | released (result : Except Fault Unit)
  | token (result : Except Fault TokenId)
  | receive (id : ReceiveId)
  | read (result : Option (Except Fault Guest.Ref))

namespace Move

/-- The thread that makes a move. -/
def thread (w : World) : Move → ThreadId
  | makeLoop i | attach i _ | detach i _ | retain i _ _ | copy i _ | release i _ | drop i _
  | transfer i _ _ | copyToken i _ | dropToken i _ | receive i _ _ | poll i _ | dropReceive i _ => i
  | turn l => (w.owner? l).getD 0

open Act in
def act : Move → Act Answer
  | makeLoop _ => return .loop (← newLoop)
  | attach _ l => return .context (← Act.attach l)
  | detach _ c => do Act.detach c; return .done
  | retain _ r v => return .ref (.ok ⟨r, ← Act.retain r v⟩)
  | copy _ ref => return .ref (← copyRef ref)
  | release _ ref => return .released (← releaseRef ref)
  | drop _ ref => do dropRef ref; return .done
  | transfer _ c ref => return .token (← Act.transfer c ref)
  | copyToken _ t => do Act.copyToken t; return .done
  | dropToken _ t => do Act.dropToken t; return .done
  | receive _ t c => return .receive (← Act.receive t c)
  | poll _ id => return .read (← pollReceive id none)
  | dropReceive _ id => do Act.dropReceive id; return .done
  | turn l => do let _ ← (restless l).drain 1; return .done

/-- The outcome of a move and the world after it. -/
def perform (m : Move) (w : World) : Except Halt Answer × World :=
  (Act.asThread (m.thread w) m.act).exec w

end Move

/-- A context that was handed out when its thread attached itself. -/
def IsContext (w : World) (c : Context) : Prop :=
  ∃ p, w.place? c.realm = some p ∧ p.thread = c.thread ∧ p.loop = c.loop

/-- A realm is there and belongs to a thread. -/
def Owns (w : World) (i : ThreadId) (r : RealmId) : Prop := ∃ p, w.place? r = some p ∧ p.owner = i

/-- What a move may be about: a thread attaches itself with a loop of its own, as long as there are
numbers for threads, and works on a realm of its own. Everything else may be done by any thread. -/
def Move.Allowed (w : World) : Move → Prop
  | .makeLoop _ | .poll _ _ | .dropReceive _ _ => True
  | .attach i l => w.owner? l = some i ∧ w.realms.size + 1 < 2 ^ 32
  | .detach _ c => IsContext w c
  | .retain i r _ => Owns w i r
  | .copy i ref | .release i ref => Owns w i ref.realm
  | .drop _ ref => ∃ p, w.place? ref.realm = some p
  | .transfer i c ref => Owns w i ref.realm ∧ IsContext w c
  | .copyToken _ t | .dropToken _ t => ∃ k, w.token? t = some k
  | .receive _ t c => IsContext w c ∧ ∃ k, w.token? t = some k
  | .turn l => ∃ i, w.owner? l = some i

/-- A move that was made, where it was made, and its outcome. -/
structure Record where
  before : World
  move : Move
  outcome : Except Halt Answer

/-- What a rule of the run may ask of a move, given what was done before, the last first. -/
abbrev Rule := List Record → World → Move → Prop

/-- The rule that asks for nothing. -/
def Rule.free : Rule := fun _ _ _ => True

/-- The worlds that moves in any order lead to, with what was done. -/
inductive Run (config : Config) (rule : Rule) : List Record → World → Prop
  | start : Run config rule [] (.create config)
  | step {past : List Record} {w : World} (m : Move) (run : Run config rule past w)
      (allowed : m.Allowed w) (permitted : rule past w m) :
      Run config rule (⟨w, m, (m.perform w).1⟩ :: past) (m.perform w).2

theorem Run.last {config : Config} {rule : Rule} {past : List Record} {w : World} (r : Record)
    (run : Run config rule (r :: past) w) : w = (r.move.perform r.before).2 := by
  cases run
  rfl

/-- A run that keeps to a rule keeps to every weaker one. -/
theorem Run.mono {config : Config} {rule : Rule} {past : List Record} {w : World}
    (run : Run config rule past w) (rule' : Rule)
    (weaker : ∀ past w m, rule past w m → rule' past w m) : Run config rule' past w := by
  induction run with
  | start => exact .start
  | step m run allowed permitted ih => exact ih.step m allowed (weaker _ _ m permitted)

instance decidableExistsSome {α : Type} (o : Option α) (p : α → Prop) [DecidablePred p] :
    Decidable (∃ a, o = some a ∧ p a) :=
  decidable_of_iff (o.any p = true) (by cases o <;> simp)

instance decidableIsSome {α : Type} (o : Option α) : Decidable (∃ a, o = some a) :=
  decidable_of_iff (o.isSome = true) Option.isSome_iff_exists

instance (w : World) (c : Context) : Decidable (IsContext w c) :=
  inferInstanceAs (Decidable (∃ p, w.place? c.realm = some p ∧ _))

instance (w : World) (i : ThreadId) (r : RealmId) : Decidable (Owns w i r) :=
  inferInstanceAs (Decidable (∃ p, w.place? r = some p ∧ _))

instance (w : World) : DecidablePred (Move.Allowed w)
  | .makeLoop _ | .poll _ _ | .dropReceive _ _ => isTrue trivial
  | .attach i l => inferInstanceAs (Decidable (w.owner? l = some i ∧ w.realms.size + 1 < 2 ^ 32))
  | .detach _ c => inferInstanceAs (Decidable (IsContext w c))
  | .retain i r _ => inferInstanceAs (Decidable (Owns w i r))
  | .copy i ref | .release i ref => inferInstanceAs (Decidable (Owns w i ref.realm))
  | .drop _ ref => inferInstanceAs (Decidable (∃ p, w.place? ref.realm = some p))
  | .transfer i c ref => inferInstanceAs (Decidable (Owns w i ref.realm ∧ IsContext w c))
  | .copyToken _ t | .dropToken _ t => inferInstanceAs (Decidable (∃ k, w.token? t = some k))
  | .receive _ t c => inferInstanceAs (Decidable (IsContext w c ∧ ∃ k, w.token? t = some k))
  | .turn l => inferInstanceAs (Decidable (∃ i, w.owner? l = some i))

/-- Makes moves in turn and tells what was done. -/
def play (past : List Record) (w : World) : List Move → List Record × World
  | [] => (past, w)
  | m :: moves => play (⟨w, m, (m.perform w).1⟩ :: past) (m.perform w).2 moves

/-- Each of several moves is allowed when it is its turn. -/
def Playable (w : World) : List Move → Prop
  | [] => True
  | m :: moves => m.Allowed w ∧ Playable (m.perform w).2 moves

instance decidablePlayable (w : World) : (moves : List Move) → Decidable (Playable w moves)
  | [] => isTrue trivial
  | m :: moves =>
    have := decidablePlayable (m.perform w).2 moves
    inferInstanceAs (Decidable (m.Allowed w ∧ Playable (m.perform w).2 moves))

/-- The rule of the run permits each of several moves when it is its turn. -/
def Permitted (rule : Rule) (past : List Record) (w : World) : List Move → Prop
  | [] => True
  | m :: moves =>
    rule past w m ∧ Permitted rule (⟨w, m, (m.perform w).1⟩ :: past) (m.perform w).2 moves

theorem permitted_free (past : List Record) (w : World) (moves : List Move) :
    Permitted .free past w moves := by
  induction moves generalizing past w with
  | nil => trivial
  | cons m moves ih => exact ⟨trivial, ih _ _⟩

theorem Run.play {config : Config} {rule : Rule} {past : List Record} {w : World}
    (run : Run config rule past w) (moves : List Move) (playable : Playable w moves)
    (permitted : Permitted rule past w moves) :
    Run config rule (Transfer.play past w moves).1 (Transfer.play past w moves).2 := by
  induction moves generalizing past w with
  | nil => exact run
  | cons m moves ih => exact ih (run.step m playable.1 permitted.1) playable.2 permitted.2

/-- The context of the first thread that attaches itself, and of the second. -/
def contextOf (number : Fin 2) : Context :=
  ⟨⟨number.val.toUInt32⟩, number, number, number⟩

/-- The second of two threads asks the first for its global object. -/
def asking : List Move :=
  [.makeLoop 0, .makeLoop 1, .attach 0 0, .attach 1 1,
    .transfer 0 (contextOf 0) ⟨0, .globalObject⟩, .receive 1 0 (contextOf 1)]

/-- The first of two threads makes a token for its global object and is detached. -/
def departing : List Move :=
  [.makeLoop 0, .makeLoop 1, .attach 0 0, .attach 1 1,
    .transfer 0 (contextOf 0) ⟨0, .globalObject⟩, .detach 0 (contextOf 0)]

end Membrane.Transfer
