import Membrane.Proofs.Table.Shift
import Membrane.Proofs.Transfer.Misuse
/-!
What threads have in hand, seen from what was done: the references they may give back, the copies of
tokens, and the references that tokens still own; and the references that nobody will ever give back.
A run is fair if nobody gives back what is not in hand.
-/

set_option autoImplicit false

namespace Membrane

/-- The handle that was sent on a channel. -/
def sentOn : Option (Channel (Except Fault Handle)) → Option Handle
  | some ⟨.sent (.ok h), _⟩ => some h
  | _ => none

/-- The reference that a receive has its answer with. -/
def dueFrom : Option Receive → Option Guest.Ref
  | some (.ready (some (.ok ref))) => some ref
  | _ => none

namespace World

variable (w : World)

def table? (r : RealmId) : Option RefTable := (w.realms[r]?).map (·.table)

/-- How many references are held to a handle of a realm. -/
def held (ref : Guest.Ref) : Nat := ((w.table? ref.realm).map (·.count ref.handle)).getD 0

/-- What a reference stands for. -/
def value? (ref : Guest.Ref) : Option Host.Value :=
  (w.table? ref.realm).bind (·.value? ref.handle)

/-- The reference of a token. -/
def source? (t : TokenId) : Option Guest.Ref := (w.token? t).map (·.source)

/-- The handle that a reply has for whoever asks. -/
def sent? (n : ReplyId) : Option Handle := sentOn (w.reply? n)

/-- The reference that a receive has for whoever asks. -/
def due? (id : ReceiveId) : Option Guest.Ref := dueFrom (w.receive? id)

/-- A realm takes note of the references that are let go. -/
def takesNote (r : RealmId) : Bool := ((w.realms[r]?).map (·.features.weakRefs)).getD false

/-- The next job of a loop. -/
def job? (l : LoopId) : Option Job := (w.next? l).map (·.1)

theorem source?_of_present (t : TokenId) (k : Token) (present : w.token? t = some k) :
    w.source? t = some k.source := by
  rw [source?, present, Option.map_some]

theorem job?_of_next (l : LoopId) (job : Job) (v : World) (next : w.next? l = some (job, v)) :
    w.job? l = some job := by
  rw [job?, next, Option.map_some]

theorem exists_next (l : LoopId) (job : Job) (there : w.job? l = some job) :
    ∃ v, w.next? l = some (job, v) := by
  obtain ⟨⟨job', v⟩, next, rfl⟩ := Option.map_eq_some_iff.mp there
  exact ⟨v, next⟩

theorem job?_running (i : ThreadId) (l : LoopId) :
    job? { w with here := i } l = w.job? l := by
  unfold job? next?
  rcases w.loops[l]? with _ | c
  · rfl
  · dsimp only [Option.bind_some]
    rcases c.queue.drainInbox.next? with _ | ⟨job, q⟩ <;> rfl

end World

namespace Transfer

/-- What threads have in hand. -/
structure Hands where
  refs : Multiset Guest.Ref
  tokens : Multiset TokenId

/-- What threads have in hand after a move. -/
def Hands.after (h : Hands) (r : Record) : Hands :=
  match r.move, r.outcome with
  | .release _ ref, _ | .drop _ ref, _ => { h with refs := h.refs.erase ref }
  | .copyToken _ t, _ => { h with tokens := t ::ₘ h.tokens }
  | .dropToken _ t, _ => { h with tokens := h.tokens.erase t }
  | _, .ok (.ref (.ok ref)) | _, .ok (.read (some (.ok ref))) => { h with refs := ref ::ₘ h.refs }
  | _, .ok (.token (.ok t)) => { h with tokens := t ::ₘ h.tokens }
  | _, _ => h

def hands : List Record → Hands
  | [] => ⟨0, 0⟩
  | r :: past => (hands past).after r

/-- A token gives its reference up: to a receiver on the thread of its source at once, to another one
when the request is served. -/
def Record.Serves (t : TokenId) (r : Record) : Prop :=
  (∃ l v k, r.move = .turn l ∧ r.before.next? l = some (.serve t, v) ∧
      r.before.token? t = some k ∧ r.before.runtime.isAttached k.thread = true ∧
      r.outcome = .ok .done) ∨
    ∃ i c id k, r.move = .receive i t c ∧ r.before.token? t = some k ∧ c.thread = k.thread ∧
      r.outcome = .ok (.receive id)

def Served (t : TokenId) (past : List Record) : Prop := ∃ r ∈ past, r.Serves t

/-- What the source of a token stood for when the token was served. -/
def ServedAs (t : TokenId) (v : Host.Value) (past : List Record) : Prop :=
  ∃ r ∈ past, r.Serves t ∧ ∃ k, r.before.token? t = some k ∧ r.before.value? k.source = some v

/-- A token that was not served yet, and that was received or can be. -/
def Pending (t : TokenId) (past : List Record) : Prop :=
  ¬ Served t past ∧ (receiver? t past ≠ none ∨ t ∈ (hands past).tokens)

/-- References are given back and tokens are used by those who have them in hand, no thread is detached
that waits for its own request, and counts and handles do not run out. -/
def Rule.owned : Rule := fun past w m =>
  match m with
  | .release _ ref | .drop _ ref => ref ∈ (hands past).refs
  | .copyToken _ t | .dropToken _ t | .receive _ t _ => t ∈ (hands past).tokens
  | .detach _ c => ∀ d ∈ w.runtime.waiting, d.destination ≠ c.thread
  | .retain _ r v => ∀ x, w.realms[r]? = some x → (RefTable.Call.retain v).Fits x.table
  | .copy _ ref | .transfer _ _ ref => ∀ x, w.realms[ref.realm]? = some x →
      (RefTable.Call.retainHandle ref.handle).Fits x.table
  | .turn l => ∀ t r n v u x, w.next? l = some (.deliver t r n (.ok v), u) →
      w.realms[r]? = some x → (RefTable.Call.retain v).Fits x.table
  | _ => True

/-- The same, but a thread may be detached at any time. -/
def Rule.held : Rule := fun past w m =>
  match m with
  | .detach _ _ => True
  | m => Rule.owned past w m

theorem Rule.held_of_owned (past : List Record) (w : World) (m : Move)
    (permitted : Rule.owned past w m) : Rule.held past w m := by
  cases m with
  | detach => trivial
  | _ => exact permitted

/-- The token whose request a move leaves without an answer: when the token is received its source is
not attached, or when the request comes the source is not attached any more or nobody waits. -/
def Record.strands? (r : Record) : Option TokenId :=
  match r.move with
  | .receive _ t c =>
    match r.before.token? t with
    | some k =>
      if k.state = .created ∧ c.thread ≠ k.thread ∧ r.before.runtime.isAttached k.thread = false
      then some t else none
    | none => none
  | .turn l =>
    match r.before.job? l with
    | some (.serve t) =>
      match r.before.token? t with
      | some k =>
        if r.before.runtime.isAttached k.thread = true ∧
            (r.before.runtime.waiting.find? (·.correlation == k.correlation)).isSome = true
        then none else some t
      | none => none
    | _ => none
  | _ => none

/-- A token is served, or its request is left without an answer. -/
def Record.Ends (t : TokenId) (r : Record) : Prop := r.Serves t ∨ r.strands? = some t

def Ended (t : TokenId) (past : List Record) : Prop := ∃ r ∈ past, r.Ends t

/-- A token that still has its reference: it was received or can be, and nothing came of that yet. -/
def Owing (t : TokenId) (past : List Record) : Prop :=
  ¬ Ended t past ∧ (receiver? t past ≠ none ∨ t ∈ (hands past).tokens)

/-- Why nobody gives a reference back. -/
inductive Loss where
  /-- It was let go of, and its realm takes no note. -/
  | discarded
  /-- A receiver was let go of that had not looked for its reply. -/
  | unread
  /-- The request for it has no answer. -/
  | stranded
deriving DecidableEq

/-- The reference that a move leaves with nobody to give it back. -/
def Record.loses? (r : Record) : Option (Loss × Guest.Ref) :=
  match r.move with
  | .drop _ ref => if r.before.takesNote ref.realm then none else some (.discarded, ref)
  | .dropReceive _ id =>
    match r.before.receive? id with
    | some (.ready (some (.ok ref))) =>
      if r.before.takesNote ref.realm then none else some (.discarded, ref)
    | some (.waiting n r' _) => (r.before.sent? n).map fun h => (.unread, ⟨r', h⟩)
    | _ => none
  | _ => (r.strands?.bind r.before.source?).map fun ref => (.stranded, ref)

def losses (past : List Record) : Multiset (Loss × Guest.Ref) := past.filterMap Record.loses?

end Transfer

end Membrane
