import Membrane.Proofs.World.Update
/-!
What it comes to that things are let go: references, copies of tokens, and receives. No receive leaves
behind a task that is to be woken.
-/

set_option autoImplicit false

namespace Membrane

namespace Channel

variable {α : Type}

/-- Whether the receiver waits. -/
def isWaiting (c : Channel α) : Bool :=
  match c.state with
  | .waiting => true
  | _ => false

/-- The channel after a value was sent, if anybody waits for it. -/
def answer (c : Channel α) (a : α) : Channel α := if c.isWaiting then ⟨.sent a, none⟩ else c

/-- The channel after its sender went. -/
def shut (c : Channel α) : Channel α := c.closeSender.2

theorem answer_quiet (c : Channel α) (a : α) (quiet : c.waiter = none) :
    (c.answer a).waiter = none := by
  unfold answer
  split
  · rfl
  · exact quiet

theorem shut_quiet (c : Channel α) (quiet : c.waiter = none) : c.shut.waiter = none := by
  unfold shut closeSender
  split
  · rfl
  · exact quiet

theorem send?_eq (c : Channel α) (a : α) (quiet : c.waiter = none) :
    c.send? a = if c.isWaiting then some (none, c.answer a) else none := by
  cases state : c.state <;> simp [send?, answer, isWaiting, state, quiet]

theorem closeSender_eq (c : Channel α) (quiet : c.waiter = none) :
    c.closeSender = (none, c.shut) := by
  cases state : c.state <;> simp [closeSender, shut, state, quiet]

theorem answer_of_not_waiting (c : Channel α) (a : α) (done : c.isWaiting = false) :
    c.answer a = c := by
  simp only [answer, done, Bool.false_eq_true, ↓reduceIte]

theorem shut_of_not_waiting (c : Channel α) (done : c.isWaiting = false) : c.shut = c := by
  cases state : c.state with
  | waiting =>
    rw [isWaiting, state] at done
    cases done
  | sent | closed | taken | abandoned => simp only [shut, closeSender, state]

end Channel

namespace World

variable (w : World)

/-- No reply has anybody to be woken for it. -/
def Quiet : Prop :=
  ∀ (n : ReplyId) (ch : Channel (Except Fault Handle)), w.replies[n]? = some ch → ch.waiter = none

/-- Notes a reference to be given back by its realm. -/
def note (ref : Guest.Ref) : World :=
  match w.realms[ref.realm]? with
  | none => w
  | some x =>
    let noted := w.withRealm ref.realm (x.scheduleFinalizer ref.handle).2
    if x.finalizers.isEmpty then noted.post x.loop (.collect ref.realm) else noted

/-- A reference is let go that was not given back. -/
def lost (ref : Guest.Ref) : World :=
  match w.realms[ref.realm]? with
  | none => w
  | some x => if x.features.weakRefs then w.note ref else w

/-- Lets go of a copy of a token. -/
def dropCopy (t : TokenId) (k : Token) : World :=
  let dropped := w.withToken t { k with copies := k.copies - 1 }
  if k.copies ≤ 1 ∧ k.state = .created then dropped.note k.source else dropped

/-- What was dropped is noted in the realm, where weak references are in use. -/
theorem realms_lost (ref : Guest.Ref) (x : Realm)
    (present : w.realms[ref.realm]? = some x) :
    (w.lost ref).realms[ref.realm]? =
      some (if x.features.weakRefs then (x.scheduleFinalizer ref.handle).2 else x) := by
  have noted := w.realms_withRealm ref.realm x (x.scheduleFinalizer ref.handle).2 present ref.realm
  rw [if_pos rfl] at noted
  simp only [lost, note, present]
  split
  · split
    · exact noted
    · exact noted
  · exact present

end World

namespace Act

open World

variable (w : World)

theorem exec_scheduleFinalizer (r : RealmId) (x : Realm) (present : w.realms[r]? = some x)
    (h : Handle) : exec (scheduleFinalizer r h) w = (.ok (), w.note ⟨r, h⟩) := by
  have after : (w.withRealm r (x.scheduleFinalizer h).2).realms[r]? =
      some (x.scheduleFinalizer h).2 := by
    simp only [withRealm, getElem?_written w.realms r x _ present, ↓reduceIte]
  simp only [scheduleFinalizer, exec_bind, exec_onRealm w r x present, goOn_ok, exec_ite,
    exec_realm _ r _ after, exec_queueMicrotask, exec_pure, note, present]
  cases empty : x.finalizers.isEmpty <;> simp [Realm.scheduleFinalizer, empty]

theorem exec_dropRef (ref : Guest.Ref) (x : Realm) (present : w.realms[ref.realm]? = some x) :
    exec (dropRef ref) w = (.ok (), w.lost ref) := by
  simp only [dropRef, exec_bind, exec_realm w _ x present, goOn_ok, exec_ite,
    exec_scheduleFinalizer w _ x present, exec_pure, lost, present]
  split <;> rfl

theorem exec_dropToken (t : TokenId) (k : Token) (present : w.tokens[t]? = some k) (x : Realm)
    (source : w.realms[k.source.realm]? = some x) :
    exec (dropToken t) w = (.ok (), w.dropCopy t k) := by
  have kept : (w.withToken t { k with copies := k.copies - 1 }).realms[k.source.realm]? =
      some x := source
  simp only [dropToken, exec_bind, exec_token w t k present, goOn_ok, exec_setToken, exec_ite,
    exec_scheduleFinalizer _ _ x kept, exec_pure, dropCopy]
  split <;> rfl

theorem dropCopy_of_claimed (t : TokenId) (k : Token) (claimed : k.state ≠ .created) :
    w.dropCopy t k = w.withToken t { k with copies := k.copies - 1 } := by
  simp only [dropCopy, claimed, and_false, ↓reduceIte]

/-- An answer that was not read is let go. -/
theorem exec_dropReceive_ready (id : ReceiveId) (answer : Option (Except Fault Guest.Ref))
    (present : w.receives[id]? = some (some (.ready answer)))
    (there : ∀ ref, answer = some (.ok ref) → ∃ x, w.realms[ref.realm]? = some x) :
    exec (dropReceive id) w =
      (.ok (), match answer with
        | some (.ok ref) => (w.withReceive id none).lost ref
        | _ => w.withReceive id none) := by
  simp only [dropReceive, exec_bind, exec_fetch (fun w => w.receives[id]?) w _ present, goOn_ok,
    exec_setReceive]
  rcases answer with _ | (e | ref)
  · rfl
  · rfl
  · obtain ⟨x, realm⟩ := there ref rfl
    exact exec_dropRef (w.withReceive id none) ref x realm

theorem exec_dropReceive_waiting (id : ReceiveId) (n : ReplyId) (r : RealmId) (l : LoopId)
    (present : w.receives[id]? = some (some (.waiting n r l)))
    (ch : Channel (Except Fault Handle)) (reply : w.replies[n]? = some ch) :
    exec (dropReceive id) w =
      (.ok (), ((w.withReceive id none).withReply n (·.abandon)).withQueue l (·.letGo)) := by
  have still : (w.withReceive id none).replies[n]? = some ch := reply
  simp only [dropReceive, exec_bind, exec_fetch (fun w => w.receives[id]?) w _ present, goOn_ok,
    exec_setReceive, exec_onReply _ n ch still, exec_onQueue]

/-- A receive that is not there is let go without effect. -/
theorem exec_dropReceive_gone (id : ReceiveId) (gone : ∀ x, w.receives[id]? ≠ some (some x)) :
    exec (dropReceive id) w = (.ok (), w) ∨ exec (dropReceive id) w = (.error .missing, w) := by
  simp only [dropReceive, fetch, exec_bind, exec_get, goOn_ok]
  rcases there : w.receives[id]? with _ | _ | x
  · exact Or.inr rfl
  · exact Or.inl rfl
  · exact absurd there (gone x)

/-- Collecting gives back all that was noted. -/
theorem exec_collectGarbage (r : RealmId) (x : Realm) (present : w.realms[r]? = some x)
    (owner : x.owner = w.here) :
    ∃ count y, exec (collectGarbage r) w = (.ok count, w.withRealm r y) ∧
      (y = x ∧ x.finalizers = [] ∨ y = x.collect.2) := by
  cases noted : x.finalizers.isEmpty with
  | true =>
    refine ⟨0, x, ?_, Or.inl ⟨rfl, List.isEmpty_iff.mp noted⟩⟩
    simp only [collectGarbage, exec_bind, exec_realm w r x present, goOn_ok, noted, ↓reduceIte,
      exec_pure, w.withRealm_self r x present]
  | false =>
    refine ⟨x.collect.1, x.collect.2, ?_, Or.inr rfl⟩
    have cleared : (w.withRealm r { x with finalizers := [] }).realms[r]? =
        some { x with finalizers := [] } := by
      rw [realms_withRealm w r x _ present, if_pos rfl]
    simp only [collectGarbage, exec_bind, exec_realm w r x present, goOn_ok, noted,
      Bool.false_eq_true, ↓reduceIte, exec_setRealm, exec_pure, withRealm_withRealm,
      exec_assertOwner _ r _ cleared owner]

/-- Whoever collects and comes to the end has collected everything. -/
theorem exec_collectGarbage_eq_ok (r : RealmId) (x : Realm) (present : w.realms[r]? = some x)
    (count : Nat) (w' : World) (done : exec (collectGarbage r) w = (.ok count, w')) :
    ∃ y, w' = w.withRealm r y ∧ (y = x ∧ x.finalizers = [] ∨ y = x.collect.2) := by
  by_cases owner : x.owner = w.here
  · obtain ⟨count', y, done', result⟩ := exec_collectGarbage w r x present owner
    rw [done'] at done
    cases done
    exact ⟨y, rfl, result⟩
  · simp only [collectGarbage, exec_bind, exec_realm w r x present, goOn_ok] at done
    cases empty : x.finalizers.isEmpty with
    | true =>
      rw [empty] at done
      cases done
      exact ⟨x, (w.withRealm_self r x present).symm, Or.inl ⟨rfl, List.isEmpty_iff.mp empty⟩⟩
    | false =>
      have cleared := w.realms_withRealm r x { x with finalizers := [] } present r
      rw [if_pos rfl] at cleared
      simp only [empty, Bool.false_eq_true, ↓reduceIte, exec_bind, exec_setRealm, goOn_ok,
        exec_assertOwner_foreign _ r _ cleared owner, goOn_error] at done
      cases done

end Act

end Membrane
