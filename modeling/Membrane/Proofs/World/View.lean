import Mathlib.Logic.Function.Basic
import Membrane.Proofs.World.Exchange
import Membrane.Proofs.World.Loop
import Membrane.Proofs.World.Thread
/-!
What is where in the world, as functions. Every change of the world is a change of one of them at one
place.
-/

set_option autoImplicit false

namespace Membrane

namespace World

variable (w : World)

def place? (r : RealmId) : Option Place := (w.realms[r]?).map Realm.place

def token? (t : TokenId) : Option Token := w.tokens[t]?

def reply? (n : ReplyId) : Option (Channel (Except Fault Handle)) := w.replies[n]?

/-- A receive that was not let go. -/
def receive? (id : ReceiveId) : Option Receive := (w.receives[id]?).bind fun x => x

theorem place?_eq_some_iff (r : RealmId) (p : Place) :
    w.place? r = some p ↔ ∃ x, w.realms[r]? = some x ∧ x.place = p := by
  rw [place?, Option.map_eq_some_iff]

theorem place?_of_present (r : RealmId) (x : Realm) (present : w.realms[r]? = some x) :
    w.place? r = some x.place := by
  rw [place?, present, Option.map_some]

theorem receive?_eq_some_iff (id : ReceiveId) (x : Receive) :
    w.receive? id = some x ↔ w.receives[id]? = some (some x) := by
  rw [receive?]
  rcases w.receives[id]? with _ | _ | y <;> simp

theorem receive?_eq_none_iff (id : ReceiveId) :
    w.receive? id = none ↔ ∀ x, w.receives[id]? ≠ some (some x) := by
  rw [receive?]
  rcases w.receives[id]? with _ | _ | y <;> simp

theorem place?_withRealm (r : RealmId) (x y : Realm) (present : w.realms[r]? = some x)
    (same : y.place = x.place) : (w.withRealm r y).place? = w.place? := by
  funext j
  rw [place?, realms_withRealm w r x y present, place?]
  by_cases here : j = r
  · rw [if_pos here, here, present, Option.map_some, Option.map_some, same]
  · rw [if_neg here]

theorem place?_joined (x : Realm) (l : LoopId) :
    (w.joined x l).place? = Function.update w.place? w.realms.size (some x.place) := by
  funext j
  rw [place?, joined, getElem?_pushed, Function.update_apply, place?]
  by_cases here : j = w.realms.size
  · rw [if_pos here, if_pos here, Option.map_some]
  · rw [if_neg here, if_neg here]

theorem place?_size : w.place? w.realms.size = none := by
  rw [place?, Array.getElem?_eq_none (Nat.le_refl _), Option.map_none]

theorem token?_withToken (t : TokenId) (k l : Token) (present : w.token? t = some k) :
    (w.withToken t l).token? = Function.update w.token? t (some l) := by
  funext j
  rw [Function.update_apply]
  exact tokens_withToken w t k l present j

theorem token?_issued (x : Token) :
    (w.issued x).token? = Function.update w.token? w.tokens.size (some x) := by
  funext j
  rw [Function.update_apply]
  exact getElem?_pushed w.tokens x j

theorem token?_size : w.token? w.tokens.size = none :=
  Array.getElem?_eq_none (Nat.le_refl _)

theorem reply?_withReply (n : ReplyId) (ch : Channel (Except Fault Handle))
    (present : w.reply? n = some ch)
    (f : Channel (Except Fault Handle) → Channel (Except Fault Handle)) :
    (w.withReply n f).reply? = Function.update w.reply? n (some (f ch)) := by
  funext j
  rw [reply?, replies_withReply, Function.update_apply, reply?]
  by_cases here : n = j
  · subst here
    rw [reply?] at present
    rw [if_pos rfl, if_pos rfl, present, Option.map_some]
  · rw [if_neg here, if_neg (Ne.symm here)]

theorem reply?_expecting (c : Continuation) :
    (w.expecting c).reply? = Function.update w.reply? w.replies.size (some .create) := by
  funext j
  rw [Function.update_apply]
  exact getElem?_pushed w.replies .create j

theorem reply?_size : w.reply? w.replies.size = none :=
  Array.getElem?_eq_none (Nat.le_refl _)

theorem receive?_receiving (x : Receive) :
    (w.receiving x).receive? = Function.update w.receive? w.receives.size (some x) := by
  funext j
  rw [receive?, receiving, getElem?_pushed, Function.update_apply, receive?]
  by_cases here : j = w.receives.size
  · rw [if_pos here, if_pos here, Option.bind_some]
  · rw [if_neg here, if_neg here]

theorem receive?_withReceive (id : ReceiveId) (x : Receive) (present : w.receive? id = some x)
    (y : Option Receive) : (w.withReceive id y).receive? = Function.update w.receive? id y := by
  rw [receive?_eq_some_iff] at present
  funext j
  rw [receive?, withReceive, getElem?_written w.receives id _ y present, Function.update_apply,
    receive?]
  by_cases here : j = id
  · rw [if_pos here, if_pos here, Option.bind_some]
  · rw [if_neg here, if_neg here]

end World

end Membrane
