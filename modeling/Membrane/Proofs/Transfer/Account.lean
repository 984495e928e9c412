import Membrane.Proofs.Transfer.Ledger
import Membrane.Proofs.Transfer.Tracked
/-!
What the tables of a world gain and lose when a part of it changes, what a record changes in the books,
and which changes leave the books as they are.
-/

set_option autoImplicit false

namespace Membrane.Transfer

variable {past : List Record} {w w' u : World} {m : Move} {o : Except Halt Answer}

theorem Account.sound (account : Account past w) (r : RealmId) (t : RefTable)
    (present : w.table? r = some t) : ∃ g, t.Sound g := by
  obtain ⟨_, solvent, _⟩ := account
  exact solvent.sound r t present

/-- A reference that is held stands for a value. -/
theorem Account.stands (account : Account past w) (ref : Guest.Ref) (live : 0 < w.held ref) :
    ∃ v, w.value? ref = some v := by
  cases present : w.table? ref.realm with
  | none =>
    rw [World.held, present] at live
    exact absurd live (Nat.lt_irrefl 0)
  | some t =>
    rw [World.held, present] at live
    obtain ⟨g, sound⟩ := account.sound ref.realm t present
    obtain ⟨e, entry⟩ := sound.exists_entry ref.handle live
    refine ⟨e.value, ?_⟩
    rw [World.value?, present, Option.bind_some, RefTable.value?, entry]
    rfl

theorem table?_of_present (r : RealmId) (x : Realm) (present : w.realms[r]? = some x) :
    w.table? r = some x.table := by
  rw [World.table?, present, Option.map_some]

theorem table?_withRealm (r : RealmId) (x y : Realm) (present : w.realms[r]? = some x) :
    (w.withRealm r y).table? = Function.update w.table? r (some y.table) := by
  funext j
  rw [World.table?, World.realms_withRealm w r x y present, Function.update_apply, World.table?]
  split
  · rfl
  · rfl

theorem rooted_withRealm (r : RealmId) (x y : Realm) (present : w.realms[r]? = some x) :
    rooted (w.withRealm r y) = rooted w := by
  funext ref
  rw [rooted, rooted, table?_withRealm r x y present, Function.update_apply]
  split
  · next same => rw [same, table?_of_present r x present, Option.isSome_some, Option.isSome_some]
  · rfl

theorem table?_joined (x : Realm) (l : LoopId) :
    (w.joined x l).table? = Function.update w.table? w.realms.size (some x.table) := by
  funext j
  rw [World.table?, World.joined, getElem?_pushed, Function.update_apply, World.table?]
  split <;> rfl

theorem shift_of_same (sound : ∀ r t, w.table? r = some t → ∃ g, t.Sound g)
    (same : w'.table? = w.table?) : Shift 0 0 w w' := by
  refine ⟨by rw [same]; exact sound, fun ref => ?_, fun ref _ _ => ?_⟩
  · rw [World.held, World.held, rooted, rooted, same]
  · rw [World.value?, World.value?, same]

/-- What the table of one realm gains and loses, the world gains and loses. -/
theorem shift_at (sound : ∀ r t, w.table? r = some t → ∃ g, t.Sound g) (r : RealmId)
    (t t' : RefTable) (present : w.table? r = some t)
    (changed : w'.table? = Function.update w.table? r (some t')) (g : Host.Value)
    (gain loss : Multiset Handle) (shift : RefTable.Shift g gain loss t t') :
    Shift (gain.map (Guest.Ref.mk r)) (loss.map (Guest.Ref.mk r)) w w' := by
  have here : w'.table? r = some t' := by rw [changed, Function.update_self]
  have other : ∀ s, s ≠ r → w'.table? s = w.table? s := fun s apart => by
    rw [changed, Function.update_of_ne apart]
  have injective : Function.Injective (Guest.Ref.mk r) := fun h k equal =>
    congrArg Guest.Ref.handle equal
  have absent : ∀ (hs : Multiset Handle) (ref : Guest.Ref), ref.realm ≠ r →
      (hs.map (Guest.Ref.mk r)).count ref = 0 := by
    intro hs ref apart
    refine Multiset.count_eq_zero_of_notMem fun member => ?_
    obtain ⟨h, _, rfl⟩ := Multiset.mem_map.mp member
    exact apart rfl
  refine ⟨fun s t'' there => ?_, fun ref => ?_, fun ref before after => ?_⟩
  · by_cases same : s = r
    · rw [same, here, Option.some.injEq] at there
      exact ⟨g, there ▸ shift.sound⟩
    · rw [other s same] at there
      exact sound s t'' there
  · obtain ⟨s, h⟩ := ref
    by_cases same : s = r
    · subst same
      have counts := shift.counts h
      rw [Multiset.count_map_eq_count' _ _ injective, Multiset.count_map_eq_count' _ _ injective]
      simp only [World.held, rooted, here, present, Option.map_some, Option.getD_some,
        Option.isSome_some, ↓reduceIte]
      omega
    · rw [absent loss _ same, absent gain _ same]
      simp only [World.held, rooted, other s same]
  · obtain ⟨s, h⟩ := ref
    by_cases same : s = r
    · subst same
      simp only [World.held, here, present, Option.map_some, Option.getD_some] at before after
      simp only [World.value?, here, present, Option.bind_some]
      exact shift.steady h before after
    · simp only [World.value?, other s same]

/-- A new realm holds its own global object. -/
theorem shift_joined (sound : ∀ r t, w.table? r = some t → ∃ g, t.Sound g) (layout : Layout)
    (globalObject : Host.Value) (x : Realm) (fresh : x.table = .create layout globalObject)
    (l : LoopId) : Shift 0 0 w (w.joined x l) := by
  have tables := table?_joined (w := w) x l
  have absent : w.table? w.realms.size = none := by
    rw [World.table?, Array.getElem?_eq_none (Nat.le_refl _)]
    rfl
  have other : ∀ s, s ≠ w.realms.size → (w.joined x l).table? s = w.table? s := fun s apart => by
    rw [tables, Function.update_of_ne apart]
  have here : (w.joined x l).table? w.realms.size = some (.create layout globalObject) := by
    rw [tables, Function.update_self, fresh]
  refine ⟨fun s t there => ?_, fun ref => ?_, fun ref before _ => ?_⟩
  · by_cases same : s = w.realms.size
    · rw [same, here, Option.some.injEq] at there
      exact ⟨globalObject, there ▸ RefTable.create_sound layout globalObject⟩
    · rw [other s same] at there
      exact sound s t there
  · obtain ⟨s, h⟩ := ref
    by_cases same : s = w.realms.size
    · subst same
      simp only [World.held, rooted, here, absent, Option.map_some, Option.getD_some,
        Option.map_none, Option.getD_none, Option.isSome_some, Option.isSome_none,
        Bool.false_eq_true, ↓reduceIte, RefTable.count, RefTable.find?_create, RefTable.rooted]
      split <;> rfl
    · simp only [World.held, rooted, other s same]
  · obtain ⟨s, h⟩ := ref
    have same : s ≠ w.realms.size := by
      rintro rfl
      simp only [World.held, absent, Option.map_none, Option.getD_none, Nat.lt_irrefl] at before
    simp only [World.value?, other s same]

/-! What a record changes in the books -/

theorem ended_cons_iff (t : TokenId) (r : Record) :
    Ended t (r :: past) ↔ r.Ends t ∨ Ended t past := List.exists_mem_cons_iff _ _ _

/-- What is in hand stays there until it is let go. -/
theorem mem_tokens_of_kept (h : Hands) (r : Record) (t : TokenId) (member : t ∈ h.tokens)
    (kept : ∀ i, r.move ≠ .dropToken i t) : t ∈ (h.after r).tokens := by
  unfold Hands.after
  split
  · exact member
  · exact member
  · exact Multiset.mem_cons_of_mem member
  · next i s move =>
    have apart : t ≠ s := fun same => kept i (same ▸ move)
    exact (Multiset.mem_erase_of_ne apart).mpr member
  · exact member
  · exact member
  · exact Multiset.mem_cons_of_mem member
  · exact member

/-- A token that was received or can be is so before a move, or it is new. -/
theorem wanted_of_cons (permitted : Rule.held past w m) (t : TokenId)
    (wanted : receiver? t (⟨u, m, o⟩ :: past) ≠ none ∨ t ∈ (hands (⟨u, m, o⟩ :: past)).tokens) :
    (receiver? t past ≠ none ∨ t ∈ (hands past).tokens) ∨ made? o = some t := by
  rcases wanted with received | held
  · cases known : receiver? t past with
    | some d => exact Or.inl (Or.inl (Option.some_ne_none d))
    | none =>
      rw [receiver?, known] at received
      cases m with
      | receive i s c =>
        dsimp only at received
        split at received
        · next same => exact Or.inl (Or.inr (same ▸ permitted))
        · exact absurd rfl received
      | _ => exact absurd rfl received
  · rcases mem_tokens_after _ _ t held with old | ⟨i, copied⟩ | new
    · exact Or.inl (Or.inr old)
    · cases copied
      exact Or.inl (Or.inr permitted)
    · exact Or.inr new

/-- A token goes on having its reference as long as no move decides on it. -/
theorem owing_cons_iff (permitted : Rule.held past w m) (t : TokenId)
    (kept : ∀ i, m ≠ .dropToken i t) (old : made? o ≠ some t)
    (spared : ¬ (⟨u, m, o⟩ : Record).Ends t) : Owing t (⟨u, m, o⟩ :: past) ↔ Owing t past := by
  unfold Owing
  rw [ended_cons_iff, or_iff_right spared]
  refine and_congr_right fun _ => ⟨fun wanted => ?_, fun wanted => ?_⟩
  · exact (wanted_of_cons permitted t wanted).resolve_right old
  · rcases wanted with received | held
    · exact Or.inl (receiver?_cons_ne_none t _ received)
    · exact Or.inr (mem_tokens_of_kept _ _ t held kept)

theorem World.sent?_of_le (n : ReplyId) (beyond : w.replies.size ≤ n) : w.sent? n = none := by
  rw [World.sent?, World.reply?, Array.getElem?_eq_none beyond]
  rfl

/-- Whoever made a reply made it before it was sent. -/
theorem owes_reply_cons (r : Record) (replies : r.before.replies = w.replies) (n : ReplyId) :
    (books (r :: past) w).owes (.reply n) = (books past w).owes (.reply n) := by
  dsimp only [books]
  by_cases inside : n < w.replies.size
  · rw [asker?_cons_of_lt n r (by rw [replies]; exact inside)]
  · have unsent := World.sent?_of_le (w := w) n (Nat.le_of_not_lt inside)
    simp only [unsent, Option.map_none, Option.bind_fun_none]

/-- A record changes what is in hand and what is lost, and of what is owed it changes the tokens. -/
theorem books_cons (r : Record) (replies : r.before.replies = w.replies)
    (owes : Debtor → Option Guest.Ref)
    (tokens : ∀ t, owes (.token t) = (books (r :: past) w).owes (.token t))
    (others : ∀ d, (∀ t, d ≠ .token t) → owes d = (books past w).owes d) :
    books (r :: past) w = ⟨(hands (r :: past)).refs, noted w, owes, losses (r :: past)⟩ := by
  have same : owes = (books (r :: past) w).owes := by
    funext d
    cases d with
    | token t => exact tokens t
    | reply n =>
      rw [others (.reply n) (by intro t other; cases other), owes_reply_cons r replies n]
    | receive id => exact others (.receive id) (by intro t other; cases other)
  rw [same]
  rfl

/-- As long as no move decides on a token, only what is in hand and what is lost changes. -/
theorem books_spared (permitted : Rule.held past w m) (replies : u.replies = w.replies)
    (kept : ∀ i t, m ≠ .dropToken i t) (fresh : ∀ t, made? o = some t → w.source? t = none)
    (spared : ∀ t, ¬ (⟨u, m, o⟩ : Record).Ends t) :
    books (⟨u, m, o⟩ :: past) w = { books past w with
      hand := (hands (⟨u, m, o⟩ :: past)).refs, lost := losses (⟨u, m, o⟩ :: past) } := by
  refine books_cons ⟨u, m, o⟩ replies (books past w).owes (fun t => Option.ext fun ref => ?_)
    fun _ _ => rfl
  rw [owes_token_iff, owes_token_iff]
  refine and_congr_left fun source => ?_
  refine (owing_cons_iff permitted t (fun i => kept i t) (fun new => ?_) (spared t)).symm
  rw [fresh t new] at source
  cases source

/-- Moves that decide on no token. -/
def Move.isPlain : Move → Bool
  | .turn _ | .receive .. | .dropToken .. => false
  | _ => true

theorem books_plain (permitted : Rule.held past w m) (replies : u.replies = w.replies)
    (plain : m.isPlain = true) (fresh : ∀ t, made? o = some t → w.source? t = none) :
    books (⟨u, m, o⟩ :: past) w = { books past w with
      hand := (hands (⟨u, m, o⟩ :: past)).refs, lost := losses (⟨u, m, o⟩ :: past) } := by
  refine books_spared permitted replies (fun i t move => ?_) fresh fun t ends => ?_
  · rw [move] at plain
    cases plain
  · obtain ⟨_, _, ⟨l, move, _⟩ | ⟨i, c, move, _⟩⟩ := ends.cases
    · rw [show m = .turn l from move] at plain
      cases plain
    · rw [show m = .receive i t c from move] at plain
      cases plain

/-- When a move decides on a token, the token has no reference any more. -/
theorem books_of_ended (permitted : Rule.held past w m) (replies : u.replies = w.replies)
    (t : TokenId) (ended : ¬ Owing t (⟨u, m, o⟩ :: past)) (old : made? o = none)
    (kept : ∀ i s, m = .dropToken i s → s = t)
    (spared : ∀ s, (⟨u, m, o⟩ : Record).Ends s → s = t) (ref : Guest.Ref) :
    books (⟨u, m, o⟩ :: past) w = { (books past w).take (.debtor (.token t), ref) with
      hand := (hands (⟨u, m, o⟩ :: past)).refs, lost := losses (⟨u, m, o⟩ :: past) } := by
  refine books_cons ⟨u, m, o⟩ replies (Function.update (books past w).owes (.token t) none)
    (fun s => Option.ext fun ref => ?_) fun d other => ?_
  · rw [owes_token_iff, Function.update_apply]
    by_cases same : s = t
    · subst same
      simp only [↓reduceIte, reduceCtorEq, ended, false_and]
    · rw [if_neg fun equal => same (Debtor.token.inj equal), owes_token_iff]
      refine and_congr_left fun _ => (owing_cons_iff permitted s (fun i move => ?_) ?_ ?_).symm
      · exact same (kept i s move)
      · rw [old]
        exact Option.some_ne_none s |>.symm
      · exact fun ends => same (spared s ends)
  · rw [Function.update_of_ne (other t)]

/-! What a change of the world changes in the books -/

/-- Every reference rests with whom it was with. -/
structure Rests (w w' : World) : Prop where
  noted : noted w' = noted w
  sources : w'.source? = w.source?
  replies : w'.sent? = w.sent?
  receives : w'.due? = w.due?

theorem Rests.books (rests : Rests w w') (past : List Record) :
    Transfer.books past w' = Transfer.books past w := by
  simp only [Transfer.books, rests.noted, rests.sources, rests.replies, rests.receives]

theorem Rests.trans (v : World) (first : Rests w v) (second : Rests v w') : Rests w w' :=
  ⟨second.noted.trans first.noted, second.sources.trans first.sources,
    second.replies.trans first.replies, second.receives.trans first.receives⟩

theorem rests_of_same (realms : w'.realms = w.realms) (tokens : w'.tokens = w.tokens)
    (replies : w'.replies = w.replies) (receives : w'.receives = w.receives) : Rests w w' where
  noted := by
    funext r
    rw [Transfer.noted, realms, Transfer.noted]
  sources := by
    funext t
    rw [World.source?, World.token?, tokens, World.source?, World.token?]
  replies := by
    funext n
    rw [World.sent?, World.reply?, replies, World.sent?, World.reply?]
  receives := by
    funext id
    rw [World.due?, World.receive?, receives, World.due?, World.receive?]

theorem noted_withRealm (r : RealmId) (x y : Realm) (present : w.realms[r]? = some x) :
    noted (w.withRealm r y) = Function.update (noted w) r y.finalizers := by
  funext j
  rw [noted, World.realms_withRealm w r x y present, Function.update_apply, noted]
  split <;> rfl

theorem noted_of_present (r : RealmId) (x : Realm) (present : w.realms[r]? = some x) :
    noted w r = x.finalizers := by
  rw [noted, present, Option.map_some, Option.getD_some]

theorem noted_collected (r : RealmId) (x : Realm) (present : w.realms[r]? = some x) :
    noted (w.withRealm r x.collect.2) = Function.update (noted w) r 0 := by
  rw [noted_withRealm r x _ present, x.collect_eq]
  rfl

theorem rests_withRealm (r : RealmId) (x y : Realm) (present : w.realms[r]? = some x)
    (same : y.finalizers = x.finalizers) : Rests w (w.withRealm r y) := by
  refine ⟨?_, rfl, rfl, rfl⟩
  rw [noted_withRealm r x y present, same, ← noted_of_present r x present]
  exact Function.update_eq_self r _

theorem source?_withToken (t : TokenId) (k l : Token) (present : w.token? t = some k) :
    (w.withToken t l).source? = Function.update w.source? t (some l.source) := by
  funext s
  rw [World.source?, w.token?_withToken t k l present, Function.update_apply, Function.update_apply]
  split <;> rfl

theorem rests_withToken (t : TokenId) (k l : Token) (present : w.token? t = some k)
    (same : l.source = k.source) : Rests w (w.withToken t l) := by
  refine ⟨rfl, ?_, rfl, rfl⟩
  rw [source?_withToken t k l present, same, ← w.source?_of_present t k present]
  exact Function.update_eq_self t _

theorem sent?_withReply (n : ReplyId) (ch : Channel (Except Fault Handle))
    (present : w.reply? n = some ch)
    (f : Channel (Except Fault Handle) → Channel (Except Fault Handle)) :
    (w.withReply n f).sent? = Function.update w.sent? n (sentOn (some (f ch))) := by
  funext j
  rw [World.sent?, w.reply?_withReply n ch present f, Function.update_apply, Function.update_apply]
  split <;> rfl

/-- A reply may change as long as the reference in it does not. -/
theorem rests_withReply (n : ReplyId) (ch : Channel (Except Fault Handle))
    (present : w.reply? n = some ch)
    (f : Channel (Except Fault Handle) → Channel (Except Fault Handle))
    (same : sentOn (some (f ch)) = sentOn (some ch)) : Rests w (w.withReply n f) := by
  refine ⟨rfl, rfl, ?_, rfl⟩
  have before : sentOn (some ch) = w.sent? n := by rw [World.sent?, present]
  rw [sent?_withReply n ch present f, same, before]
  exact Function.update_eq_self n _

theorem due?_withReceive (id : ReceiveId) (x : Receive) (present : w.receive? id = some x)
    (y : Option Receive) : (w.withReceive id y).due? = Function.update w.due? id (dueFrom y) := by
  funext j
  rw [World.due?, w.receive?_withReceive id x present y, Function.update_apply,
    Function.update_apply]
  split <;> rfl

theorem rests_withReceive (id : ReceiveId) (x : Receive) (y : Option Receive)
    (present : w.receive? id = some x) (same : dueFrom y = dueFrom (some x)) :
    Rests w (w.withReceive id y) := by
  refine ⟨rfl, rfl, rfl, ?_⟩
  have before : dueFrom (some x) = w.due? id := by rw [World.due?, present]
  rw [due?_withReceive id x present y, same, before]
  exact Function.update_eq_self id _

theorem due?_receiving (x : Receive) :
    (w.receiving x).due? = Function.update w.due? w.receives.size (dueFrom (some x)) := by
  funext j
  rw [World.due?, w.receive?_receiving x, Function.update_apply, Function.update_apply]
  split <;> rfl

theorem due?_size : w.due? w.receives.size = none := by
  rw [World.due?, World.receive?, Array.getElem?_eq_none (Nat.le_refl _)]
  rfl

theorem rests_receiving (x : Receive) (done : dueFrom (some x) = none) :
    Rests w (w.receiving x) := by
  refine ⟨rfl, rfl, rfl, ?_⟩
  rw [due?_receiving, done, ← due?_size (w := w)]
  exact Function.update_eq_self _ _

theorem rests_joined (x : Realm) (empty : x.finalizers = []) (l : LoopId) :
    Rests w (w.joined x l) := by
  refine ⟨?_, rfl, rfl, rfl⟩
  funext s
  rw [noted, World.joined, getElem?_pushed]
  split
  · next same =>
    rw [noted, same, Array.getElem?_eq_none (Nat.le_refl _), Option.map_some, Option.getD_some,
      empty]
    rfl
  · rfl

/-- No receiver that loses a thread gets a reference, and none loses one. -/
theorem sentOn_orphaned (thread : ThreadIndex) (c : Continuation)
    (ch : Channel (Except Fault Handle)) :
    sentOn (some (c.orphaned thread ch)) = sentOn (some ch) := by
  cases waits : ch.isWaiting with
  | false => rw [c.orphaned_of_not_waiting thread ch waits]
  | true =>
    obtain ⟨state, waiter⟩ := ch
    cases state with
    | waiting =>
      unfold Continuation.orphaned
      split <;> rfl
    | _ => cases waits

theorem sentOn_orphanedReplies (thread : ThreadIndex) (n : ReplyId) (cs : List Continuation)
    (replies : Array (Channel (Except Fault Handle))) :
    sentOn (orphanedReplies thread cs replies)[n]? = sentOn replies[n]? := by
  induction cs generalizing replies with
  | nil => rfl
  | cons c cs ih =>
    refine (ih (replies.modify c.reply (c.orphaned thread))).trans ?_
    rw [Array.getElem?_modify]
    split
    · cases replies[n]? with
      | none => rfl
      | some ch => exact sentOn_orphaned thread c ch
    · rfl

theorem rests_detached (c : Context) (x : Realm) : Rests w (w.detached c x) := by
  obtain ⟨_, _, realms, tokens, _⟩ := runtime_detached (w := w) c x
  have receives : (w.detached c x).receives = w.receives := by
    unfold World.detached
    split <;> rfl
  have same : Rests w { w with replies := (w.detached c x).replies } := by
    refine ⟨rfl, rfl, ?_, rfl⟩
    funext n
    have replied : World.reply? { w with replies := (w.detached c x).replies } n =
        (w.detached c x).reply? n := rfl
    rw [World.sent?, replied, World.reply?, replies_detached, sentOn_orphanedReplies, World.sent?,
      World.reply?]
  exact same.trans _ (rests_of_same realms tokens rfl receives)

end Membrane.Transfer
