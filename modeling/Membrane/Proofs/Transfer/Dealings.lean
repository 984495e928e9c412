import Membrane.Proofs.Transfer.Account
/-!
What threads do with references, tokens and receives, seen from the account: what a move takes into the
ledger its tables have gained, and what its tables have lost it takes from the ledger.
-/

set_option autoImplicit false

namespace Membrane.Transfer

variable {past past' : List Record} {w w' u v : World} {m : Move} {o : Except Halt Answer}
  {ref : Guest.Ref} {i : ThreadId} {t : TokenId}
  {c : Context}

theorem losses_of_none (r : Record) (spares : r.loses? = none) :
    losses (r :: past) = losses past := by
  rw [losses, List.filterMap_cons_none spares, losses]

theorem losses_of_some (r : Record) (p : Loss × Guest.Ref) (loses : r.loses? = some p) :
    losses (r :: past) = p ::ₘ losses past := by
  rw [losses, List.filterMap_cons_some loses, losses, Multiset.cons_coe]

/-- Which thread runs does not matter to what is lost. -/
theorem Record.loses?_still (still : u = { w with here := u.here }) :
    (⟨u, m, o⟩ : Record).loses? = (⟨w, m, o⟩ : Record).loses? := by
  rw [still]
  cases m with
  | turn l =>
    unfold Record.loses?
    dsimp only
    rw [Record.strands?_running]
    rfl
  | _ => rfl

/-- A move that decides on no token, and changes nothing of what is in hand or lost. -/
theorem books_untouched (permitted : Rule.held past w m) (still : u = { w with here := u.here })
    (plain : m.isPlain = true) (old : made? o = none)
    (hand : (hands (⟨u, m, o⟩ :: past)).refs = (hands past).refs)
    (spares : (⟨w, m, o⟩ : Record).loses? = none) :
    books (⟨u, m, o⟩ :: past) w = books past w := by
  have same := books_plain (u := u) (o := o) permitted (by rw [still]) plain fun t made => by
    rw [old] at made
    cases made
  rw [same, hand, losses_of_none _ ((Record.loses?_still still).trans spares)]
  rfl

/-- Nothing is gained or lost, and every reference rests with whom it was with. -/
theorem Account.rest (account : Account past w) (tables : w'.table? = w.table?)
    (rests : Rests w w') (before : books past' w = books past w) : Honest past past' w w' :=
  account.same (shift_of_same account.sound tables) ((rests.books past').trans before)

/-! References that are let go -/

theorem World.table?_note (ref : Guest.Ref) (w : World) : (w.note ref).table? = w.table? := by
  unfold World.note
  split
  · rfl
  · next x present =>
    have same : (w.withRealm ref.realm (x.scheduleFinalizer ref.handle).2).table? = w.table? := by
      rw [table?_withRealm ref.realm x _ present]
      exact Function.update_eq_self_iff.mpr (table?_of_present ref.realm x present).symm
    dsimp only
    split <;> exact same

/-- A reference that is noted is held for its realm to give it back. -/
theorem books_note (past : List Record) (ref : Guest.Ref) (x : Realm)
    (present : w.realms[ref.realm]? = some x) :
    books past (w.note ref) = (books past w).put (.finalizer, ref) := by
  let scheduled := w.withRealm ref.realm (x.scheduleFinalizer ref.handle).2
  have finalizers : noted scheduled =
      Function.update (noted w) ref.realm (ref.handle ::ₘ noted w ref.realm) := by
    rw [noted_withRealm ref.realm x _ present, noted_of_present ref.realm x present]
    congr 1
    show ((x.finalizers ++ [ref.handle] : List Handle) : Multiset Handle) = _
    rw [← Multiset.coe_add, Multiset.coe_singleton, Multiset.add_comm, Multiset.singleton_add]
  have after : books past scheduled = (books past w).put (.finalizer, ref) := by
    show Books.mk _ (noted scheduled) _ _ = _
    rw [finalizers]
    rfl
  have same : Rests scheduled (w.note ref) := by
    unfold World.note
    rw [present]
    dsimp only
    split <;> exact rests_of_same rfl rfl rfl rfl
  rw [same.books, after]

theorem World.lost_eq (ref : Guest.Ref) (w : World) :
    w.lost ref = if w.takesNote ref.realm then w.note ref else w := by
  unfold World.lost World.takesNote
  cases w.realms[ref.realm]? with
  | none => rfl
  | some x => rfl

/-- A reference whose holder lets go of it is noted, or nobody has it any more. -/
theorem Account.forgo (account : Account past w) (p : Claim) (has : 0 < (books past w).times p)
    (tables : v.table? = w.table?) (x : Realm) (present : v.realms[p.2.realm]? = some x)
    (before : books past' v = if v.takesNote p.2.realm then (books past w).take p
      else ((books past w).take p).put (.nobody .discarded, p.2)) :
    Honest past past' w (v.lost p.2) := by
  rw [World.lost_eq]
  cases notes : v.takesNote p.2.realm with
  | true =>
    rw [notes, if_pos rfl] at before
    refine account.pass p (.finalizer, p.2) has rfl
      (shift_of_same account.sound ((World.table?_note _ _).trans tables)) ?_
      (by intro _ _ other; cases other) (by intro _ _ other; cases other)
    rw [if_pos rfl, books_note past' p.2 x present, before]
  | false =>
    rw [notes, if_neg Bool.false_ne_true] at before
    exact account.pass p (.nobody .discarded, p.2) has rfl (shift_of_same account.sound tables)
      before (by intro _ _ other; cases other) (by intro _ _ other; cases other)

/-! Threads and what they have in hand -/

/-- What the table of a realm that is there gains and loses. -/
theorem Account.shift_realm (account : Account past w) (r : RealmId) (x y : Realm)
    (present : w.realms[r]? = some x) (gain loss : Multiset Handle)
    (shift : ∀ g, x.table.Sound g → RefTable.Shift g gain loss x.table y.table) :
    Shift (gain.map (Guest.Ref.mk r)) (loss.map (Guest.Ref.mk r)) w (w.withRealm r y) := by
  obtain ⟨g, sound⟩ := account.sound r x.table (table?_of_present r x present)
  exact shift_at account.sound r x.table y.table (table?_of_present r x present)
    (table?_withRealm r x y present) g gain loss (shift g sound)

theorem Account.shift_retainHandle (account : Account past w) (ref : Guest.Ref) (x y : Realm)
    (present : w.realms[ref.realm]? = some x) (retained : x.retainHandle ref.handle = .ok y)
    (fits : (RefTable.Call.retainHandle ref.handle).Fits x.table) :
    Shift {ref} 0 w (w.withRealm ref.realm y) := by
  obtain ⟨t, done, rfl⟩ := x.retainHandle_eq_ok y _ retained
  exact account.shift_realm ref.realm x { x with table := t } present {ref.handle} 0
    fun _ sound => sound.shift_retainHandle ref.handle fits done

/-- A thread has one reference more in hand, and a table has counted it. -/
theorem Account.gain (account : Account past w) (ref : Guest.Ref) (x y : Realm)
    (present : w.realms[ref.realm]? = some x) (kept : y.finalizers = x.finalizers)
    (shift : Shift {ref} 0 w (w.withRealm ref.realm y))
    (before : books past' w = (books past w).put (.hand, ref)) :
    Honest past past' w (w.withRealm ref.realm y) :=
  account.put (.hand, ref) shift
    (((rests_withRealm ref.realm x y present kept).books past').trans before)
    (by intro _ _ other; cases other) (by intro _ _ other; cases other)

theorem Account.retained (account : Account past w) (i : ThreadId) (r : RealmId) (v : Host.Value)
    (x : Realm) (present : w.realms[r]? = some x) (permitted : Rule.held past w (.retain i r v))
    (replies : u.replies = w.replies) :
    Honest past (⟨u, .retain i r v, .ok (.ref (.ok ⟨r, (x.retain v).1⟩))⟩ :: past) w
      (w.withRealm r (x.retain v).2) :=
  account.gain ⟨r, (x.retain v).1⟩ x _ present rfl
    (account.shift_realm r x (x.retain v).2 present {(x.retain v).1} 0
      fun _ sound => sound.shift_retain v (permitted x present))
    (books_plain permitted replies rfl (by intro _ made; cases made))

theorem Account.copied (account : Account past w) (i : ThreadId) (ref : Guest.Ref) (x y : Realm)
    (present : w.realms[ref.realm]? = some x) (retained : x.retainHandle ref.handle = .ok y)
    (permitted : Rule.held past w (.copy i ref)) (replies : u.replies = w.replies) :
    Honest past (⟨u, .copy i ref, .ok (.ref (.ok ref))⟩ :: past) w (w.withRealm ref.realm y) := by
  have shift := account.shift_retainHandle ref x y present retained (permitted x present)
  obtain ⟨t, _, rfl⟩ := x.retainHandle_eq_ok y _ retained
  exact account.gain ref x _ present rfl shift
    (books_plain permitted replies rfl (by intro _ made; cases made))

theorem times_of_mem_hand (member : ref ∈ (hands past).refs) :
    0 < (books past w).times (.hand, ref) := Multiset.count_pos.mpr member

/-- What somebody holds can be given back. -/
theorem Account.shift_release (account : Account past w) (p : Claim) (has : 0 < (books past w).times p)
    (x : Realm) (present : w.realms[p.2.realm]? = some x) :
    ∃ t, x.table.release p.2.handle = .ok t ∧
      Shift 0 {p.2} w (w.withRealm p.2.realm { x with table := t }) := by
  obtain ⟨g, sound⟩ := account.sound p.2.realm x.table (table?_of_present _ x present)
  have spare := account.spare p has
  simp only [rooted, World.held, table?_of_present _ x present, Option.isSome_some, ↓reduceIte,
    Option.map_some, Option.getD_some] at spare
  obtain ⟨t, done, shift⟩ := sound.shift_release p.2.handle spare
  exact ⟨t, done, shift_at account.sound p.2.realm x.table t (table?_of_present _ x present)
    (table?_withRealm _ x { x with table := t } present) g 0 {p.2.handle} shift⟩

theorem Account.released (account : Account past w) (i : ThreadId) (ref : Guest.Ref) (x y : Realm)
    (present : w.realms[ref.realm]? = some x) (released : x.release ref.handle = .ok y)
    (permitted : Rule.held past w (.release i ref)) (replies : u.replies = w.replies) :
    Honest past (⟨u, .release i ref, .ok (.released (.ok ()))⟩ :: past) w
      (w.withRealm ref.realm y) := by
  have has := times_of_mem_hand (w := w) permitted
  obtain ⟨t, done, shift⟩ := account.shift_release (.hand, ref) has x present
  obtain ⟨t', given, rfl⟩ := x.release_eq_ok y _ released
  obtain rfl := Except.ok.inj (done.symm.trans given)
  have rests := rests_withRealm ref.realm x { x with table := t } present rfl
  exact account.take (.hand, ref) has shift
    ((rests.books _).trans (books_plain permitted replies rfl (by intro _ made; cases made)))

/-- Whoever has a reference in hand can give it back. -/
theorem Account.not_refused (account : Account past w) (i : ThreadId) (ref : Guest.Ref) (x : Realm)
    (e : Fault) (present : w.realms[ref.realm]? = some x)
    (permitted : Rule.held past w (.release i ref)) : x.release ref.handle ≠ .error e := by
  obtain ⟨t, done, _⟩ :=
    account.shift_release (.hand, ref) (times_of_mem_hand permitted) x present
  rw [Realm.release, done]
  simp only [Except.map, ne_eq, reduceCtorEq, not_false_eq_true]

theorem Account.dropped (account : Account past w) (i : ThreadId) (ref : Guest.Ref) (x : Realm)
    (present : w.realms[ref.realm]? = some x) (permitted : Rule.held past w (.drop i ref))
    (still : u = { w with here := u.here }) :
    Honest past (⟨u, .drop i ref, .ok .done⟩ :: past) w (w.lost ref) := by
  have before := books_plain (u := u) (o := .ok .done) permitted (by rw [still]) rfl
    (by intro _ made; cases made)
  refine account.forgo (.hand, ref) (times_of_mem_hand permitted) rfl x present (before.trans ?_)
  have loses : (⟨u, .drop i ref, .ok .done⟩ : Record).loses? =
      if w.takesNote ref.realm then none else some (.discarded, ref) :=
    Record.loses?_still still
  cases notes : w.takesNote ref.realm with
  | true =>
    rw [notes, if_pos rfl] at loses
    rw [losses_of_none _ loses]
    rfl
  | false =>
    rw [notes, if_neg Bool.false_ne_true] at loses
    rw [losses_of_some _ _ loses]
    rfl

/-! Tokens -/

theorem books_issued (past : List Record) (owing : Owing w.tokens.size past) (k : Token) :
    books past (w.issued k) = (books past w).put (.debtor (.token w.tokens.size), k.source) := by
  have sources : (w.issued k).source? =
      Function.update w.source? w.tokens.size (some k.source) := by
    funext t
    rw [World.source?, World.token?_issued, Function.update_apply, Function.update_apply]
    split <;> rfl
  have owes : (books past (w.issued k)).owes =
      Function.update (books past w).owes (.token w.tokens.size) (some k.source) := by
    funext d
    cases d with
    | token t =>
      refine Option.ext fun ref => ?_
      rw [owes_token_iff, sources, Function.update_apply, Function.update_apply]
      by_cases same : t = w.tokens.size
      · rw [if_pos same, if_pos (by rw [same]), same]
        exact and_iff_right owing
      · rw [if_neg same, if_neg fun equal => same (Debtor.token.inj equal), owes_token_iff]
    | reply n => rfl
    | receive id => rfl
  show Books.mk _ _ (books past (w.issued k)).owes _ = _
  rw [owes]
  rfl

theorem source?_size : w.source? w.tokens.size = none := by
  rw [World.source?, w.token?_size]
  rfl

/-- A token that is new has its reference. -/
theorem Tracked.owing_issued (tracked : Tracked past w) (i : ThreadId) (c : Context)
    (ref : Guest.Ref) : Owing w.tokens.size
      (⟨u, .transfer i c ref, .ok (.token (.ok w.tokens.size))⟩ :: past) := by
  refine ⟨?_, Or.inr (Multiset.mem_cons_self _ _)⟩
  rintro ⟨r, member, ends⟩
  rcases List.mem_cons.mp member with rfl | old
  · obtain ⟨_, _, ⟨l, move, _⟩ | ⟨j, d, move, _⟩⟩ := ends.cases
    · cases move
    · cases move
  · obtain ⟨l, known, _⟩ := tracked.met r old _ ends
    rw [w.token?_size] at known
    cases known

/-- A token has a reference of its own. -/
theorem Account.transferred (account : Account past w) (tracked : Tracked past w) (i : ThreadId)
    (c : Context) (ref : Guest.Ref) (x y : Realm) (present : w.realms[ref.realm]? = some x)
    (retained : x.retainHandle ref.handle = .ok y)
    (permitted : Rule.held past w (.transfer i c ref)) (replies : u.replies = w.replies)
    (k : Token) (source : k.source = ref) :
    Honest past (⟨u, .transfer i c ref, .ok (.token (.ok w.tokens.size))⟩ :: past) w
      ((w.numbered.withRealm ref.realm y).issued k) := by
  have shift := account.shift_retainHandle ref x y present retained (permitted x present)
  have finalizers : y.finalizers = x.finalizers := by
    obtain ⟨t, _, rfl⟩ := x.retainHandle_eq_ok y _ retained
    rfl
  have numbered : Rests w w.numbered := rests_of_same rfl rfl rfl rfl
  have rests := numbered.trans _
    (rests_withRealm (w := w.numbered) ref.realm x y present finalizers)
  refine account.put (.debtor (.token w.tokens.size), ref)
    ⟨shift.sound, shift.counts, shift.steady⟩ ?_ ?_ ?_
  · have issued := books_issued (w := w.numbered.withRealm ref.realm y) _
      (tracked.owing_issued (u := u) i c ref) k
    refine issued.trans ?_
    rw [rests.books, books_plain permitted replies rfl (by intro t made; cases made; exact source?_size),
      source]
    rfl
  · rintro d other same
    cases same
    dsimp only [books]
    rw [source?_size, ite_self]
  · rintro d other same
    cases same
    trivial

/-- To let go of a copy decides on no token. -/
theorem not_ends_of_dropToken (s : TokenId) : ¬ (⟨u, .dropToken i t, o⟩ : Record).Ends s := by
  intro ends
  obtain ⟨_, _, ⟨l, move, _⟩ | ⟨j, d, move, _⟩⟩ := ends.cases
  · cases move
  · cases move

/-- A token that still had its reference does not have it when its last copy is let go. -/
theorem not_owing_of_last (unclaimed : receiver? t past = none)
    (single : (hands past).tokens.count t ≤ 1) : ¬ Owing t (⟨u, .dropToken i t, o⟩ :: past) := by
  rintro ⟨_, received | held⟩
  · rw [receiver?, unclaimed] at received
    exact received rfl
  · change t ∈ (hands past).tokens.erase t at held
    have left : 0 < ((hands past).tokens.erase t).count t := Multiset.count_pos.mpr held
    rw [Multiset.count_erase_self] at left
    omega

theorem books_dropToken_last (permitted : Rule.held past w (.dropToken i t))
    (replies : u.replies = w.replies) (unclaimed : receiver? t past = none)
    (single : (hands past).tokens.count t ≤ 1) (ref : Guest.Ref) :
    books (⟨u, .dropToken i t, .ok .done⟩ :: past) w =
      (books past w).take (.debtor (.token t), ref) := by
  refine books_of_ended (m := .dropToken i t) permitted replies t
    (not_owing_of_last unclaimed single) rfl ?_ (fun s ends => absurd ends (not_ends_of_dropToken s))
    ref
  rintro j s ⟨⟩
  rfl

/-- As long as somebody received a token or can, it has its reference as before. -/
theorem owing_dropToken_iff (permitted : Rule.held past w (.dropToken i t)) (old : made? o = none)
    (others : receiver? t past ≠ none ∨ 1 < (hands past).tokens.count t) (s : TokenId) :
    Owing s (⟨u, .dropToken i t, o⟩ :: past) ↔ Owing s past := by
  have spared := not_ends_of_dropToken (u := u) (o := o) (i := i) (t := t) s
  by_cases same : s = t
  · subst same
    unfold Owing
    rw [ended_cons_iff, or_iff_right spared]
    refine and_congr_right fun _ => ⟨fun _ => ?_, fun _ => ?_⟩
    · exact others.imp_right fun more => Multiset.count_pos.mp (by omega)
    · refine others.imp (receiver?_cons_ne_none s _) fun more => Multiset.count_pos.mp ?_
      change 0 < ((hands past).tokens.erase s).count s
      rw [Multiset.count_erase_self]
      omega
  · refine owing_cons_iff permitted s ?_ (by rw [old]; intro made; cases made) spared
    rintro j ⟨⟩
    exact same rfl

theorem books_dropToken (permitted : Rule.held past w (.dropToken i t))
    (replies : u.replies = w.replies)
    (others : receiver? t past ≠ none ∨ 1 < (hands past).tokens.count t) :
    books (⟨u, .dropToken i t, .ok .done⟩ :: past) w = books past w := by
  refine books_cons _ replies (books past w).owes (fun s => Option.ext fun ref => ?_) fun _ _ => rfl
  rw [owes_token_iff, owes_token_iff]
  exact and_congr_left fun _ => (owing_dropToken_iff permitted rfl others s).symm

theorem times_of_owing (owing : Owing t past) (k : Token) (present : w.token? t = some k) :
    0 < (books past w).times (.debtor (.token t), k.source) :=
  Books.times_of_owes _ _ ((owes_token_iff past w t _).mpr
    ⟨owing, w.source?_of_present t k present⟩)

/-- Nothing has become of a token that is still to be received. -/
theorem Tracked.owing_of_created (tracked : Tracked past w) (history : History past w)
    (k : Token) (present : w.token? t = some k) (created : k.state = .created)
    (member : t ∈ (hands past).tokens) : Owing t past :=
  ⟨fun ended => tracked.ended t ended ((history.unclaimed t k present).mp created), Or.inr member⟩

/-- A token was received, or threads have more copies of it, if its reference is not to be noted. -/
theorem Tracked.others (tracked : Tracked past w) (history : History past w) (k : Token)
    (present : w.token? t = some k) (more : ¬ (k.copies ≤ 1 ∧ k.state = .created)) :
    receiver? t past ≠ none ∨ 1 < (hands past).tokens.count t := by
  by_cases created : k.state = .created
  · rw [tracked.copies t k present created]
    exact Or.inr (Nat.lt_of_not_le fun few => more ⟨few, created⟩)
  · exact Or.inl ((history.requested_iff t k present).mp created)

/-- The last copy of a token that nobody received takes its reference with it. -/
theorem Account.droppedToken (account : Account past w) (tracked : Tracked past w)
    (orderly : Orderly w) (history : History past w) (i : ThreadId) (t : TokenId) (k : Token)
    (present : w.token? t = some k) (permitted : Rule.held past w (.dropToken i t))
    (replies : u.replies = w.replies) :
    Honest past (⟨u, .dropToken i t, .ok .done⟩ :: past) w (w.dropCopy t k) := by
  have rests := rests_withToken t k k.dropped present rfl
  unfold World.dropCopy
  split
  · next last =>
    obtain ⟨few, created⟩ := last
    obtain ⟨x, source, _⟩ := orderly.exists_source t k present
    have has := times_of_owing (tracked.owing_of_created history k present created permitted) k
      present
    refine account.pass (.debtor (.token t), k.source) (.finalizer, k.source) has rfl
      (shift_of_same account.sound (World.table?_note _ _)) ?_ (by intro _ _ other; cases other)
      (by intro _ _ other; cases other)
    have unclaimed := (history.unclaimed t k present).mp created
    have single := (tracked.copies t k present created).trans_le few
    refine (books_note (w := w.withToken t k.dropped) _ k.source x source).trans ?_
    rw [rests.books, books_dropToken_last permitted replies unclaimed single]
  · next more =>
    exact account.rest rfl rests
      (books_dropToken permitted replies (tracked.others history k present more))

/-- A move decides on one token at most. -/
theorem Record.Ends.unique (r : Record) (s : TokenId) (ends : r.Ends s) (t : TokenId)
    (others : r.Ends t) : s = t := by
  obtain ⟨_, _, ⟨l, move, job⟩ | ⟨i, c, move, _⟩⟩ := ends.cases <;>
    obtain ⟨_, _, ⟨l', move', job'⟩ | ⟨i', c', move', _⟩⟩ := others.cases <;>
    rw [move] at move' <;> cases move'
  · rw [job] at job'
    cases job'
    rfl
  · rfl

/-- A token that a move decides on has no reference any more. -/
theorem books_of_ends (permitted : Rule.held past w m) (replies : u.replies = w.replies)
    (old : made? o = none) (ends : (⟨u, m, o⟩ : Record).Ends t) (ref : Guest.Ref) :
    books (⟨u, m, o⟩ :: past) w = { (books past w).take (.debtor (.token t), ref) with
      hand := (hands (⟨u, m, o⟩ :: past)).refs, lost := losses (⟨u, m, o⟩ :: past) } := by
  refine books_of_ended permitted replies t (fun owing => owing.1 ⟨_, List.mem_cons_self, ends⟩) old
    (fun j s drop => ?_) (fun s other => other.unique _ s t ends) ref
  obtain ⟨_, _, ⟨l, move, _⟩ | ⟨_, _, move, _⟩⟩ := ends.cases
  · rw [show m = .turn l from move] at drop
    cases drop
  · rw [show m = .receive _ _ _ from move] at drop
    cases drop

theorem Record.loses?_of_strands (r : Record) (strands : r.strands? = some t) (ref : Guest.Ref)
    (source : r.before.source? t = some ref) : r.loses? = some (.stranded, ref) := by
  obtain ⟨before, m, o⟩ := r
  have found : ((⟨before, m, o⟩ : Record).strands?.bind before.source?).map
      (fun ref => (Loss.stranded, ref)) = some (.stranded, ref) := by
    rw [strands, Option.bind_some, source, Option.map_some]
  cases m with
  | drop | dropReceive => cases strands
  | _ => exact found

/-- A receiver whose source is not attached gets no answer. -/
theorem strands?_of_unavailable (k : Token) (present : w.token? t = some k)
    (created : k.state = .created) (apart : c.thread ≠ k.thread)
    (gone : w.runtime.isAttached k.thread = false) :
    (⟨w, .receive i t c, o⟩ : Record).strands? = some t := by
  simp only [Record.strands?, present, created, apart, gone, ne_eq, not_false_eq_true, and_self,
    ↓reduceIte]

/-- A request that comes when its source is gone, or nobody waits, has no answer. -/
theorem strands?_of_unanswered (l : LoopId) (job : w.job? l = some (.serve t)) (k : Token)
    (present : w.token? t = some k) (unanswered : ¬ (w.runtime.isAttached k.thread = true ∧
      (w.runtime.waiting.find? (·.correlation == k.correlation)).isSome = true)) :
    (⟨w, .turn l, o⟩ : Record).strands? = some t := by
  simp only [Record.strands?, job, present, if_neg unanswered]

/-- A request that is left without an answer leaves the reference of its token with nobody. -/
theorem Account.stranded (account : Account past w) (permitted : Rule.held past w m)
    (still : u = { w with here := u.here }) (k : Token) (present : w.token? t = some k)
    (owing : Owing t past) (strands : (⟨w, m, o⟩ : Record).strands? = some t)
    (old : made? o = none) (hand : (hands (⟨u, m, o⟩ :: past)).refs = (hands past).refs)
    (tables : w'.table? = w.table?) (rests : Rests w w') :
    Honest past (⟨u, m, o⟩ :: past) w w' := by
  have loses := (Record.loses?_still (m := m) (o := o) still).trans
    (Record.loses?_of_strands _ strands k.source (w.source?_of_present t k present))
  have ends : (⟨u, m, o⟩ : Record).Ends t := by
    refine Or.inr ?_
    rw [still, Record.strands?_running]
    exact strands
  refine account.pass (.debtor (.token t), k.source) (.nobody .stranded, k.source)
    (times_of_owing owing k present) rfl (shift_of_same account.sound tables) ?_
    (by intro _ _ other; cases other) (by intro _ _ other; cases other)
  rw [rests.books, books_of_ends permitted (by rw [still]) old ends k.source, hand,
    losses_of_some _ _ loses]
  rfl

/-- A context on the thread of the source is one of the realm of the source. -/
theorem Orderly.source_realm (orderly : Orderly w) (t : TokenId) (k : Token)
    (present : w.token? t = some k) (c : Context) (context : IsContext w c)
    (here : c.thread = k.thread) : k.source.realm = c.realm := by
  obtain ⟨p, home, source⟩ := orderly.issued.housed t k present
  obtain ⟨q, place, thread, _⟩ := context
  exact (orderly.place_unique k.source.realm c.realm p q home place
    (by rw [source, thread, here])).1

theorem books_receiving (past : List Record) (x : Receive) (ref : Guest.Ref)
    (due : dueFrom (some x) = some ref) : books past (w.receiving x) =
      (books past w).put (.debtor (.receive w.receives.size), ref) := by
  have owes : (books past (w.receiving x)).owes =
      Function.update (books past w).owes (.receive w.receives.size) (some ref) := by
    funext d
    rw [Function.update_apply]
    cases d with
    | receive id =>
      show (w.receiving x).due? id = _
      rw [due?_receiving, due, Function.update_apply]
      by_cases same : id = w.receives.size
      · rw [if_pos same, if_pos (by rw [same])]
      · rw [if_neg same, if_neg fun equal => same (Debtor.receive.inj equal)]
        rfl
    | token | reply => rfl
  show Books.mk _ _ (books past (w.receiving x)).owes _ = _
  rw [owes]
  rfl

/-- A receiver on the thread of the source gets the reference of the token itself. -/
theorem Account.receivedLocal (account : Account past w) (tracked : Tracked past w)
    (orderly : Orderly w) (history : History past w) (i : ThreadId) (t : TokenId) (c : Context)
    (k : Token) (present : w.token? t = some k) (created : k.state = .created)
    (here : c.thread = k.thread) (context : IsContext w c)
    (permitted : Rule.held past w (.receive i t c)) (still : u = { w with here := u.here }) :
    Honest past (⟨u, .receive i t c, .ok (.receive w.receives.size)⟩ :: past) w
      ((w.withToken t k.fulfilled).receiving (.ready (some (.ok k.source)))) := by
  have holds := times_of_owing (tracked.owing_of_created history k present created permitted) k
    present
  have serves : (⟨u, .receive i t c, .ok (.receive w.receives.size)⟩ : Record).Serves t := by
    rw [still]
    exact Or.inr ⟨i, c, _, k, rfl, present, here, rfl⟩
  have spares : (⟨w, .receive i t c, .ok (.receive w.receives.size)⟩ : Record).loses? = none := by
    simp only [Record.loses?, Record.strands?, present, here, ne_eq, not_true_eq_false, false_and,
      and_false, ↓reduceIte, Option.bind_none, Option.map_none]
  have rests := rests_withToken t k k.fulfilled present rfl
  refine account.pass (.debtor (.token t), k.source)
    (.debtor (.receive w.receives.size), k.source) holds rfl (shift_of_same account.sound rfl)
    ?_ ?_ ?_
  · refine (books_receiving (w := w.withToken t k.fulfilled) _ _ k.source rfl).trans ?_
    rw [rests.books, books_of_ends permitted (by rw [still]) rfl (Or.inl serves) k.source,
      losses_of_none _ ((Record.loses?_still still).trans spares)]
    rfl
  · rintro d ref same
    cases same
    show Function.update (books past w).owes (.token t) none (.receive w.receives.size) = none
    rw [Function.update_of_ne (by intro other; cases other)]
    exact due?_size
  · rintro d ref same
    cases same
    have realm := orderly.source_realm t k present c context here
    have live := account.spare (.debtor (.token t), k.source) holds
    obtain ⟨v, value⟩ := account.stands k.source (Nat.zero_lt_of_lt live)
    refine ⟨t, c, ⟨_, List.mem_cons_self, i, rfl, rfl⟩, realm, v, v,
      ⟨_, List.mem_cons_self, serves, k, ?_, ?_⟩, value, rfl⟩
    · rw [still]
      exact present
    · rw [still]
      exact value

/-- A receive that makes nothing of its token, or has yet to. -/
theorem books_receive (permitted : Rule.held past w (.receive i t c))
    (still : u = { w with here := u.here }) (old : made? o = none)
    (hand : (hands (⟨u, .receive i t c, o⟩ :: past)).refs = (hands past).refs)
    (spared : ¬ (⟨w, .receive i t c, o⟩ : Record).Ends t) :
    books (⟨u, .receive i t c, o⟩ :: past) w = books past w := by
  have spares : (⟨w, .receive i t c, o⟩ : Record).strands? = none := by
    refine Option.eq_none_iff_forall_ne_some.mpr fun s lost => ?_
    obtain ⟨_, _, ⟨_, move, _⟩ | ⟨_, _, move, _⟩⟩ := Record.Ends.cases s _ (Or.inr lost)
    · cases move
    · cases move
      exact spared (Or.inr lost)
  have loses : (⟨u, .receive i t c, o⟩ : Record).loses? = none := by
    rw [Record.loses?_still still]
    show ((⟨w, .receive i t c, o⟩ : Record).strands?.bind _).map _ = none
    rw [spares]
    rfl
  have same := books_spared (u := u) (o := o) permitted (by rw [still])
    (by intro _ _ other; cases other) (by intro _ made; rw [old] at made; cases made) fun s ends => by
      obtain ⟨_, _, ⟨_, move, _⟩ | ⟨_, _, move, _⟩⟩ := ends.cases
      · cases move
      · cases move
        exact spared (ends.still _ still)
  rw [same, hand, losses_of_none _ loses]
  rfl

/-- Only whoever comes first gets an answer. -/
theorem not_ends_of_again (k : Token) (present : w.token? t = some k) (claimed : k.state ≠ .created)
    (halt : Halt) : ¬ (⟨w, .receive i t c, .error halt⟩ : Record).Ends t := by
  intro ends
  obtain ⟨k', there, ⟨_, move, _⟩ | ⟨_, _, _, created | ⟨_, done⟩⟩⟩ := ends.cases
  · cases move
  · rw [show w.token? t = some k' from there, Option.some.injEq] at present
    exact claimed (present ▸ created)
  · cases done

/-- A receiver that asks an attached source has yet to get its answer. -/
theorem not_ends_of_asked (k : Token) (present : w.token? t = some k) (apart : c.thread ≠ k.thread)
    (source : Attachment) (attached : w.runtime.attachment? k.thread = some source) :
    ¬ (⟨w, .receive i t c, o⟩ : Record).Ends t := by
  rintro ((⟨_, _, _, other, _⟩ | ⟨_, _, _, l, move, before, near, _⟩) | lost)
  · cases other
  · cases move
    rw [show w.token? t = some l from before, Option.some.injEq] at present
    exact apart (present ▸ near)
  · have stays : w.runtime.isAttached k.thread = true := by
      rw [Runtime.isAttached, attached, Option.isSome_some]
    simp only [Record.strands?, present, stays, Bool.true_eq_false, and_false, ↓reduceIte,
      reduceCtorEq] at lost

theorem rests_asked (t : TokenId) (k : Token) (present : w.token? t = some k) (c : Context)
    (source : Attachment) : Rests w (w.asked t k c source) := by
  let claimed := w.withToken t k.claimed.copied
  have expecting : Rests claimed (claimed.expecting (w.continuation k c)) := by
    refine ⟨rfl, rfl, ?_, rfl⟩
    funext n
    rw [World.sent?, World.reply?_expecting, Function.update_apply]
    split
    · next fresh => rw [fresh, World.sent?_of_le _ (Nat.le_refl _)]; rfl
    · rfl
  have queued : Rests (claimed.expecting (w.continuation k c))
      (((claimed.expecting (w.continuation k c)).withQueue c.loop (·.hold)).post source.loop
        (.serve t)) := rests_of_same rfl rfl rfl rfl
  exact (((rests_withToken t k k.claimed.copied present rfl).trans _ expecting).trans _ queued).trans
    _ (rests_receiving _ rfl)

/-! Receives -/

/-- A receive that is looked at or let go owes nothing any more. -/
theorem books_withReceive (past : List Record) (id : ReceiveId) (x : Receive) (y : Option Receive)
    (present : w.receive? id = some x) (done : dueFrom y = none) (ref : Guest.Ref) :
    books past (w.withReceive id y) = (books past w).take (.debtor (.receive id), ref) := by
  have owes : (books past (w.withReceive id y)).owes =
      Function.update (books past w).owes (.receive id) none := by
    funext d
    rw [Function.update_apply]
    cases d with
    | receive j =>
      show (w.withReceive id y).due? j = _
      rw [due?_withReceive id x present, done, Function.update_apply]
      by_cases same : j = id
      · rw [if_pos same, if_pos (by rw [same])]
      · rw [if_neg same, if_neg fun equal => same (Debtor.receive.inj equal)]
        rfl
    | token | reply => rfl
  show Books.mk _ _ (books past (w.withReceive id y)).owes _ = _
  rw [owes]
  rfl

/-- What a reply owes is what is in it. -/
theorem owes_withReply (past : List Record) (n : ReplyId) (ch : Channel (Except Fault Handle))
    (present : w.reply? n = some ch)
    (f : Channel (Except Fault Handle) → Channel (Except Fault Handle)) :
    (books past (w.withReply n f)).owes = Function.update (books past w).owes (.reply n)
      ((asker? n past).bind fun a => (sentOn (some (f ch))).map fun h => ⟨a.2.1.realm, h⟩) := by
  funext d
  rw [Function.update_apply]
  cases d with
  | reply j =>
    show ((asker? j past).bind fun a => ((w.withReply n f).sent? j).map _) = _
    rw [sent?_withReply n ch present f, Function.update_apply]
    by_cases same : j = n
    · rw [if_pos same, if_pos (by rw [same]), same]
    · rw [if_neg same, if_neg fun equal => same (Debtor.reply.inj equal)]
      rfl
  | token | receive => rfl

theorem books_withReply (past : List Record) (n : ReplyId) (ch : Channel (Except Fault Handle))
    (present : w.reply? n = some ch)
    (f : Channel (Except Fault Handle) → Channel (Except Fault Handle))
    (done : sentOn (some (f ch)) = none) (ref : Guest.Ref) :
    books past (w.withReply n f) = (books past w).take (.debtor (.reply n), ref) := by
  show Books.mk _ _ (books past (w.withReply n f)).owes _ = _
  rw [owes_withReply past n ch present f, done]
  simp only [Option.map_none, Option.bind_fun_none]
  rfl

/-- A receive that has its answer gives it to whoever asks. -/
theorem Account.polledReady (account : Account past w) (i : ThreadId) (id : ReceiveId)
    (answer : Option (Except Fault Guest.Ref)) (present : w.receive? id = some (.ready answer))
    (permitted : Rule.held past w (.poll i id)) (still : u = { w with here := u.here }) :
    Honest past
      (⟨u, .poll i id, .ok (.read (some (answer.getD (.error .transferAborted))))⟩ :: past) w
      (w.withReceive id (some (.ready none))) := by
  have none : ∀ e, answer = none ∨ answer = some (.error e) → Honest past (⟨u, .poll i id,
      .ok (.read (some (answer.getD (.error .transferAborted))))⟩ :: past) w
      (w.withReceive id (some (.ready none))) := by
    rintro e (rfl | rfl)
    · exact account.rest rfl (rests_withReceive id _ _ present rfl)
        (books_untouched permitted still rfl rfl rfl rfl)
    · exact account.rest rfl (rests_withReceive id _ _ present rfl)
        (books_untouched permitted still rfl rfl rfl rfl)
  rcases answer with _ | (e | ref)
  · exact none .transferAborted (Or.inl rfl)
  · exact none e (Or.inr rfl)
  · have due : (books past w).owes (.receive id) = some ref := by
      show w.due? id = _
      rw [World.due?, present]
      rfl
    refine account.pass (.debtor (.receive id), ref) (.hand, ref) (Books.times_of_owes _ _ due) rfl
      (shift_of_same account.sound rfl) ?_ (by intro _ _ other; cases other)
      (by intro _ _ other; cases other)
    rw [books_withReceive _ id _ _ present rfl ref,
      books_plain permitted (by rw [still]) rfl (by intro _ made; cases made),
      losses_of_none _ rfl]
    rfl

/-- What a receive reads that waits for a reply. -/
theorem Linked.owes_reply (linked : Linked past w) (id : ReceiveId) (n : ReplyId) (r : RealmId)
    (l : LoopId) (present : w.receive? id = some (.waiting n r l)) (h : Handle)
    (sent : w.sent? n = some h) : (books past w).owes (.reply n) = some ⟨r, h⟩ := by
  obtain ⟨t, c, made, rfl⟩ := linked.waits id n r l present
  exact (owes_reply_iff past w n _).mpr ⟨t, c, id, h, made, sent, rfl⟩

/-- A receive that waits gives its reply, once it is there, to whoever asks. -/
theorem Account.polledWaiting (account : Account past w) (linked : Linked past w) (i : ThreadId)
    (id : ReceiveId) (n : ReplyId) (r : RealmId) (l : LoopId)
    (present : w.receive? id = some (.waiting n r l)) (ch : Channel (Except Fault Handle))
    (reply : w.reply? n = some ch) (permitted : Rule.held past w (.poll i id))
    (still : u = { w with here := u.here }) :
    Honest past (⟨u, .poll i id, (Receipt.read r (ch.poll none).1).map .read⟩ :: past) w
      (w.withReply n fun ch => (ch.poll none).2) := by
  have rest : ∀ o, made? o = none →
      (hands (⟨u, .poll i id, o⟩ :: past)).refs = (hands past).refs →
      sentOn (some (ch.poll none).2) = sentOn (some ch) →
      Honest past (⟨u, .poll i id, o⟩ :: past) w (w.withReply n fun ch => (ch.poll none).2) :=
    fun o old hand same => account.rest rfl (rests_withReply n ch reply _ same)
      (books_untouched permitted still rfl old hand rfl)
  obtain ⟨state, waiter⟩ := ch
  rcases state with _ | (e | h) | _ | _ | _
  · exact rest _ rfl rfl rfl
  · exact rest _ rfl rfl rfl
  · have owes := linked.owes_reply id n r l present h (by rw [World.sent?, reply]; rfl)
    refine account.pass (.debtor (.reply n), ⟨r, h⟩) (.hand, ⟨r, h⟩) (Books.times_of_owes _ _ owes)
      rfl (shift_of_same account.sound rfl) ?_ (by intro _ _ other; cases other)
      (by intro _ _ other; cases other)
    refine (books_withReply _ n _ reply _ rfl ⟨r, h⟩).trans ?_
    have before := books_plain (u := u) (o := .ok (.read (some (.ok ⟨r, h⟩)))) permitted
      (by rw [still]) rfl (by intro _ made; cases made)
    rw [losses_of_none _ rfl] at before
    exact congrArg (Books.take · (.debtor (.reply n), ⟨r, h⟩)) before
  · exact rest _ rfl rfl rfl
  · exact rest _ rfl rfl rfl
  · exact rest _ rfl rfl rfl

/-- A receive without a reference may be let go of. -/
theorem Account.droppedRead (account : Account past w) (i : ThreadId) (id : ReceiveId)
    (answer : Option (Except Fault Guest.Ref)) (present : w.receive? id = some (.ready answer))
    (empty : ∀ ref, answer ≠ some (.ok ref)) (permitted : Rule.held past w (.dropReceive i id))
    (still : u = { w with here := u.here }) :
    Honest past (⟨u, .dropReceive i id, .ok .done⟩ :: past) w (w.withReceive id none) := by
  rcases answer with _ | (e | ref)
  · exact account.rest rfl (rests_withReceive id _ _ present rfl)
      (books_untouched permitted still rfl rfl rfl (by simp only [Record.loses?, present]))
  · exact account.rest rfl (rests_withReceive id _ _ present rfl)
      (books_untouched permitted still rfl rfl rfl (by simp only [Record.loses?, present]))
  · exact absurd rfl (empty ref)

theorem Account.droppedReady (account : Account past w) (orderly : Orderly w) (i : ThreadId)
    (id : ReceiveId) (ref : Guest.Ref) (present : w.receive? id = some (.ready (some (.ok ref))))
    (permitted : Rule.held past w (.dropReceive i id)) (still : u = { w with here := u.here }) :
    Honest past (⟨u, .dropReceive i id, .ok .done⟩ :: past) w ((w.withReceive id none).lost ref) := by
  have due : (books past w).owes (.receive id) = some ref := by
    show w.due? id = _
    rw [World.due?, present]
    rfl
  obtain ⟨p, home⟩ := orderly.received.housed id ref present
  obtain ⟨x, there, _⟩ := (w.place?_eq_some_iff _ p).mp home
  have before := books_plain (u := u) (o := .ok .done) permitted (by rw [still]) rfl
    (by intro _ made; cases made)
  refine account.forgo (v := w.withReceive id none) (.debtor (.receive id), ref)
    (Books.times_of_owes _ _ due) rfl x there ?_
  rw [books_withReceive _ id _ none present rfl ref, before]
  have loses : (⟨u, .dropReceive i id, .ok .done⟩ : Record).loses? =
      if w.takesNote ref.realm then none else some (.discarded, ref) := by
    rw [Record.loses?_still still]
    simp only [Record.loses?, present]
  have same : (w.withReceive id none).takesNote ref.realm = w.takesNote ref.realm := rfl
  rw [same]
  cases notes : w.takesNote ref.realm with
  | true =>
    rw [notes, if_pos rfl] at loses
    rw [losses_of_none _ loses]
    rfl
  | false =>
    rw [notes, if_neg Bool.false_ne_true] at loses
    rw [losses_of_some _ _ loses]
    rfl

/-- A reply that was sent and not read is lost with its receive. -/
theorem Account.droppedWaiting (account : Account past w) (linked : Linked past w) (i : ThreadId)
    (id : ReceiveId) (n : ReplyId) (r : RealmId) (l : LoopId)
    (present : w.receive? id = some (.waiting n r l)) (ch : Channel (Except Fault Handle))
    (reply : w.reply? n = some ch) (permitted : Rule.held past w (.dropReceive i id))
    (still : u = { w with here := u.here }) :
    Honest past (⟨u, .dropReceive i id, .ok .done⟩ :: past) w
      (((w.withReceive id none).withReply n (·.abandon)).withQueue l (·.letGo)) := by
  have gone := rests_withReceive id _ none present rfl
  have released : Rests ((w.withReceive id none).withReply n (·.abandon))
      (((w.withReceive id none).withReply n (·.abandon)).withQueue l (·.letGo)) :=
    rests_of_same rfl rfl rfl rfl
  have loses : (⟨w, .dropReceive i id, .ok .done⟩ : Record).loses? =
      (w.sent? n).map fun h => (.unread, ⟨r, h⟩) := by
    simp only [Record.loses?, present]
  cases sent : w.sent? n with
  | none =>
    have abandoned := rests_withReply (w := w.withReceive id none) n ch reply (·.abandon)
      (by rw [World.sent?, reply] at sent; exact sent.symm)
    refine account.rest rfl ((gone.trans _ abandoned).trans _ released)
      (books_untouched permitted still rfl rfl rfl ?_)
    rw [loses, sent]
    rfl
  | some h =>
    refine account.pass (.debtor (.reply n), ⟨r, h⟩) (.nobody .unread, ⟨r, h⟩)
      (Books.times_of_owes _ _ (linked.owes_reply id n r l present h sent)) rfl
      (shift_of_same account.sound rfl) ?_ (by intro _ _ other; cases other)
      (by intro _ _ other; cases other)
    have before := books_plain (u := u) (o := .ok .done) permitted (by rw [still]) rfl
      (by intro _ made; cases made)
    rw [losses_of_some _ _ ((Record.loses?_still still).trans (by rw [loses, sent]; rfl))] at before
    rw [released.books, books_withReply (w := w.withReceive id none) _ n ch reply _ rfl ⟨r, h⟩,
      gone.books, before]
    rfl

end Membrane.Transfer
