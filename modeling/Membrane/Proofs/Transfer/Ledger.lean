import Membrane.Proofs.Transfer.Origin
/-!
Who holds which reference. Everything that may be given back or may come into somebody's hand is in a
ledger, and so is what nobody will give back. The tables of the realms count what the ledger lists.
-/

set_option autoImplicit false

namespace Membrane.Transfer

/-- Whoever owes one reference: a token, a reply that was sent, or a receive that has its answer. -/
inductive Debtor where
  | token (t : TokenId)
  | reply (n : ReplyId)
  | receive (id : ReceiveId)
deriving DecidableEq

/-- What a reference is held for. -/
inductive Holder where
  | hand
  | finalizer
  | debtor (d : Debtor)
  | nobody (why : Loss)
deriving DecidableEq

abbrev Claim := Holder × Guest.Ref

/-- The references that tables hold to their global objects. -/
def rooted (w : World) (ref : Guest.Ref) : Nat :=
  if (w.table? ref.realm).isSome then RefTable.rooted ref.handle else 0

/-- References were gained and lost, and a reference that is still held stands for what it stood
for. -/
structure Shift (gain loss : Multiset Guest.Ref) (w w' : World) : Prop where
  sound : ∀ r t, w'.table? r = some t → ∃ g, t.Sound g
  counts : ∀ ref, w'.held ref + loss.count ref + rooted w ref =
    w.held ref + gain.count ref + rooted w' ref
  steady : ∀ ref, 0 < w.held ref → 0 < w'.held ref → w'.value? ref = w.value? ref

/-- The tables hold what is in the ledger, and their global objects. -/
structure Solvent (ledger : Multiset Claim) (w : World) : Prop where
  sound : ∀ r t, w.table? r = some t → ∃ g, t.Sound g
  paid : ∀ ref, (ledger.map Prod.snd).count ref + rooted w ref = w.held ref

/-- What is held, by whom. -/
structure Books where
  hand : Multiset Guest.Ref
  noted : RealmId → Multiset Handle
  owes : Debtor → Option Guest.Ref
  lost : Multiset (Loss × Guest.Ref)

namespace Books

variable (b : Books)

/-- How often a claim is in the books. -/
def times : Claim → Nat
  | (.hand, ref) => b.hand.count ref
  | (.finalizer, ref) => (b.noted ref.realm).count ref.handle
  | (.debtor d, ref) => (b.owes d).toList.count ref
  | (.nobody why, ref) => b.lost.count (why, ref)

def put : Claim → Books
  | (.hand, ref) => { b with hand := ref ::ₘ b.hand }
  | (.finalizer, ref) =>
    { b with noted := Function.update b.noted ref.realm (ref.handle ::ₘ b.noted ref.realm) }
  | (.debtor d, ref) => { b with owes := Function.update b.owes d (some ref) }
  | (.nobody why, ref) => { b with lost := (why, ref) ::ₘ b.lost }

def take : Claim → Books
  | (.hand, ref) => { b with hand := b.hand.erase ref }
  | (.finalizer, ref) =>
    { b with noted := Function.update b.noted ref.realm ((b.noted ref.realm).erase ref.handle) }
  | (.debtor d, _) => { b with owes := Function.update b.owes d none }
  | (.nobody why, ref) => { b with lost := b.lost.erase (why, ref) }

variable {b}

theorem times_of_owes (d : Debtor) (ref : Guest.Ref) (owes : b.owes d = some ref) :
    0 < b.times (.debtor d, ref) := by
  rw [times, List.count_pos_iff, Option.mem_toList]
  exact owes

/-- There is room in the books for a claim: whoever owes a reference owes no other one. -/
def Free (b : Books) (p : Claim) : Prop := ∀ d ref, p = (.debtor d, ref) → b.owes d = none

theorem times_put (p : Claim) (free : b.Free p) (q : Claim) :
    (b.put p).times q = b.times q + if q = p then 1 else 0 := by
  obtain ⟨holder, ref⟩ := p
  obtain ⟨other, ref'⟩ := q
  cases holder with
  | hand | nobody why => cases other <;> simp [put, times, Multiset.count_cons]
  | debtor d =>
    have none := free d ref rfl
    cases other with
    | debtor e =>
      by_cases same : e = d
      · subst same
        by_cases equal : ref' = ref
        · simp [put, times, none, equal]
        · simp [put, times, none, equal, Ne.symm equal]
      · simp [put, times, same]
    | _ => simp [put, times]
  | finalizer =>
    obtain ⟨r, h⟩ := ref
    obtain ⟨r', h'⟩ := ref'
    by_cases here : r' = r
    · subst here
      cases other <;> simp [put, times, Multiset.count_cons]
    · cases other <;> simp [put, times, here]

theorem times_take (p : Claim) (has : 0 < b.times p) (q : Claim) :
    (b.take p).times q = b.times q - if q = p then 1 else 0 := by
  obtain ⟨holder, ref⟩ := p
  obtain ⟨other, ref'⟩ := q
  cases holder with
  | hand =>
    by_cases same : ref' = ref
    · subst same
      cases other <;> simp [take, times]
    · cases other <;> simp [take, times, same]
  | nobody why =>
    by_cases same : ref' = ref
    · subst same
      cases other with
      | nobody why' =>
        by_cases equal : why' = why
        · subst equal
          simp [take, times]
        · simp [take, times, equal]
      | _ => simp [take, times]
    · cases other <;> simp [take, times, same]
  | debtor d =>
    have owes : b.owes d = some ref := by
      rw [times, List.count_pos_iff, Option.mem_toList] at has
      exact has
    cases other with
    | debtor e =>
      by_cases same : e = d
      · subst same
        by_cases equal : ref' = ref
        · simp [take, times, owes, equal]
        · simp [take, times, owes, equal, Ne.symm equal]
      · simp [take, times, same]
    | _ => simp [take, times]
  | finalizer =>
    obtain ⟨r, h⟩ := ref
    obtain ⟨r', h'⟩ := ref'
    by_cases here : r' = r
    · subst here
      by_cases same : h' = h
      · subst same
        cases other <;> simp [take, times]
      · cases other <;> simp [take, times, same]
    · cases other <;> simp [take, times, here]

theorem owes_put (b : Books) (p : Claim) (d : Debtor) (ref : Guest.Ref)
    (owes : (b.put p).owes d = some ref) : p = (.debtor d, ref) ∨ b.owes d = some ref := by
  obtain ⟨holder, other⟩ := p
  cases holder with
  | hand | finalizer | nobody => exact Or.inr owes
  | debtor e =>
    change Function.update b.owes e (some other) d = some ref at owes
    rw [Function.update_apply] at owes
    split at owes
    · next same =>
      cases owes
      exact Or.inl (by rw [same])
    · exact Or.inr owes

theorem owes_take (b : Books) (p : Claim) (d : Debtor) (ref : Guest.Ref)
    (owes : (b.take p).owes d = some ref) : b.owes d = some ref := by
  obtain ⟨holder, other⟩ := p
  cases holder with
  | hand | finalizer | nobody => exact owes
  | debtor e =>
    change Function.update b.owes e none d = some ref at owes
    rw [Function.update_apply] at owes
    split at owes
    · cases owes
    · exact owes

end Books

/-- The ledger lists what is in the books, and nothing else. -/
def Exact (ledger : Multiset Claim) (b : Books) : Prop := ∀ p, ledger.count p = b.times p

variable {ledger : Multiset Claim} {b : Books} {w w' : World} {gain loss : Multiset Guest.Ref}

theorem Exact.has (exact : Exact ledger b) (p : Claim) (has : 0 < b.times p) : p ∈ ledger := by
  rw [← exact p] at has
  exact Multiset.count_pos.mp has

theorem Exact.put (exact : Exact ledger b) (p : Claim) (free : b.Free p) :
    Exact (p ::ₘ ledger) (b.put p) := fun q => by
  rw [Multiset.count_cons, exact q, Books.times_put p free]

theorem Exact.take (exact : Exact ledger b) (p : Claim) (has : 0 < b.times p) :
    Exact (ledger.erase p) (b.take p) := fun q => by
  rw [Books.times_take p has]
  by_cases same : q = p
  · rw [same, Multiset.count_erase_self, exact p, if_pos rfl]
  · rw [Multiset.count_erase_of_ne same, exact q, if_neg same, Nat.sub_zero]

/-- A ledger that changes by what the tables gain and lose stays paid for. -/
theorem Solvent.shift (solvent : Solvent ledger w) (shift : Shift gain loss w w')
    (ledger' : Multiset Claim) (balance : ∀ ref,
      (ledger'.map Prod.snd).count ref + loss.count ref =
        (ledger.map Prod.snd).count ref + gain.count ref) :
    Solvent ledger' w' := by
  refine ⟨shift.sound, fun ref => ?_⟩
  have before := solvent.paid ref
  have counts := shift.counts ref
  have grows := balance ref
  omega

/-- What is in the ledger is held besides what the table holds for itself. -/
theorem Solvent.spare (solvent : Solvent ledger w) (p : Claim) (member : p ∈ ledger) :
    rooted w p.2 < w.held p.2 := by
  have paid := solvent.paid p.2
  have positive : 0 < (ledger.map Prod.snd).count p.2 :=
    Multiset.count_pos.mpr (Multiset.mem_map_of_mem Prod.snd member)
  omega

/-- The handles that a realm is to give back. -/
def noted (w : World) (r : RealmId) : Multiset Handle :=
  ((w.realms[r]?).map fun x => (x.finalizers : Multiset Handle)).getD 0

open Classical in
/-- What threads, finalizers, tokens, replies and receives hold, and what nobody does. -/
noncomputable def books (past : List Record) (w : World) : Books where
  hand := (hands past).refs
  noted := noted w
  owes
    | .token t => if Owing t past then w.source? t else none
    | .reply n => (asker? n past).bind fun a => (w.sent? n).map fun h => ⟨a.2.1.realm, h⟩
    | .receive id => w.due? id
  lost := losses past

theorem owes_token_iff (past : List Record) (w : World) (t : TokenId) (ref : Guest.Ref) :
    (books past w).owes (.token t) = some ref ↔ Owing t past ∧ w.source? t = some ref := by
  dsimp only [books]
  split
  · next owing => simp only [owing, true_and]
  · next done => simp only [done, false_and, reduceCtorEq]

theorem owes_reply_iff (past : List Record) (w : World) (n : ReplyId) (ref : Guest.Ref) :
    (books past w).owes (.reply n) = some ref ↔ ∃ t c id h, asker? n past = some (t, c, id) ∧
      w.sent? n = some h ∧ ref = ⟨c.realm, h⟩ := by
  dsimp only [books]
  rw [Option.bind_eq_some_iff]
  constructor
  · rintro ⟨⟨t, c, id⟩, made, some⟩
    obtain ⟨h, sent, rfl⟩ := Option.map_eq_some_iff.mp some
    exact ⟨t, c, id, h, made, sent, rfl⟩
  · rintro ⟨t, c, id, h, made, sent, rfl⟩
    exact ⟨(t, c, id), made, Option.map_eq_some_iff.mpr ⟨h, sent, rfl⟩⟩

/-- There is a ledger of all that is held, and the tables hold what is in it. -/
def Account (past : List Record) (w : World) : Prop :=
  ∃ ledger, Solvent ledger w ∧ Exact ledger (books past w)

/-- A reference of the realm of a receiver that stands for what the source of the token stood for when
it was served. -/
structure Rehomed (past : List Record) (w : World) (t : TokenId) (c : Context) (id : ReceiveId)
    (ref : Guest.Ref) : Prop where
  received : ∃ r ∈ past, ∃ i, r.move = .receive i t c ∧ r.outcome = .ok (.receive id)
  home : ref.realm = c.realm
  identity : ∃ v u, ServedAs t v past ∧ w.value? ref = some u ∧ u.key = v.key

/-- What is owed to a receiver is its own. -/
def Warranted (past : List Record) (w : World) : Debtor → Guest.Ref → Prop
  | .token _, _ => True
  | .reply n, ref => ∃ t c id, asker? n past = some (t, c, id) ∧ Rehomed past w t c id ref
  | .receive id, ref => ∃ t c, Rehomed past w t c id ref

variable {past past' : List Record}

/-- A move keeps the account, leaves what is still held as it was, and owes only what is warranted. -/
structure Honest (past past' : List Record) (w w' : World) : Prop where
  account : Account past' w'
  steady : ∀ ref, 0 < w.held ref → 0 < w'.held ref → w'.value? ref = w.value? ref
  news : ∀ d ref, (books past' w').owes d = some ref →
    (books past w).owes d = some ref ∨ Warranted past' w' d ref

/-- Nothing was gained and nothing was lost. -/
theorem Account.same (account : Account past w) (shift : Shift 0 0 w w')
    (after : books past' w' = books past w) : Honest past past' w w' := by
  obtain ⟨ledger, solvent, exact⟩ := account
  have paid := solvent.shift shift ledger fun ref => rfl
  rw [← after] at exact
  exact ⟨⟨ledger, paid, exact⟩, shift.steady, fun d ref owes => Or.inl (after ▸ owes)⟩

theorem Account.put (account : Account past w) (p : Claim) (shift : Shift {p.2} 0 w w')
    (after : books past' w' = (books past w).put p) (free : (books past w).Free p)
    (warranted : ∀ d ref, p = (.debtor d, ref) → Warranted past' w' d ref) :
    Honest past past' w w' := by
  obtain ⟨ledger, solvent, exact⟩ := account
  refine ⟨⟨p ::ₘ ledger, solvent.shift shift _ fun ref => ?_, ?_⟩, shift.steady,
    fun d ref owes => ?_⟩
  · rw [Multiset.map_cons, Multiset.count_cons, Multiset.count_zero, Multiset.count_singleton]
    rfl
  · rw [after]
    exact exact.put p free
  · rw [after] at owes
    exact ((Books.owes_put _ p d ref owes).imp_left (warranted d ref)).symm

theorem count_erase_claim (p : Claim) (member : p ∈ ledger) (ref : Guest.Ref) :
    ((ledger.erase p).map Prod.snd).count ref + Multiset.count ref {p.2} =
      (ledger.map Prod.snd).count ref := by
  conv_rhs => rw [← Multiset.cons_erase member, Multiset.map_cons, Multiset.count_cons]
  rw [Multiset.count_singleton]

theorem Account.take (account : Account past w) (p : Claim) (has : 0 < (books past w).times p)
    (shift : Shift 0 {p.2} w w') (after : books past' w' = (books past w).take p) :
    Honest past past' w w' := by
  obtain ⟨ledger, solvent, exact⟩ := account
  refine ⟨⟨ledger.erase p, solvent.shift shift _ fun ref => ?_, ?_⟩, shift.steady,
    fun d ref owes => ?_⟩
  · rw [count_erase_claim p (exact.has p has) ref, Multiset.count_zero]
    rfl
  · rw [after]
    exact exact.take p has
  · rw [after] at owes
    exact Or.inl (Books.owes_take _ p d ref owes)

/-- A reference goes from one holder to another, or nobody has it any more. -/
theorem Account.pass (account : Account past w) (p q : Claim) (has : 0 < (books past w).times p)
    (same : p.2 = q.2) (shift : Shift 0 0 w w')
    (after : books past' w' = ((books past w).take p).put q)
    (free : ((books past w).take p).Free q)
    (warranted : ∀ d ref, q = (.debtor d, ref) → Warranted past' w' d ref) :
    Honest past past' w w' := by
  obtain ⟨ledger, solvent, exact⟩ := account
  refine ⟨⟨q ::ₘ ledger.erase p, solvent.shift shift _ fun ref => ?_, ?_⟩, shift.steady,
    fun d ref owes => ?_⟩
  · have erased := count_erase_claim p (exact.has p has) ref
    rw [Multiset.count_singleton] at erased
    rw [Multiset.map_cons, Multiset.count_cons, ← same]
    omega
  · rw [after]
    exact (exact.take p has).put q free
  · rw [after] at owes
    rcases Books.owes_put _ q d ref owes with new | old
    · exact Or.inr (warranted d ref new)
    · exact Or.inl (Books.owes_take _ p d ref old)

/-- What has a holder is live. -/
theorem Account.spare (account : Account past w) (p : Claim) (has : 0 < (books past w).times p) :
    rooted w p.2 < w.held p.2 := by
  obtain ⟨ledger, solvent, exact⟩ := account
  exact solvent.spare p (exact.has p has)

/-- The claim of a realm that is to give a handle back. -/
def dueAt (r : RealmId) (h : Handle) : Claim := (.finalizer, ⟨r, h⟩)

theorem dueAt_injective (r : RealmId) : Function.Injective (dueAt r) := by
  intro h k same
  exact congrArg (·.2.handle) same

theorem Exact.noted_le (exact : Exact ledger b) (r : RealmId) :
    (b.noted r).map (dueAt r) ≤ ledger := by
  refine Multiset.le_iff_count.mpr fun p => ?_
  by_cases member : p ∈ (b.noted r).map (dueAt r)
  · obtain ⟨h, _, rfl⟩ := Multiset.mem_map.mp member
    rw [Multiset.count_map_eq_count' (dueAt r) _ (dueAt_injective r), exact]
    exact Nat.le_refl _
  · rw [Multiset.count_eq_zero_of_notMem member]
    exact Nat.zero_le _

/-- The handles that a realm is to give back are held besides what the table holds for itself. -/
theorem Account.noted_paid (account : Account past w) (r : RealmId) (h : Handle) :
    ((books past w).noted r).count h + rooted w ⟨r, h⟩ ≤ w.held ⟨r, h⟩ := by
  obtain ⟨ledger, solvent, exact⟩ := account
  have paid := solvent.paid ⟨r, h⟩
  have parts := Multiset.count_le_of_le (⟨r, h⟩ : Guest.Ref)
    (Multiset.map_le_map (f := Prod.snd) (exact.noted_le r))
  have same : (((books past w).noted r).map (dueAt r)).map Prod.snd =
      ((books past w).noted r).map (Guest.Ref.mk r) := by
    rw [Multiset.map_map]
    rfl
  have injective : Function.Injective (Guest.Ref.mk r) := fun h k equal =>
    congrArg Guest.Ref.handle equal
  rw [same, Multiset.count_map_eq_count' _ _ injective] at parts
  omega

/-- A realm gives back all that was noted. -/
theorem Account.clear (account : Account past w) (r : RealmId)
    (shift : Shift 0 (((books past w).noted r).map (Guest.Ref.mk r)) w w')
    (after : books past' w' =
      { books past w with noted := Function.update (books past w).noted r 0 }) :
    Honest past past' w w' := by
  obtain ⟨ledger, solvent, exact⟩ := account
  have part := exact.noted_le r
  have cleared : Exact (ledger - ((books past w).noted r).map (dueAt r)) (books past' w') := by
    intro p
    rw [Multiset.count_sub, exact p, after]
    by_cases due : ∃ h, p = dueAt r h
    · obtain ⟨h, rfl⟩ := due
      rw [Multiset.count_map_eq_count' (dueAt r) _ (dueAt_injective r)]
      simp only [dueAt, Books.times, Function.update_self, Multiset.count_zero, Nat.sub_self]
    · have absent : p ∉ ((books past w).noted r).map (dueAt r) := by
        intro member
        obtain ⟨h, _, same⟩ := Multiset.mem_map.mp member
        exact due ⟨h, same.symm⟩
      rw [Multiset.count_eq_zero_of_notMem absent, Nat.sub_zero]
      obtain ⟨holder, s, h⟩ := p
      cases holder with
      | finalizer =>
        have apart : s ≠ r := fun same => due ⟨h, by rw [same, dueAt]⟩
        simp only [Books.times, Function.update_of_ne apart]
      | _ => rfl
  refine ⟨⟨_, solvent.shift shift _ fun ref => ?_, cleared⟩, shift.steady, fun d ref owes => ?_⟩
  · have whole := congrArg (fun l : Multiset Claim => (l.map Prod.snd).count ref)
      (tsub_add_cancel_of_le part)
    simp only [Multiset.map_add, Multiset.count_add, Multiset.map_map] at whole
    rw [Multiset.count_zero, Nat.add_zero, ← whole]
    rfl
  · rw [after] at owes
    exact Or.inl owes

end Membrane.Transfer
