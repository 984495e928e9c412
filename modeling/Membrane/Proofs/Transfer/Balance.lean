import Membrane.Proofs.Transfer.Handover
/-!
What a realm holds is what somebody has or is owed, and what nobody gives back any more. A receiver that
is let go of leaves something behind only between the reply and the next look at it.
-/

set_option autoImplicit false

namespace Membrane

/-- The value that a job delivers, with its token, its realm and its reply. -/
def Job.delivery? : Job → Option (TokenId × RealmId × ReplyId × Host.Value)
  | .deliver t r n (.ok v) => some (t, r, n, v)
  | _ => none

theorem Job.delivery?_eq_some_iff (job : Job) (t : TokenId) (r : RealmId) (n : ReplyId)
    (v : Host.Value) :
    job.delivery? = some (t, r, n, v) ↔ job = .deliver t r n (.ok v) := by
  constructor
  · unfold delivery?
    split
    · rintro ⟨⟩
      rfl
    · rintro ⟨⟩
  · rintro rfl
    rfl

/-- The reply that a receiver waits for, with its realm and its loop. -/
def Receive.awaited? : Receive → Option (ReplyId × RealmId × LoopId)
  | .waiting n r l => some (n, r, l)
  | .ready _ => none

theorem Receive.awaited?_eq_some_iff (receive : Receive) (n : ReplyId) (r : RealmId) (l : LoopId) :
    receive.awaited? = some (n, r, l) ↔ receive = .waiting n r l := by
  cases receive <;> simp [awaited?]

namespace Transfer

variable {ledger : Multiset Claim} {b : Books} {past : List Record} {w w' : World}
  {outcome : Except Halt Answer}

theorem Books.times_debtor (b : Books) (d : Debtor) (ref : Guest.Ref) :
    b.times (.debtor d, ref) = if b.owes d = some ref then 1 else 0 := by
  rw [times]
  split
  · next owes => rw [owes, Option.toList_some, List.count_singleton_self]
  · next other =>
    refine List.count_eq_zero_of_not_mem fun member => other ?_
    exact Option.mem_toList.mp member

/-- Whoever owes a reference is one of finitely many. -/
theorem Exact.exists_debtors (exact : Exact ledger b) (ref : Guest.Ref) :
    ∃ debtors : Finset Debtor, ∀ d, d ∈ debtors ↔ b.owes d = some ref := by
  let debtor? : Claim → Option Debtor
    | (.debtor d, other) => if other = ref then some d else none
    | _ => none
  refine ⟨(ledger.filterMap debtor?).toFinset, fun d => ?_⟩
  rw [Multiset.mem_toFinset, Multiset.mem_filterMap]
  constructor
  · rintro ⟨⟨holder, other⟩, member, found⟩
    cases holder with
    | debtor e =>
      dsimp only [debtor?] at found
      split at found
      · next same =>
        cases found
        have listed := Multiset.count_pos.mpr member
        rw [exact, b.times_debtor, same] at listed
        by_contra other
        rw [if_neg other] at listed
        exact Nat.lt_irrefl 0 listed
      · cases found
    | hand | finalizer | nobody => cases found
  · intro owes
    refine ⟨(.debtor d, ref), exact.has _ (Books.times_of_owes d ref owes), ?_⟩
    dsimp only [debtor?]
    rw [if_pos rfl]

/-- The claims to a reference. -/
def claims (b : Books) (ref : Guest.Ref) (debtors : Finset Debtor) : Multiset Claim :=
  Multiset.replicate (b.hand.count ref) (.hand, ref) +
    Multiset.replicate ((b.noted ref.realm).count ref.handle) (.finalizer, ref) +
    debtors.val.map (fun d => (.debtor d, ref)) +
    Multiset.replicate (b.lost.count (.discarded, ref)) (.nobody .discarded, ref) +
    Multiset.replicate (b.lost.count (.stranded, ref)) (.nobody .stranded, ref) +
    Multiset.replicate (b.lost.count (.unread, ref)) (.nobody .unread, ref)

theorem count_debtors (b : Books) (ref : Guest.Ref) (debtors : Finset Debtor)
    (known : ∀ d, d ∈ debtors ↔ b.owes d = some ref) (d : Debtor) :
    (debtors.val.map (fun d => ((.debtor d, ref) : Claim))).count (.debtor d, ref) =
      b.times (.debtor d, ref) := by
  have injective : Function.Injective (fun d : Debtor => ((.debtor d, ref) : Claim)) :=
    fun d e same => Holder.debtor.inj (congrArg Prod.fst same)
  rw [Multiset.count_map_eq_count' _ _ injective, Multiset.count_eq_of_nodup debtors.nodup,
    b.times_debtor]
  exact if_congr (known d) rfl rfl

theorem count_claims (b : Books) (ref : Guest.Ref) (debtors : Finset Debtor)
    (known : ∀ d, d ∈ debtors ↔ b.owes d = some ref) (p : Claim) :
    (claims b ref debtors).count p = if ref = p.2 then b.times p else 0 := by
  have others : (∀ d, p ≠ (.debtor d, ref)) →
      (debtors.val.map (fun d => ((.debtor d, ref) : Claim))).count p = 0 := fun apart =>
    Multiset.count_eq_zero_of_notMem fun member => by
      obtain ⟨d, _, same⟩ := Multiset.mem_map.mp member
      exact apart d same.symm
  obtain ⟨holder, other⟩ := p
  simp only [claims, Multiset.count_add, Multiset.count_replicate, Prod.mk.injEq]
  by_cases same : ref = other
  · subst same
    cases holder with
    | debtor d => simp [count_debtors b ref debtors known d]
    | hand | finalizer =>
      rw [others (by intro d equal; cases equal)]
      simp [Books.times]
    | nobody why =>
      rw [others (by intro d equal; cases equal)]
      cases why <;> simp [Books.times]
  · rw [others fun d equal => same (congrArg Prod.snd equal).symm]
    simp [same]

/-- A table counts the references that somebody has or is owed, and those that nobody gives back. -/
theorem Account.balance (account : Account past w) (ref : Guest.Ref) :
    ∃ debtors : Finset Debtor, (∀ d, d ∈ debtors ↔ (books past w).owes d = some ref) ∧
      w.held ref = rooted w ref + (hands past).refs.count ref +
        (noted w ref.realm).count ref.handle + debtors.card +
        (losses past).count (.discarded, ref) + (losses past).count (.stranded, ref) +
        (losses past).count (.unread, ref) := by
  obtain ⟨ledger, solvent, exact⟩ := account
  obtain ⟨debtors, known⟩ := exact.exists_debtors ref
  have mine : ledger.filter (fun p => ref = p.2) = claims (books past w) ref debtors := by
    refine Multiset.ext.mpr fun p => ?_
    rw [Multiset.count_filter, exact p, count_claims _ ref debtors known]
  have paid := solvent.paid ref
  rw [Multiset.count_map, mine] at paid
  simp only [claims, Multiset.card_add, Multiset.card_replicate, Multiset.card_map,
    Finset.card_val] at paid
  refine ⟨debtors, known, ?_⟩
  rw [← paid]
  simp only [books]
  omega

theorem held_of_tables (same : w'.table? = w.table?) (ref : Guest.Ref) :
    w'.held ref = w.held ref := by
  rw [World.held, same, World.held]

/-- A receive that waits leaves a reply that nobody waits for, and changes no count. -/
theorem Step.letsGo (i : ThreadId) (id : ReceiveId) (step : Step w (.dropReceive i id) outcome w')
    (n : ReplyId) (r : RealmId) (l : LoopId) (present : w.receive? id = some (.waiting n r l)) :
    (∃ ch, w'.reply? n = some ch ∧ ch.isWaiting = false ∧ w'.sent? n = none) ∧
      ∀ ref, w'.held ref = w.held ref := by
  cases step with
  | dropWaiting i id n' r' l' there ch reply =>
    rw [there] at present
    cases present
    have left : (((w.withReceive id none).withReply n (·.abandon)).withQueue l (·.letGo)).reply? n =
        some ch.abandon := by
      show ((w.withReceive id none).withReply n (·.abandon)).reply? n = _
      rw [World.reply?_withReply (w.withReceive id none) n ch reply (·.abandon),
        Function.update_self]
    refine ⟨⟨ch.abandon, left, rfl, ?_⟩, held_of_tables rfl⟩
    rw [World.sent?, left]
    rfl
  | dropRead i id answer there | dropReady i id ref there =>
    rw [there] at present
    cases present
  | dropGone i id o gone =>
    rw [gone] at present
    cases present

/-- A value is retained for a receiver that waits, and then it is the reply. -/
theorem Step.delivers (l : LoopId) (step : Step w (.turn l) outcome w') (account : Account past w)
    (allowed : (Move.turn l).Allowed w) (permitted : Rule.held past w (.turn l)) (t : TokenId)
    (r : RealmId) (n : ReplyId) (v : Host.Value)
    (job : w.job? l = some (.deliver t r n (.ok v))) :
    ∃ ch, w.reply? n = some ch ∧
      (ch.isWaiting = true → ∃ h, w'.sent? n = some h ∧
        ∀ ref, w'.held ref = w.held ref + if ref = ⟨r, h⟩ then 1 else 0) ∧
      (ch.isWaiting = false → w'.sent? n = w.sent? n ∧ ∀ ref, w'.held ref = w.held ref) := by
  obtain ⟨i, owner⟩ := allowed
  obtain ⟨u, taken⟩ := w.exists_next l _ job
  cases step with
  | turnIdle l idle => rw [idle] at taken; cases taken
  | serveDetached l s v' other | serveUnregistered l s v' other | serve l s v' other
    | collect l s v' other => rw [other] at taken; cases taken
  | deliver l s r' n' o v' next k present x destination ch reply =>
    rw [next] at taken
    cases taken
    have fits := permitted t r n v _ x next destination
    obtain ⟨q, rfl⟩ := next_eq l i owner _ _ next
    have shift := account.shift_settled q l t k r x destination n ch v fits
    have roots : rooted ((w.withQueue l fun _ => q).settled t k r x n ch (.ok v)) = rooted w :=
      rooted_withRealm r x (x.retainFor ch v) destination
    have replied : ((w.withQueue l fun _ => q).settled t k r x n ch (.ok v)).sent? =
        Function.update w.sent? n (sentOn (some (ch.answer (.ok (x.retain v).1)))) :=
      sent?_withReply (w := (w.withQueue l fun _ => q).withRealm r (x.retainFor ch v)) n ch reply _
    refine ⟨ch, reply, fun waits => ⟨(x.retain v).1, ?_, fun ref => ?_⟩,
      fun done => ⟨?_, fun ref => ?_⟩⟩
    · rw [replied, Function.update_self, Channel.answer, if_pos waits]
      rfl
    · have counts := shift.counts ref
      rw [roots, if_pos waits, Multiset.count_zero, Multiset.count_singleton] at counts
      omega
    · rw [replied, Function.update_self, ch.answer_of_not_waiting _ done, World.sent?, reply]
    · have counts := shift.counts ref
      rw [roots, done, if_neg Bool.false_ne_true, Multiset.count_zero] at counts
      omega

/-- What is read from a receive changes hands, and no count. -/
theorem Step.reads (i : ThreadId) (id : ReceiveId) (step : Step w (.poll i id) outcome w')
    (ref : Guest.Ref) : w'.held ref = w.held ref := by
  cases step with
  | pollReady | pollWaiting | pollGone => exact held_of_tables rfl ref

/-- What holds of receivers at a move of fair threads. -/
structure Reception (past : List Record) (w : World) (m : Move) : Prop where
  /-- What is held to a handle is the global object of its table, in hand, noted, owed by a token, a
  reply or a receive, or it is lost. -/
  balance : ∀ ref, ∃ debtors : Finset Debtor,
    (∀ d, d ∈ debtors ↔ (books past w).owes d = some ref) ∧
      w.held ref = rooted w ref + (hands past).refs.count ref +
        (noted w ref.realm).count ref.handle + debtors.card +
        (losses past).count (.discarded, ref) + (losses past).count (.stranded, ref) +
        (losses past).count (.unread, ref)
  /-- A value that comes to a receive that waits is retained for it and is its reply. If the receive
  was let go of, nothing stays. -/
  delivered : ∀ l t r n v, m = .turn l → w.job? l = some (.deliver t r n (.ok v)) →
    ∃ ch, w.reply? n = some ch ∧
      (ch.isWaiting = true → ∃ h, (m.perform w).2.sent? n = some h ∧
        ∀ ref, (m.perform w).2.held ref = w.held ref + if ref = ⟨r, h⟩ then 1 else 0) ∧
      (ch.isWaiting = false → (m.perform w).2.sent? n = w.sent? n ∧
        ∀ ref, (m.perform w).2.held ref = w.held ref)
  /-- Whoever reads a reference has it in hand. -/
  yields : ∀ i id ref, m = .poll i id → (m.perform w).1 = .ok (.read (some (.ok ref))) →
    (hands (⟨w, m, (m.perform w).1⟩ :: past)).refs = ref ::ₘ (hands past).refs ∧
      ∀ other, (m.perform w).2.held other = w.held other
  /-- A receive that is let go of gives nothing back. Nobody waits for its reply any more, and if that
  was sent already, its reference is lost. -/
  letGo : ∀ i id n r l, m = .dropReceive i id → w.receive? id = some (.waiting n r l) →
    (∃ ch, (m.perform w).2.reply? n = some ch ∧ ch.isWaiting = false ∧
        (m.perform w).2.sent? n = none) ∧
      (∀ ref, (m.perform w).2.held ref = w.held ref) ∧
      losses (⟨w, m, (m.perform w).1⟩ :: past) = match w.sent? n with
        | none => losses past
        | some h => (.unread, ⟨r, h⟩) ::ₘ losses past

/-- The realm of a receiver keeps nothing for a receive that yielded no reference, unless that was let
go of when the reply was there and nobody had looked. Then it keeps one reference for good. -/
theorem reception (config : Config) (past : List Record) (w : World)
    (run : Run config .held past w) (m : Move) (allowed : m.Allowed w)
    (permitted : Rule.held past w m) : Reception past w m := by
  have account := run.accountable.account
  have step := m.step run.orderly allowed
  have performed := m.world_perform w
  refine ⟨account.balance, ?_, ?_, ?_⟩
  · rintro l t r n v rfl job
    rw [performed]
    exact step.delivers l (run.accountable.running _).account allowed (held_running _ permitted) t r
      n v ((w.job?_running _ l).trans job)
  · rintro i id ref rfl answered
    rw [performed, answered]
    exact ⟨rfl, fun other => step.reads i id other⟩
  · rintro i id n r l rfl present
    obtain ⟨left, counts⟩ := step.letsGo i id n r l present
    rw [performed]
    refine ⟨left, counts, ?_⟩
    have loses : ∀ o, (⟨w, .dropReceive i id, o⟩ : Record).loses? =
        (w.sent? n).map fun h => (.unread, ⟨r, h⟩) := fun o => by
      simp only [Record.loses?, present]
    cases sent : w.sent? n with
    | none => exact losses_of_none _ (by rw [loses, sent, Option.map_none])
    | some h => exact losses_of_some _ _ (by rw [loses, sent, Option.map_some])

/-- The request of those who ask for a global object is served. -/
def answered : List Record × World :=
  let asked := play [] (.create .default) asking
  play asked.1 asked.2 [.turn 0]

theorem run_answered : Run .default .held answered.1 answered.2 := by
  have run : Run .default .owned (play [] (.create .default) asking).1
      (play [] (.create .default) asking).2 :=
    Run.start.play asking (by decide +kernel) permitted_asking
  have silent : ((play [] (.create .default) asking).2.job? 0).bind (·.reply?) = none := by
    decide +kernel
  refine (run.mono .held Rule.held_of_owned).play [.turn 0] (by decide +kernel) ⟨?_, trivial⟩
  intro t r n v u x next
  rw [World.job?_of_next _ 0 _ u next] at silent
  cases silent

theorem answered_job : answered.2.job? 1 = some (.deliver 0 1 0 (.ok (.object 0))) := by
  have news : (answered.2.job? 1).bind Job.delivery? = some (0, 1, 0, .object 0) := by
    decide +kernel
  obtain ⟨job, there, delivers⟩ := Option.bind_eq_some_iff.mp news
  cases (job.delivery?_eq_some_iff _ _ _ _).mp delivers
  exact there

/-- The table of the receiver has room for its object. -/
theorem permitted_delivery : Rule.held answered.1 answered.2 (.turn 1) := by
  intro t r n v u x next destination
  cases answered_job.symm.trans (World.job?_of_next _ 1 _ u next)
  have known : answered.2.table? 1 = some x.table := by
    rw [World.table?, destination, Option.map_some]
  have alone : (answered.2.realms[1]?).map
      (fun x => (x.table.slots.size, x.table.count .globalObject)) = some (1, 1) := by
    decide +kernel
  obtain ⟨_, solvent, _⟩ := run_answered.accountable.account
  obtain ⟨g, sound⟩ := solvent.sound 1 x.table known
  rw [destination, Option.map_some, Option.some.injEq, Prod.mk.injEq] at alone
  exact sound.fits_alone alone.1 (by omega) (.object 0)

/-- A receiver is let go of that has its reply and did not look at it. -/
theorem reception_unread :
    let after := play answered.1 answered.2 [.turn 1, .dropReceive 1 0]
    ∃ h, after.2.held ⟨1, h⟩ = answered.2.held ⟨1, h⟩ + 1 ∧ after.2.sent? 0 = none ∧
      losses after.1 = {(.unread, ⟨1, h⟩)} := by
  have run := run_answered
  have allowed : (Move.turn 1).Allowed answered.2 := by decide +kernel
  have permitted := permitted_delivery
  have job := answered_job
  have waiting : (answered.2.reply? 0).map (·.isWaiting) = some true := by decide +kernel
  have unread : (((Move.turn 1).perform answered.2).2.receive? 0).bind Receive.awaited? =
      some (0, 1, 1) := by decide +kernel
  have none : losses (play answered.1 answered.2 [.turn 1]).1 = 0 := by decide +kernel
  generalize answered = before at *
  obtain ⟨past, w⟩ := before
  intro after
  obtain ⟨ch, reply, waits, _⟩ :=
    (reception .default past w run (.turn 1) allowed permitted).delivered 1 _ _ _ _ rfl job
  rw [reply, Option.map_some, Option.some.injEq] at waiting
  obtain ⟨h, sent, more⟩ := waits waiting
  have present : ((Move.turn 1).perform w).2.receive? 0 = some (.waiting 0 1 1) := by
    obtain ⟨receive, there, waits⟩ := Option.bind_eq_some_iff.mp unread
    cases (receive.awaited?_eq_some_iff _ _ _).mp waits
    exact there
  obtain ⟨⟨_, _, _, silent⟩, still, lost⟩ :=
    (reception .default _ _ (run.step (.turn 1) allowed permitted) (.dropReceive 1 0) trivial
      trivial).letGo 1 0 0 1 1 rfl present
  rw [sent] at lost
  refine ⟨h, ?_, silent, lost.trans ?_⟩
  · exact (still _).trans ((more _).trans (by rw [if_pos rfl]))
  · exact congrArg ((.unread, ⟨1, h⟩) ::ₘ ·) none

end Transfer

end Membrane
