import Membrane.Proofs.Transfer.Balance
import Membrane.Proofs.Transfer.Posted
/-!
The reference that a token takes is given up once. A receiver on the thread of the source gets it, it is
given back when the request is served, or it is noted in the realm of the source when nobody received
the token. When a request stays without an answer nobody gives it back.
-/

set_option autoImplicit false

namespace Membrane

/-- The token that a job requests the object of. -/
def Job.request? : Job → Option TokenId
  | .serve t => some t
  | _ => none

theorem Job.request?_eq_some_iff (job : Job) (t : TokenId) :
    job.request? = some t ↔ job = .serve t := by
  cases job <;> simp [request?]

theorem World.request?_iff (w : World) (l : LoopId) (t : TokenId) :
    (w.job? l).bind (·.request?) = some t ↔ w.job? l = some (.serve t) := by
  rw [Option.bind_eq_some_iff]
  constructor
  · rintro ⟨job, there, requests⟩
    rw [there, (job.request?_eq_some_iff t).mp requests]
  · intro there
    exact ⟨_, there, rfl⟩

namespace Transfer

/-- How the reference of a token is given up. -/
inductive Exit where
  /-- A receiver on the thread of the source has it. -/
  | handed
  /-- It is given back when the request is served. -/
  | served
  /-- It is noted in the realm of the source when the last copy of the token goes. -/
  | returned
  /-- The request stays without an answer, and nobody gives the reference back. -/
  | stranded
deriving DecidableEq

/-- How a move gives up the reference of a token, if it does. -/
def Record.exit? (t : TokenId) (r : Record) : Option Exit :=
  (r.before.token? t).bind fun k =>
    match r.move with
    | .receive _ s c =>
      if s = t ∧ k.state = .created then
        if c.thread = k.thread then some .handed
        else if r.before.runtime.isAttached k.thread then none
        else some .stranded
      else none
    | .turn l =>
      if (r.before.job? l).bind (·.request?) = some t then
        if r.before.runtime.isAttached k.thread ∧
            (r.before.runtime.waiting.find? (·.correlation == k.correlation)).isSome
        then some .served else some .stranded
      else none
    | .dropToken _ s => if s = t ∧ k.copies ≤ 1 ∧ k.state = .created then some .returned else none
    | _ => none

/-- How the reference of a token was given up, the last time first. -/
def exits (t : TokenId) (past : List Record) : List Exit := past.filterMap (Record.exit? t)

/-- What a move that gives up the reference of a token leaves of it. -/
def Exit.Leaves (source : Guest.Ref) (past : List Record) (r : Record) (w' : World) : Exit → Prop
  | .handed => r.outcome = .ok (.receive r.before.receives.size) ∧
      w'.due? r.before.receives.size = some source ∧ ∀ ref, w'.held ref = r.before.held ref
  | .served => ∀ ref, w'.held ref + (if ref = source then 1 else 0) = r.before.held ref
  | .returned => noted w' source.realm = source.handle ::ₘ noted r.before source.realm ∧
      ∀ ref, w'.held ref = r.before.held ref
  | .stranded => losses (r :: past) = (.stranded, source) ::ₘ losses past ∧
      ∀ ref, w'.held ref = r.before.held ref

variable {past : List Record} {w w' u v : World} {m : Move} {o : Except Halt Answer} {t : TokenId}

/-- Moves that a token is no part of. -/
def Apart (t : TokenId) (w : World) (m : Move) : Prop :=
  (∀ i, m ≠ .dropToken i t) ∧ (∀ i c, m ≠ .receive i t c) ∧
    ∀ l, m = .turn l → w.job? l ≠ some (.serve t)

theorem Apart.exit? (apart : Apart t w m) : (⟨w, m, o⟩ : Record).exit? t = none := by
  obtain ⟨keeps, asks, serves⟩ := apart
  unfold Record.exit?
  cases w.token? t with
  | none => rfl
  | some k =>
    cases m with
    | receive i s c =>
      have other : s ≠ t := by
        rintro rfl
        exact asks i c rfl
      simp only [Option.bind_some, other, false_and, ↓reduceIte]
    | dropToken i s =>
      have other : s ≠ t := by
        rintro rfl
        exact keeps i rfl
      simp only [Option.bind_some, other, false_and, ↓reduceIte]
    | turn l =>
      have other := mt (w.request?_iff l t).mp (serves l rfl)
      simp only [Option.bind_some, other, ↓reduceIte]
    | _ => rfl

theorem Apart.not_ends (apart : Apart t w m) : ¬ (⟨w, m, o⟩ : Record).Ends t := by
  intro ends
  obtain ⟨_, _, ⟨l, move, job⟩ | ⟨i, c, move, _⟩⟩ := ends.cases
  · exact apart.2.2 l move job
  · exact apart.2.1 i c move

/-- Which thread runs does not matter to what becomes of a token. -/
theorem Record.exit?_running (i : ThreadId) :
    (⟨{ w with here := i }, m, o⟩ : Record).exit? t = (⟨w, m, o⟩ : Record).exit? t := by
  cases m with
  | turn l =>
    unfold Record.exit?
    dsimp only
    rw [World.job?_running]
    rfl
  | _ => rfl

theorem Move.apart_or (t : TokenId) (w : World) (m : Move) :
    Apart t w m ∨ (∃ i, m = .dropToken i t) ∨ (∃ i c, m = .receive i t c) ∨
      ∃ l, m = .turn l ∧ w.job? l = some (.serve t) := by
  by_cases apart : Apart t w m
  · exact Or.inl apart
  · refine Or.inr ?_
    simp only [Apart, not_and_or, not_forall, not_not] at apart
    obtain ⟨i, drops⟩ | ⟨i, c, asks⟩ | ⟨l, turns, serves⟩ := apart
    · exact Or.inl ⟨i, drops⟩
    · exact Or.inr (Or.inl ⟨i, c, asks⟩)
    · exact Or.inr (Or.inr ⟨l, turns, serves⟩)

/-- A request that is taken ends one way or the other. -/
theorem exit?_turn (l : LoopId) (job : w.job? l = some (.serve t)) (k : Token)
    (present : w.token? t = some k) :
    (⟨w, .turn l, o⟩ : Record).exit? t =
      if w.runtime.isAttached k.thread ∧
          (w.runtime.waiting.find? (·.correlation == k.correlation)).isSome
      then some .served else some .stranded := by
  simp only [Record.exit?, present, Option.bind_some, (w.request?_iff l t).mpr job, ↓reduceIte]

theorem exit?_receive (i : ThreadId) (c : Context) (k : Token) (present : w.token? t = some k) :
    (⟨w, .receive i t c, o⟩ : Record).exit? t =
      if k.state = .created then
        if c.thread = k.thread then some .handed
        else if w.runtime.isAttached k.thread then none
        else some .stranded
      else none := by
  simp only [Record.exit?, present, Option.bind_some, true_and]

theorem exit?_dropToken (i : ThreadId) (k : Token) (present : w.token? t = some k) :
    (⟨w, .dropToken i t, o⟩ : Record).exit? t =
      if k.copies ≤ 1 ∧ k.state = .created then some .returned else none := by
  simp only [Record.exit?, present, Option.bind_some, true_and]

/-- What a move comes to for a token: it is as before, or its reference is given up. -/
def Decides (t : TokenId) (source : Guest.Ref) (past : List Record) (r : Record) (w' : World) :
    Prop :=
  match r.exit? t with
  | none => Owing t (r :: past) ↔ Owing t past
  | some e => Owing t past ∧ ¬ Owing t (r :: past) ∧ e.Leaves source past r w'

theorem losses_of_strands (r : Record) (strands : r.strands? = some t) (k : Token)
    (present : r.before.token? t = some k) :
    losses (r :: past) = (.stranded, k.source) ::ₘ losses past :=
  losses_of_some r _ (r.loses?_of_strands strands k.source
    (r.before.source?_of_present t k present))

/-- A move that has decided on a token takes its reference from it. -/
theorem not_owing_of_ends (r : Record) (ends : r.Ends t) : ¬ Owing t (r :: past) :=
  fun owing => owing.1 ⟨r, List.mem_cons_self, ends⟩

theorem made?_ne (step : Step w m o w') (k : Token) (present : w.token? t = some k) :
    made? o ≠ some t := by
  intro made
  by_cases transfers : ∃ i c ref, m = .transfer i c ref
  · obtain ⟨i, c, ref, rfl⟩ := transfers
    cases step with
    | transfer i c ref x y =>
      cases made
      rw [w.token?_size] at present
      cases present
    | transferForeign | transferRefused => cases made
  · rw [step.not_made fun i c ref same => transfers ⟨i, c, ref, same⟩] at made
    cases made

theorem Step.decides_receive (i : ThreadId) (c : Context) (step : Step w (.receive i t c) o w')
    (tracked : Tracked past w) (history : History past w)
    (permitted : Rule.held past w (.receive i t c)) (k : Token) (present : w.token? t = some k) :
    Decides t k.source past ⟨w, .receive i t c, o⟩ w' := by
  have kept : ¬ (⟨w, .receive i t c, o⟩ : Record).Ends t →
      (Owing t (⟨w, .receive i t c, o⟩ :: past) ↔ Owing t past) :=
    owing_cons_iff permitted t (by intro j other; cases other) (made?_ne step k present)
  have exit := exit?_receive (o := o) i c k present
  unfold Decides
  cases step with
  | receiveAgain i t c k' there claimed =>
    obtain rfl := Option.some.inj (present.symm.trans there)
    rw [exit, if_neg claimed]
    exact kept (not_ends_of_again k present claimed _)
  | receiveLocal i t c k' there created here =>
    obtain rfl := Option.some.inj (present.symm.trans there)
    have owing := tracked.owing_of_created history k present created permitted
    rw [exit, if_pos created, if_pos here]
    refine ⟨owing, not_owing_of_ends _ (Or.inl (Or.inr ⟨i, c, _, k, rfl, present, here, rfl⟩)),
      rfl, ?_, fun ref => held_of_tables rfl ref⟩
    exact (congrFun (due?_receiving _) _).trans (Function.update_self ..)
  | receiveUnavailable i t c k' there created apart gone =>
    obtain rfl := Option.some.inj (present.symm.trans there)
    have owing := tracked.owing_of_created history k present created permitted
    have detached : w.runtime.isAttached k.thread = false := by
      rw [Runtime.isAttached, gone, Option.isSome_none]
    have strands := strands?_of_unavailable (i := i)
      (o := .ok (.receive w.receives.size)) k present created apart detached
    rw [exit, if_pos created, if_neg apart, detached, if_neg Bool.false_ne_true]
    exact ⟨owing, not_owing_of_ends _ (Or.inr strands), losses_of_strands _ strands k present,
      fun ref => held_of_tables rfl ref⟩
  | receiveAsked i t c k' there created apart source attached =>
    obtain rfl := Option.some.inj (present.symm.trans there)
    have stays : w.runtime.isAttached k.thread = true := by
      rw [Runtime.isAttached, attached, Option.isSome_some]
    rw [exit, if_pos created, if_neg apart, if_pos stays]
    exact kept (not_ends_of_asked k present apart source attached)

theorem Step.decides_turn (l : LoopId) (step : Step w (.turn l) o w') (account : Account past w)
    (tracked : Tracked past w) (orderly : Orderly w) (history : History past w)
    (allowed : (Move.turn l).Allowed w) (job : w.job? l = some (.serve t)) (k : Token)
    (present : w.token? t = some k) : Decides t k.source past ⟨w, .turn l, o⟩ w' := by
  obtain ⟨v, next⟩ := w.exists_next l _ job
  obtain ⟨i, owner⟩ := allowed
  have owing := tracked.owing orderly history l i owner t next k present
  have exit := exit?_turn (o := o) l job k present
  -- a request without an answer changes no table
  have unanswered : ¬ (w.runtime.isAttached k.thread = true ∧
      (w.runtime.waiting.find? (·.correlation == k.correlation)).isSome = true) →
      w' = v.withToken t k.dropped → Decides t k.source past ⟨w, .turn l, o⟩ w' := by
    rintro alone rfl
    have strands := strands?_of_unanswered (o := o) l job k present alone
    unfold Decides
    rw [exit, if_neg alone]
    refine ⟨owing, not_owing_of_ends _ (Or.inr strands), losses_of_strands _ strands k present,
      fun ref => ?_⟩
    obtain ⟨q, rfl⟩ := next_eq l i owner _ v next
    exact held_of_tables rfl ref
  cases step.serving l t v next k present with
  | detached detached => exact unanswered (by rw [detached]; rintro ⟨⟨⟩, _⟩) rfl
  | unregistered attached gone => exact unanswered (by rw [gone]; rintro ⟨_, ⟨⟩⟩) rfl
  | served attached c waits x source =>
    unfold Decides
    rw [exit, if_pos ⟨attached, by rw [waits, Option.isSome_some]⟩]
    refine ⟨owing, not_owing_of_ends _ (Or.inl (Or.inl ⟨l, v, k, rfl, next, present, attached, rfl⟩)),
      ?_⟩
    exact account.counts_served orderly l i owner t next k present owing c waits x source

theorem noted_note (ref : Guest.Ref) (x : Realm) (present : w.realms[ref.realm]? = some x) :
    noted (w.note ref) ref.realm = ref.handle ::ₘ noted w ref.realm := by
  have written := congrArg Books.noted (books_note [] ref x present)
  exact (congrFun written ref.realm).trans (Function.update_self ..)

theorem Step.decides_dropToken (i : ThreadId) (step : Step w (.dropToken i t) o w')
    (tracked : Tracked past w) (orderly : Orderly w) (history : History past w)
    (permitted : Rule.held past w (.dropToken i t)) (k : Token) (present : w.token? t = some k) :
    Decides t k.source past ⟨w, .dropToken i t, o⟩ w' := by
  have exit := exit?_dropToken (o := o) i k present
  cases step with
  | dropToken i t k' there =>
    obtain rfl := Option.some.inj (present.symm.trans there)
    unfold Decides World.dropCopy
    rw [exit]
    by_cases last : k.copies ≤ 1 ∧ k.state = .created
    · obtain ⟨x, source, _⟩ := orderly.exists_source t k present
      have unclaimed := (history.unclaimed t k present).mp last.2
      have single := (tracked.copies t k present last.2).trans_le last.1
      rw [if_pos last, if_pos last]
      refine ⟨tracked.owing_of_created history k present last.2 permitted,
        not_owing_of_last unclaimed single, noted_note (w := w.withToken t k.dropped) _ x source,
        fun ref => held_of_tables (World.table?_note k.source (w.withToken t k.dropped)) ref⟩
    · rw [if_neg last, if_neg last]
      exact owing_dropToken_iff permitted rfl (tracked.others history k present last) t

/-- Whatever a fair move comes to, it leaves a token as it is or decides on it. -/
theorem Step.decides (step : Step w m o w') (account : Account past w) (tracked : Tracked past w)
    (orderly : Orderly w) (history : History past w) (allowed : m.Allowed w)
    (permitted : Rule.held past w m) (k : Token) (present : w.token? t = some k) :
    Decides t k.source past ⟨w, m, o⟩ w' := by
  rcases m.apart_or t w with apart | ⟨i, rfl⟩ | ⟨i, c, rfl⟩ | ⟨l, rfl, job⟩
  · unfold Decides
    rw [apart.exit?]
    exact owing_cons_iff permitted t apart.1 (made?_ne step k present) apart.not_ends
  · exact step.decides_dropToken i tracked orderly history permitted k present
  · exact step.decides_receive i c tracked history permitted k present
  · exact step.decides_turn l account tracked orderly history allowed job k present

theorem owing_running (i : ThreadId) :
    Owing t (⟨{ w with here := i }, m, o⟩ :: past) ↔ Owing t (⟨w, m, o⟩ :: past) := by
  have ends : (⟨{ w with here := i }, m, o⟩ : Record).Ends t ↔ (⟨w, m, o⟩ : Record).Ends t :=
    ⟨fun ends => ends.still t rfl, fun ends => ends.still t rfl⟩
  unfold Owing
  rw [ended_cons_iff, ended_cons_iff, ends]
  rfl

theorem losses_running (i : ThreadId) :
    losses (⟨{ w with here := i }, m, o⟩ :: past) = losses (⟨w, m, o⟩ :: past) := by
  unfold losses
  rw [List.filterMap_cons, List.filterMap_cons, Record.loses?_still (w := w) rfl]

theorem Decides.running (i j : ThreadId) (source : Guest.Ref)
    (decides : Decides t source past ⟨{ w with here := i }, m, o⟩ w') :
    Decides t source past ⟨w, m, o⟩ { w' with here := j } := by
  unfold Decides at decides ⊢
  rw [Record.exit?_running, owing_running] at decides
  split at decides
  · exact decides
  · next e _ =>
    refine ⟨decides.1, decides.2.1, ?_⟩
    have leaves := decides.2.2
    cases e with
    | stranded => exact ⟨(losses_running i).symm.trans leaves.1, leaves.2⟩
    | handed | served | returned => exact leaves

/-- A token has its reference and never gave it up, or it gave it up once. -/
def Once (t : TokenId) (past : List Record) : Prop :=
  (Owing t past ∧ exits t past = []) ∨ (¬ Owing t past ∧ ∃ e, exits t past = [e])

theorem Decides.once (r : Record) (source : Guest.Ref) (decides : Decides t source past r w')
    (once : Once t past) : Once t (r :: past) := by
  unfold Decides at decides
  unfold Once exits
  rw [List.filterMap_cons]
  cases exit : r.exit? t with
  | none =>
    rw [exit] at decides
    exact once.imp (And.imp_left decides.mpr) (And.imp_left (mt decides.mp))
  | some e =>
    rw [exit] at decides
    obtain ⟨owing, gone, _⟩ := decides
    rcases once with ⟨_, never⟩ | ⟨none, _⟩
    · exact Or.inr ⟨gone, e, congrArg (e :: ·) never⟩
    · exact absurd owing none

/-- What is known of the references of tokens in a run. -/
structure Settled (past : List Record) (w : World) : Prop where
  unknown : ∀ t, w.token? t = none → exits t past = []
  once : ∀ t k, w.token? t = some k → Once t past
  asked : ∀ t k, w.token? t = some k → Owing t past → receiver? t past ≠ none →
    ∃ i, (i, .serve t) ∈ w.posted

theorem exits_unknown (r : Record) (unknown : r.before.token? t = none) :
    exits t (r :: past) = exits t past := by
  have none : r.exit? t = none := by rw [Record.exit?, unknown, Option.bind_none]
  unfold exits
  rw [List.filterMap_cons, none]

/-- A token that is new was made with one copy, and nobody received it. -/
theorem Aging.fresh (aging : Aging m o w w') (t : TokenId) (k : Token) (unknown : w.token? t = none)
    (present : w'.token? t = some k) : k.state = .created ∧ k.copies = 1 := by
  have changed : ∀ (s : TokenId) (l k' : Token), w.token? s = some k' →
      w'.token? ≠ Function.update w.token? s (some l) := by
    intro s l k' there tokens
    have apart : t ≠ s := by
      rintro rfl
      rw [unknown] at there
      cases there
    rw [tokens, Function.update_of_ne apart, unknown] at present
    cases present
  cases aging with
  | same tokens =>
    rw [tokens, unknown] at present
    cases present
  | copied i s k' move there tokens => exact absurd tokens (changed s _ k' there)
  | dropped i s k' move there tokens => exact absurd tokens (changed s _ k' there)
  | moved s k' l there alike forward claimed tokens => exact absurd tokens (changed s l k' there)
  | issued k' made created single tokens =>
    rw [tokens] at present
    obtain ⟨-, rfl⟩ | ⟨-, former⟩ := of_update_eq_some present
    · exact ⟨created, single⟩
    · rw [unknown] at former
      cases former

theorem Run.decides {config : Config} (run : Run config .held past w) (allowed : m.Allowed w)
    (permitted : Rule.held past w m) (k : Token) (present : w.token? t = some k) :
    Decides t k.source past ⟨w, m, (m.perform w).1⟩ (m.perform w).2 := by
  have step := m.step run.orderly allowed
  rw [m.perform_eq] at step ⊢
  exact (step.decides (run.accountable.running _).account (run.tracked.running _)
    (run.orderly.running _) (run.history.running _) allowed (held_running _ permitted) k
    present).running _ _ _

/-- The first receive of a token that does not decide on it posts its request. -/
theorem Step.asks (i : ThreadId) (c : Context) (step : Step w (.receive i t c) o w')
    (orderly : Orderly w) (history : History past w) (k : Token) (present : w.token? t = some k)
    (first : receiver? t past = none) (unsettled : (⟨w, .receive i t c, o⟩ : Record).exit? t = none) :
    ∃ j, (j, .serve t) ∈ w'.posted := by
  have created := (history.unclaimed t k present).mpr first
  rw [exit?_receive i c k present, if_pos created] at unsettled
  cases step with
  | receiveAgain i t c k' there claimed =>
    obtain rfl := Option.some.inj (present.symm.trans there)
    exact absurd created claimed
  | receiveLocal i t c k' there created here =>
    obtain rfl := Option.some.inj (present.symm.trans there)
    rw [if_pos here] at unsettled
    cases unsettled
  | receiveUnavailable i t c k' there created apart gone =>
    obtain rfl := Option.some.inj (present.symm.trans there)
    have detached : w.runtime.isAttached k.thread = false := by
      rw [Runtime.isAttached, gone, Option.isSome_none]
    rw [if_neg apart, detached, if_neg Bool.false_ne_true] at unsettled
    cases unsettled
  | receiveAsked i t c k' there created apart source attached =>
    obtain ⟨j, posts⟩ := posted_asked orderly t k' there c source attached
    exact ⟨j, posts.mem_iff.mpr List.mem_cons_self⟩

/-- A token that is received keeps its request posted until that is decided on. -/
theorem Step.pursues (step : Step w m o w') (orderly : Orderly w) (history : History past w)
    (allowed : m.Allowed w) (k : Token) (present : w.token? t = some k)
    (unsettled : (⟨w, m, o⟩ : Record).exit? t = none)
    (posted : receiver? t past ≠ none → ∃ i, (i, .serve t) ∈ w.posted)
    (received : receiver? t (⟨w, m, o⟩ :: past) ≠ none) : ∃ i, (i, .serve t) ∈ w'.posted := by
  cases first : receiver? t past with
  | none =>
    obtain ⟨i, c, rfl⟩ : ∃ i c, m = .receive i t c := by
      rw [receiver?, first] at received
      cases m with
      | receive i s c =>
        dsimp only at received
        split at received
        · next same => exact ⟨i, c, by rw [same]⟩
        · exact absurd rfl received
      | _ => exact absurd rfl received
    exact step.asks i c orderly history k present first unsettled
  | some d =>
    obtain ⟨i, there⟩ := posted (first ▸ Option.some_ne_none d)
    rcases step.posted orderly allowed _ there with stays | ⟨l, rfl, job⟩
    · exact ⟨i, stays⟩
    · rw [exit?_turn l job k present] at unsettled
      split at unsettled <;> cases unsettled

/-- A move keeps that every token has its one exit or its reference. -/
theorem Settled.step {config : Config} (settled : Settled past w) (run : Run config .held past w)
    (allowed : m.Allowed w) (permitted : Rule.held past w m) :
    Settled (⟨w, m, (m.perform w).1⟩ :: past) (m.perform w).2 := by
  have after := run.step m allowed permitted
  have step := m.step run.orderly allowed
  have aging := step.aging (run.orderly.running _) allowed
  have performed := m.world_perform w
  have stays : ∀ t, (m.perform w).2.token? t = none → w.token? t = none := by
    intro t unknown
    by_contra known
    obtain ⟨k, present⟩ := Option.ne_none_iff_exists'.mp known
    obtain ⟨l, there, _⟩ := aging.stays t k present
    rw [performed] at unknown
    exact absurd (there.symm.trans unknown) (Option.some_ne_none l)
  have fresh : ∀ t k, w.token? t = none → (m.perform w).2.token? t = some k →
      k.state = .created ∧ k.copies = 1 := fun t k unknown present =>
    aging.fresh t k unknown (by rw [performed] at present; exact present)
  refine ⟨fun t unknown => ?_, fun t k present => ?_, fun t k present owing received => ?_⟩
  · rw [exits_unknown _ (stays t unknown)]
    exact settled.unknown t (stays t unknown)
  · cases former : w.token? t with
    | none =>
      obtain ⟨created, single⟩ := fresh t k former present
      have counted := after.tracked.copies t k present created
      have member : t ∈ (hands (⟨w, m, (m.perform w).1⟩ :: past)).tokens :=
        Multiset.count_pos.mp (by omega)
      refine Or.inl ⟨after.tracked.owing_of_created after.history k present created member, ?_⟩
      rw [exits_unknown _ former]
      exact settled.unknown t former
    | some l => exact (run.decides allowed permitted l former).once _ _ (settled.once t l former)
  · cases former : w.token? t with
    | none =>
      obtain ⟨created, _⟩ := fresh t k former present
      exact absurd ((after.history.unclaimed t k present).mp created) received
    | some l =>
      have decides := run.decides allowed permitted l former
      unfold Decides at decides
      cases exit : (⟨w, m, (m.perform w).1⟩ : Record).exit? t with
      | some e =>
        rw [exit] at decides
        exact absurd owing decides.2.1
      | none =>
        rw [exit] at decides
        rw [performed]
        rw [← Record.exit?_running (m.thread w)] at exit
        rw [m.perform_eq] at exit received
        exact step.pursues (run.orderly.running _) (run.history.running _) allowed l former exit
          (settled.asked t l former (decides.mp owing)) received

theorem Run.settled {config : Config} (run : Run config .held past w) : Settled past w := by
  induction run with
  | start =>
    refine ⟨fun t _ => rfl, fun t k there => ?_, fun t k there => ?_⟩ <;>
    · have noToken : (World.create config).token? t = none := rfl
      rw [noToken] at there
      cases there
  | step m run allowed permitted ih => exact ih.step run allowed permitted

/-- A token takes one reference to its source. -/
theorem Step.takes (i : ThreadId) (c : Context) (ref : Guest.Ref)
    (step : Step w (.transfer i c ref) (.ok (.token (.ok t))) w') (account : Account past w)
    (permitted : Rule.held past w (.transfer i c ref)) :
    t = w.tokens.size ∧ w'.source? t = some ref ∧
      ∀ other, w'.held other = w.held other + if other = ref then 1 else 0 := by
  cases step with
  | transfer i c ref x y present retained =>
    have issued := World.token?_issued (w.numbered.withRealm ref.realm y)
      ⟨ref, x.thread, w.runtime.nextCorrelation, .created, 1⟩
    refine ⟨rfl, World.source?_of_present _ _ _ ((congrFun issued _).trans
      (Function.update_self ..)), fun other => ?_⟩
    · have shift := account.shift_retainHandle ref x y present retained (permitted x present)
      have counts := shift.counts other
      rw [rooted_withRealm ref.realm x y present, Multiset.count_zero, Multiset.count_singleton]
        at counts
      exact Nat.add_right_cancel counts

theorem Account.returns (account : Account past w) (r : RealmId) (x : Realm)
    (present : w.realms[r]? = some x) (h : Handle) :
    (w.withRealm r x.collect.2).held ⟨r, h⟩ + (noted w r).count h = w.held ⟨r, h⟩ := by
  have counts := (account.shift_collected r x present).counts ⟨r, h⟩
  have injective : Function.Injective (Guest.Ref.mk r) := fun h k equal =>
    congrArg Guest.Ref.handle equal
  rw [rooted_withRealm r x _ present, Multiset.count_zero,
    Multiset.count_map_eq_count' _ _ injective] at counts
  exact Nat.add_right_cancel counts

/-- What holds of the references of tokens at a move of fair threads. -/
structure Settlement (past : List Record) (w : World) (m : Move) : Prop where
  /-- A token that is made takes one reference to its source. -/
  taken : ∀ i c ref t, m = .transfer i c ref → (m.perform w).1 = .ok (.token (.ok t)) →
    (m.perform w).2.source? t = some ref ∧ Owing t (⟨w, m, (m.perform w).1⟩ :: past) ∧
      ∀ other, (m.perform w).2.held other = w.held other + if other = ref then 1 else 0
  /-- Every token gives that reference up once, unless it still has it. -/
  once : ∀ t k, w.token? t = some k → Once t past
  /-- As long as a token has its reference it can be received, or its request is posted. -/
  due : ∀ t k, w.token? t = some k → Owing t past →
    (k.state = .created ∧ t ∈ (hands past).tokens) ∨ ∃ i, (i, .serve t) ∈ w.posted
  /-- What becomes of the reference is what its exit says. -/
  decides : ∀ t k, w.token? t = some k →
    Decides t k.source past ⟨w, m, (m.perform w).1⟩ (m.perform w).2
  /-- What the realm of an attached thread has noted is given back by a collection that is posted. -/
  waits : Waits w
  collects : ∀ l a, m = .turn l → a ∈ w.runtime.attached →
    w.job? l = some (.collect a.realm) → noted (m.perform w).2 a.realm = 0 ∧
      ∀ h, (m.perform w).2.held ⟨a.realm, h⟩ + (noted w a.realm).count h = w.held ⟨a.realm, h⟩
  /-- When the copies of tokens are gone and the loops have nothing to do, no token has its
  reference, and attached threads hold what is in hand, owed by replies and receives, or lost. -/
  drained : w.posted = [] → (hands past).tokens = 0 →
    (∀ t k, w.token? t = some k → ∃ e, exits t past = [e]) ∧
      ∀ a ∈ w.runtime.attached, ∀ h, ∃ owed : Finset Debtor,
        (∀ d, d ∈ owed ↔ (books past w).owes d = some ⟨a.realm, h⟩) ∧ (∀ t, .token t ∉ owed) ∧
        w.held ⟨a.realm, h⟩ = rooted w ⟨a.realm, h⟩ + (hands past).refs.count ⟨a.realm, h⟩ +
          owed.card + (losses past).count (.discarded, ⟨a.realm, h⟩) +
          (losses past).count (.stranded, ⟨a.realm, h⟩) +
          (losses past).count (.unread, ⟨a.realm, h⟩)

theorem Settled.due (settled : Settled past w) (history : History past w) (k : Token)
    (present : w.token? t = some k) (owing : Owing t past) :
    (k.state = .created ∧ t ∈ (hands past).tokens) ∨ ∃ i, (i, .serve t) ∈ w.posted := by
  cases received : receiver? t past with
  | none =>
    have held := owing.2.resolve_left fun some => some received
    exact Or.inl ⟨(history.unclaimed t k present).mpr received, held⟩
  | some d =>
    exact Or.inr (settled.asked t k present owing (received ▸ Option.some_ne_none d))

/-- The reference that a token takes is given up once. A receiver on the thread of the source has it, it
is given back when the request is served, or it is noted for the next collection. If the source was
detached before the request was answered, or nobody waits any more, nobody gives it back. -/
theorem settlement (config : Config) (past : List Record) (w : World)
    (run : Run config .held past w) (m : Move) (allowed : m.Allowed w)
    (permitted : Rule.held past w m) : Settlement past w m := by
  have settled := run.settled
  have account := run.accountable.account
  have step := m.step run.orderly allowed
  have performed := m.world_perform w
  have due := fun t k present owing => settled.due (t := t) run.history k present owing
  have free : w.posted = [] → (hands past).tokens = 0 → ∀ t k, w.token? t = some k →
      ¬ Owing t past := by
    intro idle empty t k present owing
    rcases due t k present owing with ⟨_, held⟩ | ⟨i, posted⟩
    · rw [empty] at held
      exact Multiset.notMem_zero t held
    · rw [idle] at posted
      exact List.not_mem_nil posted
  refine ⟨?_, settled.once, due, fun t k present => run.decides allowed permitted k present,
    run.waits, ?_, fun idle empty => ⟨fun t k present => ?_, fun a member h => ?_⟩⟩
  · rintro i c ref t rfl answered
    rw [answered] at step
    obtain ⟨rfl, source, counts⟩ := step.takes i c ref (run.accountable.running _).account
      (held_running _ permitted)
    rw [performed, answered]
    exact ⟨source, run.tracked.owing_issued i c ref, counts⟩
  · rintro l a rfl member job
    obtain ⟨q, x, present, same⟩ := step.collects l allowed a member ((w.job?_running _ l).trans job)
    rw [performed, same]
    exact ⟨(congrFun (noted_collected (w := w) a.realm x present) a.realm).trans
      (Function.update_self ..), account.returns a.realm x present⟩
  · exact ((settled.once t k present).resolve_left fun still => free idle empty t k present still.1).2
  · obtain ⟨owed, known, balance⟩ := account.balance ⟨a.realm, h⟩
    have clear : noted w a.realm = 0 := by
      by_contra left
      obtain ⟨i, posted⟩ := run.waits a member left
      rw [idle] at posted
      exact List.not_mem_nil posted
    dsimp only at balance
    rw [clear, Multiset.count_zero, Nat.add_zero] at balance
    refine ⟨owed, known, fun t owes => ?_, balance⟩
    obtain ⟨owing, source⟩ := (owes_token_iff past w t _).mp ((known _).mp owes)
    obtain ⟨k, present, _⟩ := Option.map_eq_some_iff.mp source
    exact free idle empty t k present owing

theorem permitted_departing : Permitted .held [] (.create .default) departing := by
  obtain ⟨_, _, _, _, fits, _⟩ := permitted_asking
  exact ⟨trivial, trivial, trivial, trivial, fits, trivial, trivial⟩

/-- A token is received whose source was detached, and nobody gives its reference back. -/
theorem settlement_stranded :
    let w := (play [] (.create .default) departing).2
    let past := (play [] (.create .default) departing).1
    let asks : Move := .receive 1 0 (contextOf 1)
    exits 0 past = [] ∧ Owing 0 past ∧ ¬ Owing 0 (⟨w, asks, (asks.perform w).1⟩ :: past) ∧
      losses (⟨w, asks, (asks.perform w).1⟩ :: past) =
        (.stranded, ⟨0, .globalObject⟩) ::ₘ losses past ∧
      ∀ ref, (asks.perform w).2.held ref = w.held ref := by
  intro w past asks
  have run : Run .default .held past w :=
    Run.start.play departing (by decide +kernel) permitted_departing
  have present : w.token? 0 = some ⟨⟨0, .globalObject⟩, ⟨0⟩, 1, .created, 1⟩ := by decide +kernel
  have holds : Settlement past w asks := settlement .default past w run asks (by decide +kernel)
    (by exact (by decide +kernel : 0 ∈ (hands past).tokens))
  have exit : (⟨w, asks, (asks.perform w).1⟩ : Record).exit? 0 = some .stranded := by
    decide +kernel
  have decides := holds.decides 0 _ present
  unfold Decides at decides
  rw [exit] at decides
  obtain ⟨owing, gone, lost, counts⟩ := decides
  have once := (holds.once 0 _ present).resolve_right fun done => done.1 owing
  exact ⟨once.2, owing, gone, lost, counts⟩

end Transfer

end Membrane
