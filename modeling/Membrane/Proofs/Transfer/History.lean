import Membrane.Proofs.Transfer.Aside
/-!
What was done tells which tokens were received, which threads are gone, and whether a request still
has a receiver that waits for it.
-/

set_option autoImplicit false

namespace Membrane.Transfer

/-- The context that received a token first. -/
def receiver? (t : TokenId) : List Record → Option Context
  | [] => none
  | r :: past =>
    match receiver? t past, r.move with
    | some c, _ => some c
    | none, .receive _ s c => if s = t then some c else none
    | none, _ => none

/-- A thread was detached. -/
def Departed (thread : ThreadIndex) (past : List Record) : Prop :=
  ∃ r ∈ past, ∃ i c, r.move = .detach i c ∧ c.thread = thread

/-- The thread that received a token was detached after it had received it. -/
def Deserted (t : TokenId) : List Record → Prop
  | [] => False
  | r :: past => Deserted t past ∨
    ∃ i c d, r.move = .detach i c ∧ receiver? t past = some d ∧ c.thread = d.thread

variable {w : World}

/-- What was done agrees with what is there. -/
structure History (past : List Record) (w : World) : Prop where
  unclaimed : ∀ t k, w.token? t = some k → (k.state = .created ↔ receiver? t past = none)
  unknown : ∀ t, w.token? t = none → receiver? t past = none
  departed : ∀ thread, Departed thread past →
    thread.val.toNat < w.realms.size ∧ ∀ a ∈ w.runtime.attached, a.thread ≠ thread
  awaited : ∀ c ∈ w.runtime.waiting, ∃ t k d, w.token? t = some k ∧
    k.correlation = c.correlation ∧ receiver? t past = some d ∧ d.thread = c.destination ∧
    ¬ Deserted t past
  served : ∀ i t k, (i, .serve t) ∈ w.posted → w.token? t = some k →
    (∃ a ∈ w.runtime.attached, a.thread = k.thread) →
    (∃ c ∈ w.runtime.waiting, c.correlation = k.correlation) ∨ Deserted t past

/-- A move that neither detaches a thread nor receives a token first. -/
def Uneventful (past : List Record) (m : Move) : Prop :=
  (∀ i c, m ≠ .detach i c) ∧ ∀ i t c, m = .receive i t c → receiver? t past ≠ none

variable {past : List Record} {m : Move} {outcome : Except Halt Answer} {u w' : World}

theorem receiver?_cons_of_some (t : TokenId) (r : Record) (d : Context)
    (known : receiver? t past = some d) : receiver? t (r :: past) = some d := by
  simp only [receiver?, known]

theorem Uneventful.receiver? (quiet : Uneventful past m) (t : TokenId) :
    receiver? t (⟨u, m, outcome⟩ :: past) = receiver? t past := by
  cases known : Transfer.receiver? t past with
  | some d => exact receiver?_cons_of_some t _ d known
  | none =>
    unfold Transfer.receiver?
    rw [known]
    cases m with
    | receive i s c =>
      have apart : s ≠ t := by
        rintro rfl
        exact quiet.2 i s c rfl known
      simp only [apart, ↓reduceIte]
    | _ => rfl

theorem Uneventful.deserted (quiet : Uneventful past m) (t : TokenId) :
    Deserted t (⟨u, m, outcome⟩ :: past) ↔ Deserted t past := by
  refine ⟨?_, Or.inl⟩
  rintro (old | ⟨i, c, d, detached, _⟩)
  · exact old
  · exact absurd detached (quiet.1 i c)

theorem Uneventful.departed (quiet : Uneventful past m) (thread : ThreadIndex) :
    Departed thread (⟨u, m, outcome⟩ :: past) ↔ Departed thread past := by
  constructor
  · rintro ⟨r, member, i, c, detached, same⟩
    rcases List.mem_cons.mp member with rfl | old
    · exact absurd detached (quiet.1 i c)
    · exact ⟨r, old, i, c, detached, same⟩
  · rintro ⟨r, member, rest⟩
    exact ⟨r, List.mem_cons_of_mem _ member, rest⟩

theorem Orderly.thread_inside (orderly : Orderly w) (t : TokenId) (k : Token)
    (present : w.token? t = some k) : k.thread.val.toNat < w.realms.size := by
  obtain ⟨p, there, thread⟩ := orderly.issued.housed t k present
  rw [← thread, orderly.housed.numbered _ p there]
  exact orderly.housed.inside _ p there

theorem Orderly.exists_of_serve (orderly : Orderly w) (i : ThreadId) (t : TokenId)
    (member : (i, .serve t) ∈ w.posted) :
    ∃ k, w.token? t = some k ∧ k.state = .requested := by
  obtain ⟨k, _, present, requested, _⟩ := orderly.queued.proper _ member
  exact ⟨k, present, requested⟩

theorem History.unspoken (history : History past w) (orderly : Orderly w)
    (change : Unspoken w w') (quiet : Uneventful past m) :
    History (⟨u, m, outcome⟩ :: past) w' where
  unclaimed t k present := by
    rw [quiet.receiver?]
    rcases change.tokens t k present with ⟨l, former, _, state⟩ | ⟨absent, created⟩
    · rw [state]
      exact history.unclaimed t l former
    · exact iff_of_true created (history.unknown t absent)
  unknown t absent := by
    rw [quiet.receiver?]
    apply history.unknown t
    by_contra known
    obtain ⟨k, present⟩ := Option.ne_none_iff_exists'.mp known
    obtain ⟨l, now, _⟩ := change.stays t k present
    rw [absent] at now
    cases now
  departed thread gone := by
    obtain ⟨inside, apart⟩ := history.departed thread ((quiet.departed thread).mp gone)
    refine ⟨Nat.lt_of_lt_of_le inside change.count, fun a member => ?_⟩
    rcases change.attached a member with old | new
    · exact apart a old
    · rintro rfl
      omega
  awaited c member := by
    obtain ⟨t, k, d, present, correlation, receiver, destination, stays⟩ :=
      history.awaited c (change.waiting c member)
    obtain ⟨l, now, alike⟩ := change.stays t k present
    refine ⟨t, l, d, now, ?_, ?_, destination, ?_⟩
    · rw [alike.correlation, correlation]
    · rw [quiet.receiver?, receiver]
    · rw [quiet.deserted]
      exact stays
  served := by
    rintro i t k member present ⟨a, attached, thread⟩
    rw [quiet.deserted]
    obtain ⟨l, former, _⟩ := orderly.exists_of_serve i t (change.posted i t member)
    obtain ⟨k', now, alike⟩ := change.stays t l former
    rw [present, Option.some.injEq] at now
    subst now
    rw [alike.thread] at thread
    rcases change.attached a attached with old | new
    · rcases history.served i t l (change.posted i t member) former ⟨a, old, thread⟩ with
        ⟨c, waits, same⟩ | deserted
      · refine Or.inl ⟨c, change.waits i t l c member former waits same, ?_⟩
        rw [alike.correlation, same]
      · exact Or.inr deserted
    · have inside := orderly.thread_inside t l former
      rw [thread] at new
      omega

theorem receiver?_detach (t : TokenId) (i : ThreadId) (c : Context) :
    receiver? t (⟨u, .detach i c, outcome⟩ :: past) = receiver? t past := by
  cases known : receiver? t past with
  | some d => exact receiver?_cons_of_some t _ d known
  | none => simp only [receiver?, known]

theorem deserted_detach (t : TokenId) (i : ThreadId) (c : Context) :
    Deserted t (⟨u, .detach i c, outcome⟩ :: past) ↔
      Deserted t past ∨ ∃ d, receiver? t past = some d ∧ c.thread = d.thread := by
  refine or_congr Iff.rfl ⟨?_, ?_⟩
  · rintro ⟨j, e, d, same, receiver, thread⟩
    cases same
    exact ⟨d, receiver, thread⟩
  · rintro ⟨d, receiver, thread⟩
    exact ⟨i, c, d, rfl, receiver, thread⟩

/-- What a detach leaves of the runtime. -/
theorem runtime_detached (c : Context) (x : Realm) :
    (w.detached c x).runtime.attached = w.runtime.attached.filter (·.thread != c.thread) ∧
      (w.detached c x).runtime.waiting =
        w.runtime.waiting.filter (fun d => !Runtime.involves c.thread d) ∧
      (w.detached c x).realms = w.realms ∧ (w.detached c x).tokens = w.tokens ∧
      (w.detached c x).loops = w.loops := by
  unfold World.detached
  split <;> exact ⟨rfl, rfl, rfl, rfl, rfl⟩

theorem mem_attached_detached (c : Context) (x : Realm) (a : Attachment) :
    a ∈ (w.detached c x).runtime.attached ↔
      a ∈ w.runtime.attached ∧ a.thread ≠ c.thread := by
  rw [(runtime_detached c x).1, List.mem_filter, bne_iff_ne]

theorem mem_waiting_detached (c : Context) (x : Realm) (d : Continuation) :
    d ∈ (w.detached c x).runtime.waiting ↔
      d ∈ w.runtime.waiting ∧ d.source ≠ c.thread ∧ d.destination ≠ c.thread := by
  rw [(runtime_detached c x).2.1, List.mem_filter]
  simp only [Runtime.involves, Bool.not_eq_true', Bool.or_eq_false_iff, beq_eq_false_iff_ne]

/-- A receiver that stops to wait because its thread is detached has deserted its token. -/
theorem History.detached (history : History past w) (orderly : Orderly w) (i : ThreadId)
    (c : Context) (x : Realm) (present : w.realms[c.realm]? = some x)
    (thread : x.thread = c.thread) :
    History (⟨u, .detach i c, outcome⟩ :: past) (w.detached c x) := by
  obtain ⟨_, _, realms, tokens, loops⟩ := runtime_detached (w := w) c x
  have sameTokens : (w.detached c x).token? = w.token? := by
    funext t
    rw [World.token?, tokens, World.token?]
  refine
    { unclaimed := fun t k there => ?_
      unknown := fun t absent => ?_
      departed := ?_
      awaited := fun d member => ?_
      served := ?_ }
  · rw [sameTokens] at there
    rw [receiver?_detach]
    exact history.unclaimed t k there
  · rw [sameTokens] at absent
    rw [receiver?_detach]
    exact history.unknown t absent
  · rintro gone ⟨r, member, j, e, detached, same⟩
    rw [realms]
    rcases List.mem_cons.mp member with rfl | old
    · cases detached
      refine ⟨?_, fun a still => ?_⟩
      · have place := w.place?_of_present _ x present
        have number := orderly.housed.numbered _ _ place
        have inside := orderly.housed.inside _ _ place
        change x.thread.val.toNat = c.realm at number
        rw [← same, ← thread, number]
        exact inside
      · rw [← same]
        exact ((mem_attached_detached c x a).mp still).2
    · obtain ⟨inside, apart⟩ := history.departed gone ⟨r, old, j, e, detached, same⟩
      exact ⟨inside, fun a still => apart a ((mem_attached_detached c x a).mp still).1⟩
  · obtain ⟨old, _, outside⟩ := (mem_waiting_detached c x d).mp member
    obtain ⟨t, k, e, there, correlation, receiver, destination, stays⟩ := history.awaited d old
    refine ⟨t, k, e, by rw [sameTokens, there], correlation, ?_, destination, ?_⟩
    · rw [receiver?_detach, receiver]
    · rw [deserted_detach]
      rintro (before | ⟨e', receiver', now⟩)
      · exact stays before
      · rw [receiver, Option.some.injEq] at receiver'
        rw [now, ← receiver', destination] at outside
        exact outside rfl
  · rintro j t k member there ⟨a, still, same⟩
    rw [World.posted, loops, ← World.posted] at member
    rw [sameTokens] at there
    obtain ⟨attached, apart⟩ := (mem_attached_detached c x a).mp still
    rw [deserted_detach]
    rcases history.served j t k member there ⟨a, attached, same⟩ with ⟨d, waits, number⟩ | before
    · by_cases outside : d.destination = c.thread
      · obtain ⟨s, l, e, known, correlation, receiver, destination, _⟩ := history.awaited d waits
        have one := orderly.issued.distinct s t l k known there (correlation.trans number)
        subst one
        exact Or.inr (Or.inr ⟨e, receiver, by rw [destination, outside]⟩)
      · refine Or.inl ⟨d, (mem_waiting_detached c x d).mpr ⟨waits, ?_, outside⟩, number⟩
        obtain ⟨s, l, known, _, correlation, source⟩ := orderly.awaited.requested d waits
        have one := orderly.issued.distinct s t l k known there (correlation.trans number)
        subst one
        rw [known, Option.some.injEq] at there
        rw [← source, there, ← same]
        exact apart
    · exact Or.inr (Or.inl before)

theorem receiver?_of_deserted (t : TokenId) (deserted : Deserted t past) :
    ∃ d, receiver? t past = some d := by
  induction past with
  | nil => exact deserted.elim
  | cons r past ih =>
    rcases deserted with before | ⟨i, c, d, _, receiver, _⟩
    · obtain ⟨d, receiver⟩ := ih before
      exact ⟨d, receiver?_cons_of_some t r d receiver⟩
    · exact ⟨d, receiver?_cons_of_some t r d receiver⟩

theorem receiver?_receive (t : TokenId) (i : ThreadId) (c : Context)
    (first : receiver? t past = none) (s : TokenId) :
    receiver? s (⟨u, .receive i t c, outcome⟩ :: past) =
      if s = t then some c else receiver? s past := by
  cases known : receiver? s past with
  | some d =>
    have apart : s ≠ t := by
      rintro rfl
      rw [first] at known
      cases known
    rw [receiver?_cons_of_some s _ d known, if_neg apart]
  | none =>
    simp only [receiver?, known]
    by_cases same : t = s
    · rw [if_pos same, if_pos same.symm]
    · rw [if_neg same, if_neg (Ne.symm same)]

theorem deserted_receive (t : TokenId) (i : ThreadId) (c : Context) (s : TokenId) :
    Deserted s (⟨u, .receive i t c, outcome⟩ :: past) ↔ Deserted s past := by
  refine ⟨?_, Or.inl⟩
  rintro (old | ⟨j, e, d, other, _⟩)
  · exact old
  · cases other

theorem departed_receive (t : TokenId) (i : ThreadId) (c : Context) (thread : ThreadIndex) :
    Departed thread (⟨u, .receive i t c, outcome⟩ :: past) ↔ Departed thread past := by
  constructor
  · rintro ⟨r, member, j, e, detached, same⟩
    rcases List.mem_cons.mp member with rfl | old
    · cases detached
    · exact ⟨r, old, j, e, detached, same⟩
  · rintro ⟨r, member, rest⟩
    exact ⟨r, List.mem_cons_of_mem _ member, rest⟩

/-- The first receiver of a token claims it, and perhaps begins to wait. -/
theorem History.received (history : History past w) (i : ThreadId) (t : TokenId) (c : Context)
    (k l : Token) (present : w.token? t = some k) (created : k.state = .created)
    (claimed : l.state ≠ .created) (alike : Alike k l)
    (tokens : w'.token? = Function.update w.token? t (some l))
    (attached : w'.runtime.attached = w.runtime.attached)
    (count : w'.realms.size = w.realms.size)
    (stays : ∀ d ∈ w.runtime.waiting, d ∈ w'.runtime.waiting)
    (fresh : ∀ d ∈ w'.runtime.waiting, d ∈ w.runtime.waiting ∨
      d.correlation = k.correlation ∧ d.destination = c.thread)
    (posted : ∀ j s, (j, .serve s) ∈ w'.posted → s ≠ t → (j, .serve s) ∈ w.posted)
    (waits : ∀ j, (j, .serve t) ∈ w'.posted →
      ∃ d ∈ w'.runtime.waiting, d.correlation = k.correlation) :
    History (⟨u, .receive i t c, outcome⟩ :: past) w' := by
  have first := (history.unclaimed t k present).mp created
  have other : ∀ s, s ≠ t → w'.token? s = w.token? s := fun s apart => by
    rw [tokens, Function.update_of_ne apart]
  have self : w'.token? t = some l := by rw [tokens, Function.update_self]
  refine
    { unclaimed := fun s m there => ?_
      unknown := fun s absent => ?_
      departed := fun thread gone => ?_
      awaited := fun d member => ?_
      served := fun j s m member there source => ?_ }
  · rw [receiver?_receive t i c first]
    by_cases same : s = t
    · subst same
      rw [self, Option.some.injEq] at there
      subst there
      rw [if_pos rfl]
      exact iff_of_false claimed (Option.some_ne_none c)
    · rw [if_neg same]
      exact history.unclaimed s m (other s same ▸ there)
  · have apart : s ≠ t := by
      rintro rfl
      rw [self] at absent
      cases absent
    rw [receiver?_receive t i c first, if_neg apart]
    exact history.unknown s (other s apart ▸ absent)
  · rw [count, attached]
    exact history.departed thread ((departed_receive t i c thread).mp gone)
  · rcases fresh d member with old | ⟨correlation, destination⟩
    · -- Who waited before waits for another token: this one had no receiver.
      obtain ⟨s, m, e, there, correlation, receiver, destination, loyal⟩ := history.awaited d old
      have apart : s ≠ t := by
        rintro rfl
        rw [first] at receiver
        cases receiver
      refine ⟨s, m, e, (other s apart).trans there, correlation, ?_, destination, ?_⟩
      · rw [receiver?_receive t i c first, if_neg apart, receiver]
      · rw [deserted_receive]
        exact loyal
    · refine ⟨t, l, c, self, by rw [alike.correlation, correlation], ?_, destination.symm, ?_⟩
      · rw [receiver?_receive t i c first, if_pos rfl]
      · rw [deserted_receive]
        intro before
        obtain ⟨e, known⟩ := receiver?_of_deserted t before
        rw [first] at known
        cases known
  · rw [attached] at source
    rw [deserted_receive]
    by_cases same : s = t
    · subst same
      rw [self, Option.some.injEq] at there
      obtain ⟨d, now, correlation⟩ := waits j member
      exact Or.inl ⟨d, now, by rw [← there, alike.correlation, correlation]⟩
    · rcases history.served j s m (posted j s member same) (other s same ▸ there) source with
        ⟨d, before, correlation⟩ | deserted
      · exact Or.inl ⟨d, stays d before, correlation⟩
      · exact Or.inr deserted

/-- A receiver that asks the source begins to wait, and its request is posted. -/
theorem History.asked (history : History past w) (orderly : Orderly w) (i : ThreadId) (t : TokenId)
    (c : Context) (k : Token) (present : w.token? t = some k) (created : k.state = .created)
    (source : Attachment) (attached : w.runtime.attachment? k.thread = some source) :
    History (⟨u, .receive i t c, outcome⟩ :: past) (w.asked t k c source) := by
  obtain ⟨_, posted⟩ := posted_asked orderly t k present c source attached
  have waiting : ∀ d, d ∈ (w.asked t k c source).runtime.waiting ↔
      d ∈ w.runtime.waiting ∨ d = w.continuation k c := fun d =>
    List.mem_append.trans (or_congr Iff.rfl List.mem_singleton)
  refine history.received i t c k k.claimed.copied present created ?_ ⟨rfl, rfl, rfl⟩
    (w.token?_withToken t k _ present) rfl rfl ?_ ?_ ?_ ?_
  · simp only [Token.copied, Token.claimed, ne_eq, reduceCtorEq, not_false_eq_true]
  · exact fun d member => (waiting d).mpr (Or.inl member)
  · intro d member
    apply ((waiting d).mp member).imp_right
    rintro rfl
    exact ⟨rfl, rfl⟩
  · intro j s member apart
    rcases List.mem_cons.mp (posted.mem_iff.mp member) with new | old
    · cases new
      exact absurd rfl apart
    · exact old
  · intro j _
    exact ⟨w.continuation k c, (waiting _).mpr (Or.inr rfl), rfl⟩

/-- A receiver that has its answer at once waits for nothing. -/
theorem History.answered (history : History past w) (orderly : Orderly w) (i : ThreadId)
    (t : TokenId) (c : Context) (k l : Token) (present : w.token? t = some k)
    (created : k.state = .created) (claimed : l.state ≠ .created) (alike : Alike k l)
    (answer : Receive) :
    History (⟨u, .receive i t c, outcome⟩ :: past) ((w.withToken t l).receiving answer) := by
  have idle := orderly.idle_of_unclaimed t k present (created.trans_ne nofun)
  refine history.received i t c k l present created claimed alike (w.token?_withToken t k l present)
    rfl rfl (fun _ member => member) (fun _ member => Or.inl member) (fun _ _ member _ => member) ?_
  intro j member
  exact absurd rfl (idle.2 _ member)

theorem Step.history (step : Step w m outcome w') (history : History past w)
    (orderly : Orderly w) (allowed : m.Allowed w) : History (⟨u, m, outcome⟩ :: past) w' := by
  have uneventful : Unspoken w w' → (∀ i c, m ≠ .detach i c) →
      (∀ i t c k, m = .receive i t c → w.token? t = some k → k.state ≠ .created) →
      History (⟨u, m, outcome⟩ :: past) w' := by
    intro change stays again
    refine history.unspoken orderly change ⟨stays, ?_⟩
    rintro i t c rfl first
    obtain ⟨_, k, present⟩ := allowed
    exact again i t c k rfl present ((history.unclaimed t k present).mpr first)
  by_cases stays : ∀ i c, m ≠ .detach i c
  · by_cases again : ∀ i t c k, m = .receive i t c → w.token? t = some k → k.state ≠ .created
    · exact uneventful (step.unspoken orderly allowed stays again) stays again
    cases step with
    | receiveAgain i t c k present claimed =>
      apply uneventful (Aside.refl w).unspoken stays
      rintro i t c l same there
      cases same
      rw [present, Option.some.injEq] at there
      exact there ▸ claimed
    | receiveLocal i t c k present created here =>
      exact history.answered orderly i t c k k.fulfilled present created
        (by simp only [Token.fulfilled, ne_eq, reduceCtorEq, not_false_eq_true]) ⟨rfl, rfl, rfl⟩ _
    | receiveUnavailable i t c k present created apart gone =>
      exact history.answered orderly i t c k k.claimed present created
        (by simp only [Token.claimed, ne_eq, reduceCtorEq, not_false_eq_true]) ⟨rfl, rfl, rfl⟩ _
    | receiveAsked i t c k present created apart source attached =>
      exact history.asked orderly i t c k present created source attached
    | _ => exact absurd (fun i t c k same => by cases same) again
  · cases step with
    | detach i c x present thread => exact history.detached orderly i c x present thread
    | _ => exact absurd (fun i c same => by cases same) stays

/-- Nothing that was done tells which thread runs. -/
theorem History.running (history : History past w) (i : ThreadId) :
    History past { w with here := i } :=
  { history with }

theorem create_history (config : Config) : History [] (.create config) := by
  have noToken : ∀ t, (World.create config).token? t = none := fun t => rfl
  refine ⟨?_, fun _ _ => rfl, ?_, ?_, ?_⟩
  · exact fun t k there => by rw [noToken] at there; cases there
  · rintro thread ⟨r, member, _⟩
    exact absurd member List.not_mem_nil
  · exact fun c member => absurd member List.not_mem_nil
  · exact fun i t k member => absurd member List.not_mem_nil

theorem Run.history {config : Config} {rule : Rule} (run : Run config rule past w) :
    History past w := by
  induction run with
  | start => exact create_history config
  | step m run allowed permitted ih =>
    have orderly := run.orderly
    have step := m.step orderly allowed
    rw [m.perform_eq] at step ⊢
    exact (step.history (ih.running _) (orderly.running _) allowed).running _

end Membrane.Transfer
