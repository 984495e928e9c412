import Mathlib.Algebra.Group.Nat.Defs
import Mathlib.Data.List.Nodup
import Membrane.Proofs.World.View
/-!
What holds of realms, tokens, receivers that wait, posted jobs and replies whatever the threads do.
Each part is told of the functions it is about, so that a change of another one leaves it as it is.
-/

set_option autoImplicit false

namespace Membrane

/-- The token whose request or whose value a job carries. -/
def Job.token? : Job → Option TokenId
  | .serve t => some t
  | .deliver t _ _ _ => some t
  | _ => none

/-- The reply that a job is to send. -/
def Job.reply? : Job → Option ReplyId
  | .deliver _ _ n _ => some n
  | _ => none

namespace Transfer

/-- Realms have the numbers of their threads and are on loops of their owners. -/
structure Housed (place? : RealmId → Option Place) (owner? : LoopId → Option ThreadId)
    (count : Nat) (next : UInt32) : Prop where
  counted : count = next.toNat
  numbered : ∀ r p, place? r = some p → p.thread.val.toNat = r
  inside : ∀ r p, place? r = some p → r < count
  owned : ∀ r p, place? r = some p → owner? p.loop = some p.owner

/-- What is attached is a realm. -/
def Listed (place? : RealmId → Option Place) (attached : List Attachment) : Prop :=
  ∀ a ∈ attached, ∃ p, place? a.realm = some p ∧ p.thread = a.thread ∧ p.loop = a.loop

/-- Tokens come from realms and have numbers of their own. -/
structure Issued (place? : RealmId → Option Place) (token? : TokenId → Option Token)
    (next : Nat) : Prop where
  numbered : ∀ t k, token? t = some k → k.correlation < next
  housed : ∀ t k, token? t = some k → ∃ p, place? k.source.realm = some p ∧ p.thread = k.thread
  distinct : ∀ s t k l, token? s = some k → token? t = some l →
    k.correlation = l.correlation → s = t

/-- Receivers wait for other threads that are attached, each for a token of its own. -/
structure Awaited (attached : List Attachment) (token? : TokenId → Option Token)
    (waiting : List Continuation) : Prop where
  attached : ∀ c ∈ waiting, ∃ a ∈ attached, a.thread = c.source
  apart : ∀ c ∈ waiting, c.source ≠ c.destination
  requested : ∀ c ∈ waiting, ∃ t k, token? t = some k ∧ k.state = .requested ∧
    k.correlation = c.correlation ∧ k.thread = c.source
  once : (waiting.map (·.correlation)).Nodup

/-- A job that is for the thread that is to run it. A value is delivered after its receiver was taken
from those that wait. -/
def Proper (place? : RealmId → Option Place) (token? : TokenId → Option Token)
    (waiting : List Continuation) : ThreadId × Job → Prop
  | (i, .serve t) => ∃ k p, token? t = some k ∧ k.state = .requested ∧
    place? k.source.realm = some p ∧ p.owner = i
  | (i, .deliver t r _ _) => ∃ k p, token? t = some k ∧ k.state = .requested ∧
    (∀ c ∈ waiting, c.correlation ≠ k.correlation) ∧ place? r = some p ∧ p.owner = i
  | (i, .collect r) => ∃ p, place? r = some p ∧ p.owner = i
  | _ => False

/-- No token has two jobs. -/
structure Queued (place? : RealmId → Option Place) (token? : TokenId → Option Token)
    (waiting : List Continuation) (posted : List (ThreadId × Job)) : Prop where
  proper : ∀ p ∈ posted, Proper place? token? waiting p
  once : (posted.filterMap (·.2.token?)).Nodup

/-- The replies that are still to be sent. -/
def expected (waiting : List Continuation) (posted : List (ThreadId × Job)) : List ReplyId :=
  waiting.map (·.reply) ++ posted.filterMap (·.2.reply?)

/-- Each reply that is to be sent has one sender and was not sent. -/
structure Replying (reply? : ReplyId → Option (Channel (Except Fault Handle)))
    (waiting : List Continuation) (posted : List (ThreadId × Job)) : Prop where
  quiet : ∀ n ch, reply? n = some ch → ch.waiter = none
  once : (expected waiting posted).Nodup
  pending : ∀ n ∈ expected waiting posted,
    ∃ ch, reply? n = some ch ∧ (ch.state = .waiting ∨ ch.state = .abandoned)

structure Received (place? : RealmId → Option Place)
    (reply? : ReplyId → Option (Channel (Except Fault Handle)))
    (receive? : ReceiveId → Option Receive) : Prop where
  waits : ∀ id n r l, receive? id = some (.waiting n r l) → ∃ ch, reply? n = some ch
  housed : ∀ id ref, receive? id = some (.ready (some (.ok ref))) → ∃ p, place? ref.realm = some p

structure Orderly (w : World) : Prop where
  housed : Housed w.place? w.owner? w.realms.size w.runtime.nextThread
  registered : w.Registered
  listed : Listed w.place? w.runtime.attached
  issued : Issued w.place? w.token? w.runtime.nextCorrelation
  awaited : Awaited w.runtime.attached w.token? w.runtime.waiting
  queued : Queued w.place? w.token? w.runtime.waiting w.posted
  replying : Replying w.reply? w.runtime.waiting w.posted
  received : Received w.place? w.reply? w.receive?

variable {place? : RealmId → Option Place} {owner? : LoopId → Option ThreadId}
  {token? : TokenId → Option Token} {reply? : ReplyId → Option (Channel (Except Fault Handle))}
  {receive? : ReceiveId → Option Receive} {attached : List Attachment}
  {waiting : List Continuation} {posted : List (ThreadId × Job)} {w : World}

theorem Queued.perm (queued : Queued place? token? waiting posted)
    (posted' : List (ThreadId × Job)) (same : posted'.Perm posted) :
    Queued place? token? waiting posted' := by
  refine ⟨fun p member => queued.proper p (same.mem_iff.mp member), ?_⟩
  exact (same.filterMap _).nodup_iff.mpr queued.once

theorem expected_perm (waiting : List Continuation) (posted' : List (ThreadId × Job))
    (same : posted'.Perm posted) :
    (expected waiting posted').Perm (expected waiting posted) :=
  (same.filterMap _).append_left _

theorem Replying.perm (replying : Replying reply? waiting posted)
    (posted' : List (ThreadId × Job)) (same : posted'.Perm posted) :
    Replying reply? waiting posted' := by
  have alike := expected_perm waiting posted' same
  refine ⟨replying.quiet, alike.nodup_iff.mpr replying.once, fun n member => ?_⟩
  exact replying.pending n (alike.mem_iff.mp member)

/-- A job that is there for a token is not alone if a job for the token is added. -/
theorem Queued.post (queued : Queued place? token? waiting posted) (p : ThreadId × Job)
    (proper : Proper place? token? waiting p)
    (alone : ∀ t, p.2.token? = some t → ∀ q ∈ posted, q.2.token? ≠ some t) :
    Queued place? token? waiting (p :: posted) := by
  refine ⟨?_, ?_⟩
  · intro q member
    rcases List.mem_cons.mp member with rfl | old
    · exact proper
    · exact queued.proper q old
  · rw [List.filterMap_cons]
    split
    · exact queued.once
    · next t carried =>
      refine List.nodup_cons.mpr ⟨?_, queued.once⟩
      rw [List.mem_filterMap]
      rintro ⟨q, old, same⟩
      exact alone t carried q old same

theorem Queued.tail (p : ThreadId × Job)
    (queued : Queued place? token? waiting (p :: posted)) :
    Queued place? token? waiting posted ∧
      ∀ t, p.2.token? = some t → ∀ q ∈ posted, q.2.token? ≠ some t := by
  have once := queued.once
  rw [List.filterMap_cons] at once
  refine ⟨⟨fun q old => queued.proper q (List.mem_cons_of_mem p old), ?_⟩, ?_⟩
  · split at once
    · exact once
    · exact (List.nodup_cons.mp once).2
  · intro t carried q old same
    rw [carried] at once
    exact (List.nodup_cons.mp once).1 (List.mem_filterMap.mpr ⟨q, old, same⟩)

/-- What a change of realms and tokens leaves of a job. -/
theorem Proper.mono (place?' : RealmId → Option Place) (token?' : TokenId → Option Token)
    (waiting' : List Continuation) (p : ThreadId × Job)
    (proper : Proper place? token? waiting p)
    (places : ∀ r q, place? r = some q → place?' r = some q)
    (tokens : ∀ t k, p.2.token? = some t → token? t = some k → k.state = .requested →
      ∃ l, token?' t = some l ∧ l.state = .requested ∧ l.source = k.source ∧
        l.correlation = k.correlation)
    (fewer : ∀ t k, p.2.token? = some t → token? t = some k → ∀ c ∈ waiting',
      c.correlation = k.correlation → c ∈ waiting) :
    Proper place?' token?' waiting' p := by
  obtain ⟨i, job⟩ := p
  cases job with
  | serve t =>
    obtain ⟨k, q, present, requested, there, owner⟩ := proper
    obtain ⟨l, present', requested', source, _⟩ := tokens t k rfl present requested
    exact ⟨l, q, present', requested', by rw [source]; exact places _ q there, owner⟩
  | deliver t r n outcome =>
    obtain ⟨k, q, present, requested, taken, there, owner⟩ := proper
    obtain ⟨l, present', requested', _, correlation⟩ := tokens t k rfl present requested
    refine ⟨l, q, present', requested', ?_, places r q there, owner⟩
    intro c member same
    rw [correlation] at same
    exact taken c (fewer t k rfl present c member same) same
  | collect r =>
    obtain ⟨q, there, owner⟩ := proper
    exact ⟨q, places r q there, owner⟩
  | script | line | poll | fireSleeper | react | settle => exact proper.elim

/-- A token changes in its state and its copies only. -/
structure Alike (k l : Token) : Prop where
  source : l.source = k.source
  thread : l.thread = k.thread
  correlation : l.correlation = k.correlation

theorem Alike.refl (k : Token) : Alike k k := ⟨rfl, rfl, rfl⟩

theorem Alike.trans {k l : Token} (first : Alike k l) (m : Token) (second : Alike l m) :
    Alike k m :=
  ⟨second.source.trans first.source, second.thread.trans first.thread,
    second.correlation.trans first.correlation⟩

section

variable {ι α : Type} [DecidableEq ι] {f : ι → Option α} {i j : ι} {a b : α}

/-- What was there stays there when something comes where nothing was. -/
theorem update_of_free (free : f i = none) (a : α) (there : f j = some b) :
    Function.update f i (some a) j = some b := by
  have apart : j ≠ i := by
    rintro rfl
    rw [free] at there
    cases there
  rw [Function.update_of_ne apart, there]

theorem of_update_eq_some (there : Function.update f i (some a) j = some b) :
    (j = i ∧ b = a) ∨ (j ≠ i ∧ f j = some b) := by
  rw [Function.update_apply] at there
  split at there
  · next same => exact .inl ⟨same, (Option.some.inj there).symm⟩
  · next apart => exact .inr ⟨apart, there⟩

variable {R : α → α → Prop} {a' : α}

/-- After a change of one thing everything that was there is still there, in some relation. -/
theorem exists_update (refl : ∀ a, R a a) (present : f i = some a) (related : R a a')
    (there : f j = some b) : ∃ b', Function.update f i (some a') j = some b' ∧ R b b' := by
  rw [Function.update_apply]
  split
  · next same =>
    rw [same, present, Option.some.injEq] at there
    exact ⟨a', rfl, there ▸ related⟩
  · exact ⟨b, there, refl b⟩

/-- After a change of one thing nothing is there that was not there before, in some relation. -/
theorem exists_of_update (refl : ∀ a, R a a) (present : f i = some a) (related : R a a')
    (there : Function.update f i (some a') j = some b) : ∃ b', f j = some b' ∧ R b' b := by
  obtain ⟨rfl, rfl⟩ | ⟨-, former⟩ := of_update_eq_some there
  · exact ⟨a, present, related⟩
  · exact ⟨b, former, refl b⟩

end

/-- A realm comes under the next number, on a loop of its owner. -/
theorem Housed.push {count : Nat} {next : UInt32} (housed : Housed place? owner? count next)
    (p : Place) (few : count + 1 < 2 ^ 32) (thread : p.thread = ⟨next⟩)
    (owner : owner? p.loop = some p.owner) :
    Housed (Function.update place? count (some p)) owner? (count + 1) (next + 1) where
  counted := by
    have counted := housed.counted
    rw [UInt32.toNat_add, UInt32.toNat_one, Nat.mod_eq_of_lt (by omega), counted]
  numbered r q there := by
    obtain ⟨rfl, rfl⟩ | ⟨_, there⟩ := of_update_eq_some there
    · rw [thread, housed.counted]
    · exact housed.numbered r q there
  inside r q there := by
    obtain ⟨rfl, rfl⟩ | ⟨_, there⟩ := of_update_eq_some there
    · exact Nat.lt_succ_self r
    · exact Nat.lt_succ_of_lt (housed.inside r q there)
  owned r q there := by
    obtain ⟨rfl, rfl⟩ | ⟨_, there⟩ := of_update_eq_some there
    · exact owner
    · exact housed.owned r q there

/-- A token comes with a number that none had before. -/
theorem Issued.insert {next : Nat} (issued : Issued place? token? next) (t : TokenId) (k : Token)
    (number : k.correlation < next)
    (fresh : ∀ s l, token? s = some l → l.correlation ≠ k.correlation) (p : Place)
    (there : place? k.source.realm = some p) (thread : p.thread = k.thread) :
    Issued place? (Function.update token? t (some k)) next where
  numbered s l present := by
    obtain ⟨-, rfl⟩ | ⟨-, former⟩ := of_update_eq_some present
    · exact number
    · exact issued.numbered s l former
  housed s l present := by
    obtain ⟨-, rfl⟩ | ⟨-, former⟩ := of_update_eq_some present
    · exact ⟨p, there, thread⟩
    · exact issued.housed s l former
  distinct r s l m presentR presentS same := by
    obtain ⟨rfl, rfl⟩ | ⟨-, formerR⟩ := of_update_eq_some presentR
    · obtain ⟨rfl, -⟩ | ⟨-, formerS⟩ := of_update_eq_some presentS
      · rfl
      · exact absurd same.symm (fresh s m formerS)
    · obtain ⟨-, rfl⟩ | ⟨-, formerS⟩ := of_update_eq_some presentS
      · exact absurd same (fresh r l formerR)
      · exact issued.distinct r s l m formerR formerS same

theorem Issued.mono {next : Nat} (issued : Issued place? token? next)
    (place?' : RealmId → Option Place) (token?' : TokenId → Option Token) (next' : Nat)
    (places : ∀ r p, place? r = some p → place?' r = some p)
    (tokens : ∀ t k, token?' t = some k → ∃ k', token? t = some k' ∧ Alike k' k)
    (later : next ≤ next') : Issued place?' token?' next' where
  numbered t k present := by
    obtain ⟨k', former, alike⟩ := tokens t k present
    rw [alike.correlation]
    exact Nat.lt_of_lt_of_le (issued.numbered t k' former) later
  housed t k present := by
    obtain ⟨k', former, alike⟩ := tokens t k present
    obtain ⟨p, there, thread⟩ := issued.housed t k' former
    exact ⟨p, by rw [alike.source]; exact places _ p there, by rw [alike.thread, thread]⟩
  distinct s t k l presentS presentT same := by
    obtain ⟨k', formerS, alikeS⟩ := tokens s k presentS
    obtain ⟨l', formerT, alikeT⟩ := tokens t l presentT
    apply issued.distinct s t k' l' formerS formerT
    rw [← alikeS.correlation, ← alikeT.correlation, same]

theorem Awaited.mono (awaited : Awaited attached token? waiting) (attached' : List Attachment)
    (token?' : TokenId → Option Token) (waiting' : List Continuation)
    (fewer : waiting'.Sublist waiting)
    (stays : ∀ c ∈ waiting', ∃ a ∈ attached', a.thread = c.source)
    (tokens : ∀ t k, token? t = some k → k.state = .requested →
      (∃ c ∈ waiting', c.correlation = k.correlation) →
      ∃ l, token?' t = some l ∧ l.state = .requested ∧ Alike k l) :
    Awaited attached' token?' waiting' where
  attached := stays
  apart c member := awaited.apart c (fewer.subset member)
  requested c member := by
    obtain ⟨t, k, present, requested, correlation, thread⟩ :=
      awaited.requested c (fewer.subset member)
    obtain ⟨l, present', requested', alike⟩ :=
      tokens t k present requested ⟨c, member, correlation.symm⟩
    exact ⟨t, l, present', requested', by rw [alike.correlation, correlation],
      by rw [alike.thread, thread]⟩
  once := (fewer.map _).nodup awaited.once

/-- One more receiver waits, for a token that nobody waits for. -/
theorem Awaited.append (awaited : Awaited attached token? waiting) (c : Continuation)
    (there : ∃ a ∈ attached, a.thread = c.source) (apart : c.source ≠ c.destination)
    (requested : ∃ t k, token? t = some k ∧ k.state = .requested ∧
      k.correlation = c.correlation ∧ k.thread = c.source)
    (alone : ∀ d ∈ waiting, d.correlation ≠ c.correlation) :
    Awaited attached token? (waiting ++ [c]) where
  attached := List.forall_mem_append.mpr
    ⟨awaited.attached, List.forall_mem_singleton.mpr there⟩
  apart := List.forall_mem_append.mpr ⟨awaited.apart, List.forall_mem_singleton.mpr apart⟩
  requested := List.forall_mem_append.mpr
    ⟨awaited.requested, List.forall_mem_singleton.mpr requested⟩
  once := by
    simp only [List.map_append, List.map_cons, List.map_nil]
    refine List.nodup_append.mpr ⟨awaited.once, List.nodup_singleton _, ?_⟩
    rintro a former b new rfl
    obtain ⟨d, member, same⟩ := List.mem_map.mp former
    exact alone d member (same.trans (List.mem_singleton.mp new))

theorem Queued.mono (queued : Queued place? token? waiting posted)
    (place?' : RealmId → Option Place) (token?' : TokenId → Option Token)
    (waiting' : List Continuation)
    (places : ∀ r q, place? r = some q → place?' r = some q)
    (tokens : ∀ t k, (∃ p ∈ posted, p.2.token? = some t) → token? t = some k →
      k.state = .requested → ∃ l, token?' t = some l ∧ l.state = .requested ∧ Alike k l)
    (fewer : ∀ t k, (∃ p ∈ posted, p.2.token? = some t) → token? t = some k → ∀ c ∈ waiting',
      c.correlation = k.correlation → c ∈ waiting) :
    Queued place?' token?' waiting' posted := by
  refine ⟨fun p member => ?_, queued.once⟩
  refine (queued.proper p member).mono place?' token?' waiting' p places ?_ ?_
  · intro t k carried present requested
    obtain ⟨l, present', requested', alike⟩ := tokens t k ⟨p, member, carried⟩ present requested
    exact ⟨l, present', requested', alike.source, alike.correlation⟩
  · intro t k carried present
    exact fewer t k ⟨p, member, carried⟩ present

theorem Replying.mono (replying : Replying reply? waiting posted) (waiting' : List Continuation)
    (fewer : waiting'.Sublist waiting) : Replying reply? waiting' posted := by
  have part : (expected waiting' posted).Sublist (expected waiting posted) :=
    (fewer.map _).append_right _
  exact ⟨replying.quiet, part.nodup replying.once,
    fun n member => replying.pending n (part.subset member)⟩

theorem Received.mono (received : Received place? reply? receive?)
    (place?' : RealmId → Option Place)
    (reply?' : ReplyId → Option (Channel (Except Fault Handle)))
    (places : ∀ r p, place? r = some p → place?' r = some p)
    (replies : ∀ n ch, reply? n = some ch → ∃ ch', reply?' n = some ch') :
    Received place?' reply?' receive? where
  waits id n r l there := by
    obtain ⟨ch, present⟩ := received.waits id n r l there
    exact replies n ch present
  housed id ref there := by
    obtain ⟨p, home⟩ := received.housed id ref there
    exact ⟨p, places _ p home⟩

theorem Received.update_reply (received : Received place? reply? receive?) (n : ReplyId)
    (ch : Channel (Except Fault Handle)) :
    Received place? (Function.update reply? n (some ch)) receive? := by
  refine received.mono _ _ (fun _ _ there => there) fun m c present => ?_
  rw [Function.update_apply]
  split
  · exact ⟨ch, rfl⟩
  · exact ⟨c, present⟩

/-- A receive says nothing that was not known before, apart from the one that changes. -/
theorem Received.update (received : Received place? reply? receive?) (id : ReceiveId)
    (x : Option Receive) (waits : ∀ n r l, x = some (.waiting n r l) → ∃ ch, reply? n = some ch)
    (housed : ∀ ref, x = some (.ready (some (.ok ref))) → ∃ p, place? ref.realm = some p) :
    Received place? reply? (Function.update receive? id x) where
  waits m n r l there := by
    rw [Function.update_apply] at there
    split at there
    · exact waits n r l there
    · exact received.waits m n r l there
  housed m ref there := by
    rw [Function.update_apply] at there
    split at there
    · exact housed ref there
    · exact received.housed m ref there

/-- A token that no job and no receiver is about. -/
def Idle (waiting : List Continuation) (posted : List (ThreadId × Job)) (t : TokenId)
    (k : Token) : Prop :=
  (∀ c ∈ waiting, c.correlation ≠ k.correlation) ∧ ∀ p ∈ posted, p.2.token? ≠ some t

/-- Nothing is under way for a token that nobody received. -/
theorem Orderly.idle_of_unclaimed (orderly : Orderly w) (t : TokenId) (k : Token)
    (present : w.token? t = some k) (unclaimed : k.state ≠ .requested) :
    Idle w.runtime.waiting w.posted t k := by
  refine ⟨?_, ?_⟩
  · intro c member same
    obtain ⟨s, l, there, requested, correlation, _⟩ := orderly.awaited.requested c member
    have one := orderly.issued.distinct s t l k there present (correlation.trans same)
    rw [one, present, Option.some.injEq] at there
    exact unclaimed (there ▸ requested)
  · rintro ⟨i, job⟩ member carried
    have proper := orderly.queued.proper _ member
    cases job with
    | serve s =>
      obtain ⟨l, _, there, requested, _⟩ := proper
      rw [Option.some.inj carried, present, Option.some.injEq] at there
      exact unclaimed (there ▸ requested)
    | deliver s =>
      obtain ⟨l, _, there, requested, _⟩ := proper
      rw [Option.some.inj carried, present, Option.some.injEq] at there
      exact unclaimed (there ▸ requested)
    | script | line | poll | fireSleeper | collect | react | settle => cases carried

/-- A token may go on if nothing is under way for it, or if it stays requested. -/
theorem Orderly.withToken (orderly : Orderly w) (t : TokenId) (k l : Token)
    (present : w.token? t = some k) (alike : Alike k l)
    (safe : l.state = .requested ∨ Idle w.runtime.waiting w.posted t k) :
    Orderly (w.withToken t l) := by
  have tokens := w.token?_withToken t k l present
  have kept : ∀ s m, w.token? s = some m → m.state = .requested →
      (s = t → ¬ Idle w.runtime.waiting w.posted t k) →
      ∃ m', Function.update w.token? t (some l) s = some m' ∧ m'.state = .requested ∧
        Alike m m' := by
    intro s m there requested busy
    by_cases same : s = t
    · subst same
      rw [present, Option.some.injEq] at there
      subst there
      exact ⟨l, Function.update_self .., safe.resolve_right (busy rfl), alike⟩
    · exact ⟨m, by rw [Function.update_of_ne same]; exact there, requested, .refl m⟩
  refine { orderly with issued := ?_, awaited := ?_, queued := ?_ }
  · rw [tokens]
    exact orderly.issued.mono _ _ _ (fun _ _ there => there)
      (fun _ _ => exists_of_update Alike.refl present alike) (Nat.le_refl _)
  · rw [tokens]
    apply orderly.awaited.mono _ _ _ (.refl _) orderly.awaited.attached
    rintro s m there requested ⟨c, member, same⟩
    apply kept s m there requested
    rintro rfl idle
    rw [present, Option.some.injEq] at there
    exact idle.1 c member (there ▸ same)
  · rw [tokens]
    refine orderly.queued.mono _ _ _ (fun _ _ there => there) ?_ (fun _ _ _ _ _ member _ => member)
    rintro s m ⟨p, member, carried⟩ there requested
    apply kept s m there requested
    rintro rfl idle
    exact idle.2 p member carried

/-- The table of a realm is free to change. -/
theorem Orderly.withRealm (orderly : Orderly w) (r : RealmId) (x y : Realm)
    (present : w.realms[r]? = some x) (same : y.place = x.place) : Orderly (w.withRealm r y) := by
  have places := w.place?_withRealm r x y present same
  have count : (w.withRealm r y).realms.size = w.realms.size := Array.size_setIfInBounds
  refine { orderly with housed := ?_, listed := ?_, issued := ?_, queued := ?_, received := ?_ }
  · rw [places, count]
    exact orderly.housed
  · rw [places]
    exact orderly.listed
  · rw [places]
    exact orderly.issued
  · rw [places]
    exact orderly.queued
  · rw [places]
    exact orderly.received

/-- Receivers may stop to wait, and threads to be attached that nobody waits for. -/
theorem Orderly.withRuntime (orderly : Orderly w) (runtime : Runtime)
    (attached : runtime.attached.Sublist w.runtime.attached)
    (waiting : runtime.waiting.Sublist w.runtime.waiting)
    (stays : ∀ c ∈ runtime.waiting, ∃ a ∈ runtime.attached, a.thread = c.source)
    (executors : runtime.executors.Sublist w.runtime.executors)
    (nextThread : runtime.nextThread = w.runtime.nextThread)
    (nextCorrelation : w.runtime.nextCorrelation ≤ runtime.nextCorrelation) :
    Orderly { w with runtime } where
  housed := by
    have housed := orderly.housed
    rw [← nextThread] at housed
    exact housed
  registered p member := orderly.registered p (executors.subset member)
  listed a member := orderly.listed a (attached.subset member)
  issued := orderly.issued.mono _ _ _ (fun _ _ there => there)
    (fun _ k there => ⟨k, there, .refl k⟩) nextCorrelation
  awaited := orderly.awaited.mono _ _ _ waiting stays
    fun _ k there requested _ => ⟨k, there, requested, .refl k⟩
  queued := orderly.queued.mono _ _ _ (fun _ _ there => there)
    (fun _ k _ there requested => ⟨k, there, requested, .refl k⟩)
    (fun _ _ _ _ c member _ => waiting.subset member)
  replying := orderly.replying.mono _ waiting
  received := orderly.received

/-- A new token has a number that none had before. -/
theorem Orderly.issued_token (orderly : Orderly w) (k : Token) (p : Place)
    (number : k.correlation < w.runtime.nextCorrelation)
    (fresh : ∀ t l, w.token? t = some l → l.correlation ≠ k.correlation)
    (there : w.place? k.source.realm = some p) (thread : p.thread = k.thread) :
    Orderly (w.issued k) := by
  have tokens := w.token?_issued k
  have old (t : TokenId) (l : Token) (present : w.token? t = some l) :=
    update_of_free w.token?_size k present
  refine { orderly with issued := ?_, awaited := ?_, queued := ?_ }
  · rw [tokens]
    exact orderly.issued.insert _ k number fresh p there thread
  · rw [tokens]
    exact orderly.awaited.mono _ _ _ (.refl _) orderly.awaited.attached
      fun t l present requested _ => ⟨l, old t l present, requested, .refl l⟩
  · rw [tokens]
    exact orderly.queued.mono _ _ _ (fun _ _ there => there)
      (fun t l _ present requested => ⟨l, old t l present, requested, .refl l⟩)
      (fun _ _ _ _ _ member _ => member)

theorem expected_append (waiting : List Continuation) (posted : List (ThreadId × Job))
    (c : Continuation) :
    (expected (waiting ++ [c]) posted).Perm (c.reply :: expected waiting posted) := by
  simp only [expected, List.map_append, List.map_cons, List.map_nil, List.append_assoc]
  exact List.perm_middle

/-- One more receiver waits, for a reply that was not made before. -/
theorem Replying.append (replying : Replying reply? waiting posted) (c : Continuation)
    (new : reply? c.reply = none) :
    Replying (Function.update reply? c.reply (some .create)) (waiting ++ [c]) posted := by
  have more := expected_append waiting posted c
  have apart : c.reply ∉ expected waiting posted := by
    intro member
    obtain ⟨ch, present, _⟩ := replying.pending _ member
    rw [new] at present
    cases present
  refine
    { quiet := fun n ch there => ?_
      once := more.nodup_iff.mpr (List.nodup_cons.mpr ⟨apart, replying.once⟩)
      pending := fun n member => ?_ }
  · obtain ⟨-, rfl⟩ | ⟨-, there⟩ := of_update_eq_some there
    · rfl
    · exact replying.quiet n ch there
  · rcases List.mem_cons.mp (more.mem_iff.mp member) with rfl | old
    · exact ⟨.create, Function.update_self .., .inl rfl⟩
    · obtain ⟨ch, there, pending⟩ := replying.pending n old
      exact ⟨ch, update_of_free new _ there, pending⟩

/-- A reply may change as long as it can still be sent if it is to be. -/
theorem Replying.update (replying : Replying reply? waiting posted) (n : ReplyId)
    (ch : Channel (Except Fault Handle)) (quiet : ch.waiter = none)
    (safe : n ∈ expected waiting posted → ch.state = .waiting ∨ ch.state = .abandoned) :
    Replying (Function.update reply? n (some ch)) waiting posted where
  quiet m c there := by
    obtain ⟨-, rfl⟩ | ⟨-, there⟩ := of_update_eq_some there
    · exact quiet
    · exact replying.quiet m c there
  once := replying.once
  pending m member := by
    by_cases same : m = n
    · subst same
      exact ⟨ch, Function.update_self .., safe member⟩
    · obtain ⟨c, there, pending⟩ := replying.pending m member
      exact ⟨c, by rw [Function.update_of_ne same, there], pending⟩

/-- A receiver may wait for a token that was just claimed. -/
theorem Orderly.expecting (orderly : Orderly w) (t : TokenId) (k : Token)
    (present : w.token? t = some k) (requested : k.state = .requested)
    (idle : Idle w.runtime.waiting w.posted t k) (c : Continuation)
    (reply : c.reply = w.replies.size) (correlation : c.correlation = k.correlation)
    (source : c.source = k.thread) (apart : c.source ≠ c.destination)
    (attached : ∃ a ∈ w.runtime.attached, a.thread = c.source) : Orderly (w.expecting c) := by
  have new : w.reply? c.reply = none := by rw [reply, w.reply?_size]
  have replies : (w.expecting c).reply? = Function.update w.reply? c.reply (some .create) := by
    rw [w.reply?_expecting c, reply]
  refine { orderly with awaited := ?_, queued := ?_, replying := ?_, received := ?_ }
  · refine orderly.awaited.append c attached apart
      ⟨t, k, present, requested, correlation.symm, source.symm⟩ fun d member => ?_
    rw [correlation]
    exact idle.1 d member
  · refine orderly.queued.mono _ _ _ (fun _ _ there => there)
      (fun _ l _ there requested => ⟨l, there, requested, .refl l⟩) ?_
    -- The new receiver waits for a token that no job is about.
    rintro s l ⟨p, posted, carried⟩ there d member same
    rcases List.mem_append.mp member with old | new
    · exact old
    · rw [List.mem_singleton.mp new, correlation] at same
      have one := orderly.issued.distinct s t l k there present same.symm
      exact absurd carried (one ▸ idle.2 p posted)
  · rw [replies]
    exact orderly.replying.append c new
  · rw [replies]
    exact orderly.received.update_reply _ _

/-- A reply may change that nobody is to send any more, or that nobody reads any more. -/
theorem Orderly.withReply (orderly : Orderly w) (n : ReplyId) (ch : Channel (Except Fault Handle))
    (present : w.reply? n = some ch)
    (f : Channel (Except Fault Handle) → Channel (Except Fault Handle))
    (quiet : (f ch).waiter = none)
    (safe : n ∈ expected w.runtime.waiting w.posted →
      (f ch).state = .waiting ∨ (f ch).state = .abandoned) : Orderly (w.withReply n f) := by
  have replies := w.reply?_withReply n ch present f
  refine { orderly with replying := ?_, received := ?_ }
  · rw [replies]
    exact orderly.replying.update n (f ch) quiet safe
  · rw [replies]
    exact orderly.received.update_reply n _

theorem expected_cons (waiting : List Continuation) (posted : List (ThreadId × Job))
    (p : ThreadId × Job) :
    (expected waiting (p :: posted)).Perm (p.2.reply?.toList ++ expected waiting posted) := by
  simp only [expected, List.filterMap_cons]
  cases p.2.reply? with
  | none => exact .refl _
  | some n => exact List.perm_middle

theorem Replying.post (replying : Replying reply? waiting posted) (p : ThreadId × Job)
    (sender : ∀ n, p.2.reply? = some n → n ∉ expected waiting posted ∧
      ∃ ch, reply? n = some ch ∧ (ch.state = .waiting ∨ ch.state = .abandoned)) :
    Replying reply? waiting (p :: posted) := by
  have more := expected_cons waiting posted p
  refine ⟨replying.quiet, more.nodup_iff.mpr ?_, fun n member => ?_⟩
  · have single : p.2.reply?.toList.Nodup := by
      cases p.2.reply? with
      | none => exact List.nodup_nil
      | some n => exact List.nodup_singleton n
    refine List.nodup_append.mpr ⟨single, replying.once, ?_⟩
    rintro n new m old rfl
    exact (sender n (Option.mem_toList.mp new)).1 old
  · rcases List.mem_append.mp (more.mem_iff.mp member) with new | old
    · exact (sender n (Option.mem_toList.mp new)).2
    · exact replying.pending n old

theorem Replying.tail (p : ThreadId × Job) (replying : Replying reply? waiting (p :: posted)) :
    Replying reply? waiting posted ∧
      ∀ n, p.2.reply? = some n → n ∉ expected waiting posted ∧
        ∃ ch, reply? n = some ch ∧ (ch.state = .waiting ∨ ch.state = .abandoned) := by
  have more := expected_cons waiting posted p
  obtain ⟨_, once, apart⟩ := List.nodup_append.mp (more.nodup_iff.mp replying.once)
  refine ⟨⟨replying.quiet, once, fun n old => ?_⟩, fun n carried => ⟨fun old => ?_, ?_⟩⟩
  · exact replying.pending n (more.mem_iff.mpr (List.mem_append_right _ old))
  · exact apart n (Option.mem_toList.mpr carried) n old rfl
  · exact replying.pending n
      (more.mem_iff.mpr (List.mem_append_left _ (Option.mem_toList.mpr carried)))

/-- A job may be posted to the thread that is to run it, if its token has no job and its reply no
other sender. -/
theorem Orderly.post (orderly : Orderly w) (l : LoopId) (job : Job) (i : ThreadId)
    (owner : w.owner? l = some i) (proper : Proper w.place? w.token? w.runtime.waiting (i, job))
    (alone : ∀ t, job.token? = some t → ∀ p ∈ w.posted, p.2.token? ≠ some t)
    (sender : ∀ n, job.reply? = some n → n ∉ expected w.runtime.waiting w.posted ∧
      ∃ ch, w.reply? n = some ch ∧ (ch.state = .waiting ∨ ch.state = .abandoned)) :
    Orderly (w.post l job) := by
  have posted := w.posted_post l job i owner
  have owners := w.owner?_post l job
  refine { orderly with housed := ?_, queued := ?_, replying := ?_ }
  · rw [owners]
    exact orderly.housed
  · exact (orderly.queued.post (i, job) proper alone).perm _ posted
  · exact (orderly.replying.post (i, job) sender).perm _ posted

/-- What a loop is told besides jobs does not matter. -/
theorem Orderly.withQueue (orderly : Orderly w) (l : LoopId) (f : EventLoop Job → EventLoop Job)
    (kept : ∀ q, (f q).owner = q.owner ∧ (f q).microtasks = q.microtasks ∧ (f q).inbox = q.inbox) :
    Orderly (w.withQueue l f) := by
  have posted := w.posted_withQueue_of_kept l f kept
  have owners := w.owner?_withQueue l f fun c _ => (kept c.queue).1
  refine { orderly with
    housed := ?_
    queued := orderly.queued.perm _ posted
    replying := orderly.replying.perm _ posted }
  rw [owners]
  exact orderly.housed

/-- What is known of a job that is taken from a loop. -/
structure Taken (w : World) (i : ThreadId) (job : Job) : Prop where
  proper : Proper w.place? w.token? w.runtime.waiting (i, job)
  alone : ∀ t, job.token? = some t → ∀ p ∈ w.posted, p.2.token? ≠ some t
  sender : ∀ n, job.reply? = some n → n ∉ expected w.runtime.waiting w.posted ∧
    ∃ ch, w.reply? n = some ch ∧ (ch.state = .waiting ∨ ch.state = .abandoned)

theorem Orderly.next (orderly : Orderly w) (l : LoopId) (i : ThreadId)
    (owner : w.owner? l = some i) (job : Job) (w' : World) (next : w.next? l = some (job, w')) :
    Orderly w' ∧ Taken w' i job := by
  obtain ⟨posted, owners, q, rfl⟩ := w.posted_next l i owner job w' next
  obtain ⟨queued, alone⟩ := (orderly.queued.perm _ posted.symm).tail
  obtain ⟨replying, sender⟩ := (orderly.replying.perm _ posted.symm).tail
  have proper := orderly.queued.proper (i, job) (posted.mem_iff.mpr List.mem_cons_self)
  refine ⟨{ orderly with housed := ?_, queued, replying }, proper, alone, sender⟩
  rw [owners]
  exact orderly.housed

theorem Orderly.receiving (orderly : Orderly w) (x : Receive)
    (waits : ∀ n r l, x = .waiting n r l → ∃ ch, w.reply? n = some ch)
    (housed : ∀ ref, x = .ready (some (.ok ref)) → ∃ p, w.place? ref.realm = some p) :
    Orderly (w.receiving x) := by
  refine { orderly with received := ?_ }
  rw [w.receive?_receiving x]
  exact orderly.received.update _ _ (fun n r l same => waits n r l (Option.some.inj same))
    fun ref same => housed ref (Option.some.inj same)

/-- A receive that is let go, or that has given its answer, says nothing. -/
theorem Orderly.withReceive (orderly : Orderly w) (id : ReceiveId) (x : Receive)
    (present : w.receive? id = some x) (y : Option Receive)
    (spent : y = none ∨ y = some (.ready none)) : Orderly (w.withReceive id y) := by
  refine { orderly with received := ?_ }
  rw [w.receive?_withReceive id x present y]
  refine orderly.received.update id y ?_ ?_
  · rintro n r l rfl
    rcases spent with other | other <;> cases other
  · rintro ref rfl
    rcases spent with other | other <;> cases other

/-- A realm joins under the next number, on a loop of its owner. -/
theorem Orderly.joined (orderly : Orderly w) (x : Realm) (l : LoopId)
    (few : w.realms.size + 1 < 2 ^ 32) (thread : x.thread = ⟨w.runtime.nextThread⟩)
    (loop : x.loop = l) (owner : w.owner? l = some x.owner) : Orderly (w.joined x l) := by
  subst loop
  have places := w.place?_joined x x.loop
  have count : (w.joined x x.loop).realms.size = w.realms.size + 1 := Array.size_push _
  have old (r : RealmId) (p : Place) (there : w.place? r = some p) :=
    update_of_free w.place?_size x.place there
  refine
    { orderly with
      housed := ?_, listed := ?_, issued := ?_, awaited := ?_, queued := ?_, received := ?_ }
  · rw [places, count]
    exact orderly.housed.push x.place few thread owner
  · rw [places]
    refine List.forall_mem_append.mpr ⟨fun a former => ?_, List.forall_mem_singleton.mpr ?_⟩
    · obtain ⟨p, there, same⟩ := orderly.listed a former
      exact ⟨p, old _ p there, same⟩
    · exact ⟨x.place, Function.update_self .., thread, rfl⟩
  · rw [places]
    exact orderly.issued.mono _ _ _ old (fun _ k there => ⟨k, there, .refl k⟩) (Nat.le_refl _)
  · refine orderly.awaited.mono _ _ _ (.refl _) ?_
      fun _ k there requested _ => ⟨k, there, requested, .refl k⟩
    intro c member
    obtain ⟨a, former, same⟩ := orderly.awaited.attached c member
    exact ⟨a, List.mem_append_left _ former, same⟩
  · rw [places]
    exact orderly.queued.mono _ _ _ old (fun _ k _ there requested => ⟨k, there, requested, .refl k⟩)
      (fun _ _ _ _ _ member _ => member)
  · rw [places]
    exact orderly.received.mono _ _ old fun _ ch present => ⟨ch, present⟩

/-- It does not matter who is running. -/
theorem Orderly.running (orderly : Orderly w) (i : ThreadId) : Orderly { w with here := i } :=
  { orderly with }

end Transfer

end Membrane
