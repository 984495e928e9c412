import Membrane.Proofs.Transfer.Departure
/-!
When a move is a misuse of the protocol. A second receive of a token is one. So is a request that is
served after the thread of its receiver was detached, although its receiver did nothing wrong.
-/

set_option autoImplicit false

namespace Membrane.Transfer

variable {w : World} {past : List Record} {m : Move} {outcome : Except Halt Answer} {w' : World}
  {x : Misuse}

/-- Somebody receives a token that was received before. -/
def SecondReceive (past : List Record) (w : World) (m : Move) (x : Misuse) : Prop :=
  ∃ i t c k, m = .receive i t c ∧ w.token? t = some k ∧ receiver? t past ≠ none ∧
    x = .doubleReceive k.correlation

/-- The source of a token, still attached, comes to a request whose receiver was detached while it
waited. -/
def StrayRequest (past : List Record) (w : World) (m : Move) (x : Misuse) : Prop :=
  ∃ l t v k, m = .turn l ∧ w.next? l = some (.serve t, v) ∧ w.token? t = some k ∧
    w.runtime.isAttached k.thread = true ∧ Deserted t past ∧
    x = .unregisteredContinuation k.correlation

theorem History.requested_iff (history : History past w) (t : TokenId) (k : Token)
    (present : w.token? t = some k) : k.state ≠ .created ↔ receiver? t past ≠ none :=
  not_congr (history.unclaimed t k present)

/-- Nobody waits any longer for a token that was deserted. -/
theorem History.free_of_deserted (history : History past w) (orderly : Orderly w) (t : TokenId)
    (k : Token) (present : w.token? t = some k) (deserted : Deserted t past) :
    w.runtime.waiting.find? (·.correlation == k.correlation) = none := by
  refine List.find?_eq_none.mpr fun c member same => ?_
  obtain ⟨s, l, d, there, correlation, _, _, stays⟩ := history.awaited c member
  have number : l.correlation = k.correlation := correlation.trans (beq_iff_eq.mp same)
  obtain rfl := orderly.issued.distinct s t l k there present number
  exact stays deserted

/-- A posted request whose source is attached was deserted if nobody waits for it. -/
theorem History.deserted_of_free (history : History past w) (i : ThreadId) (t : TokenId)
    (k : Token) (present : w.token? t = some k) (posted : (i, .serve t) ∈ w.posted)
    (attached : w.runtime.isAttached k.thread = true)
    (free : w.runtime.waiting.find? (·.correlation == k.correlation) = none) :
    Deserted t past := by
  rcases history.served i t k posted present ((isAttached_iff _ _).mp attached) with
    ⟨c, member, same⟩ | deserted
  · exact absurd (beq_iff_eq.mpr same) (List.find?_eq_none.mp free c member)
  · exact deserted

theorem read_not_misuse (r : RealmId) (seen : Receipt (Except Fault Handle)) :
    (Receipt.read r seen).map Answer.read ≠ .error (.misuse x) := by
  intro same
  rcases seen with _ | (_ | _) | _ | _ <;> cases same

theorem Step.misuse (step : Step w m outcome w') (history : History past w)
    (allowed : m.Allowed w) (failed : outcome = .error (.misuse x)) :
    SecondReceive past w m x ∨ StrayRequest past w m x := by
  cases step with
  | receiveAgain i t c k present claimed =>
    cases failed
    exact Or.inl ⟨i, t, c, k, rfl, present, (history.requested_iff t k present).mp claimed, rfl⟩
  | serveUnregistered l t v next k present attached gone =>
    cases failed
    obtain ⟨i, owner⟩ := allowed
    have posted := (w.posted_next l i owner _ v next).1.mem_iff.mpr List.mem_cons_self
    exact Or.inr ⟨l, t, v, k, rfl, next, present, attached,
      history.deserted_of_free i t k present posted attached gone, rfl⟩
  | pollWaiting i id n r l there ch reply => exact absurd failed (read_not_misuse r _)
  | dropGone i id outcome gone harmless =>
    rcases harmless with rfl | rfl <;> cases failed
  | _ => cases failed

/-- Which thread runs does not matter to what is a misuse. -/
theorem StrayRequest.still (i : ThreadId) (stray : StrayRequest past { w with here := i } m x) :
    StrayRequest past w m x := by
  obtain ⟨l, t, v, k, rfl, next, rest⟩ := stray
  exact ⟨l, t, _, k, rfl, next?_running { w with here := i } w.here l _ v next, rest⟩

/-- A stray request ends its turn in a misuse. The job is gone with its copy of the token, and
nothing else has changed. -/
theorem History.perform_stray (history : History past w) (orderly : Orderly w) (l : LoopId)
    (i : ThreadId) (owner : w.owner? l = some i) (t : TokenId) (v : World)
    (next : w.next? l = some (.serve t, v)) (k : Token) (present : w.token? t = some k)
    (attached : w.runtime.isAttached k.thread = true) (deserted : Deserted t past) :
    (Move.turn l).perform w =
      (.error (.misuse (.unregisteredContinuation k.correlation)), v.withToken t k.dropped) := by
  have free := history.free_of_deserted orderly t k present deserted
  refine orderly.perform_request l i owner t v next k present
    (.error (.misuse (.unregisteredContinuation k.correlation))) ?_
  rintro u there claimed ⟨x, source⟩ same
  exact Act.exec_serve_unregistered u t k there claimed x source (same ▸ attached) (same ▸ free)

/-- Whatever threads do in whatever order, a move is a misuse if it receives a token again, or if it
serves a request, for a source that is attached, whose receiver was detached before. -/
theorem misuse_iff (config : Config) (past : List Record) (w : World)
    (run : Run config .free past w) (m : Move) (allowed : m.Allowed w) (x : Misuse) :
    (m.perform w).1 = .error (.misuse x) ↔ SecondReceive past w m x ∨ StrayRequest past w m x := by
  have orderly := run.orderly
  have history := run.history
  constructor
  · intro failed
    exact ((m.step orderly allowed).misuse (history.running _) allowed failed).imp_right
      (StrayRequest.still _)
  · rintro (⟨i, t, c, k, rfl, present, known, rfl⟩ |
      ⟨l, t, v, k, rfl, next, present, attached, deserted, rfl⟩)
    · rw [receive_again w i t c k present ((history.requested_iff t k present).mpr known)]
    · obtain ⟨i, owner⟩ := allowed
      rw [history.perform_stray orderly l i owner t v next k present attached deserted]

/-- The receiver is detached before its request is served, and the source pays for it. -/
theorem misuse_of_detach :
    let w := (play [] (.create .default) (asking ++ [.detach 1 (contextOf 1)])).2
    ((Move.turn 0).perform w).1 = .error (.misuse (.unregisteredContinuation 1)) := by
  intro w
  refine (misuse_iff .default _ w (Run.start.play _ (by decide +kernel) (permitted_free _ _ _)) (.turn 0)
    (by decide +kernel) _).mpr (Or.inr ?_)
  have asked : w.token? 0 = some ⟨⟨0, .globalObject⟩, ⟨0⟩, 1, .requested, 2⟩ := by decide +kernel
  have deserted : receiver? 0 (play [] (.create .default) asking).1 = some (contextOf 1) := by
    decide +kernel
  obtain ⟨⟨job, v⟩, next, request, silent⟩ :
      ∃ p, w.next? 0 = some p ∧ p.1.token? = some 0 ∧ p.1.reply? = none := by decide +kernel
  cases job with
  | serve t =>
    obtain rfl := Option.some.inj request
    exact ⟨0, 0, v, _, rfl, next, asked, by decide +kernel,
      Or.inr ⟨1, contextOf 1, contextOf 1, rfl, deserted, rfl⟩, rfl⟩
  | deliver => cases silent
  | _ => cases request

end Membrane.Transfer
