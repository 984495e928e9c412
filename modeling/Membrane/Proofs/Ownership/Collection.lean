import Membrane.Proofs.Ownership.Run
/-!
Handles that were noted are not left behind. Any thread notes a handle at any time, also while a
collection gives back others, and posts the collection afterwards if the handle was the first one.
The owner of the realm collects when it likes and when it comes to a job that does. Only the first
handle posts a collection, and a collection that is made earlier leaves the posted one where it is;
still there is one to come wherever something is noted.
-/

set_option autoImplicit false

namespace Membrane.Collection

open Act Ownership

/-- What the owner of a realm is at. -/
inductive Stage where
  | idle
  /-- The job of a collection was taken from the loop. -/
  | begun
  /-- What was noted was taken from the realm. The handles are given back one by one, and these are
  left. -/
  | releasing (rest : List Handle)

def Stage.rest : Stage → List Handle
  | .releasing rest => rest
  | _ => []

structure Scene where
  realm : Realm
  loop : EventLoop Job
  /-- The threads that noted a first handle and have not posted the collection yet. -/
  posting : List ThreadId
  stage : Stage

inductive Event where
  | noted (h : Handle)
  | taken (handles : List Handle)
  /-- A handle is given back, if it is live. -/
  | attempted (h : Handle)

/-- What happens to a loop besides the collections of a realm. -/
inductive Turns (r : RealmId) (l : EventLoop Job) : EventLoop Job → Prop
  | queue (caller : ThreadId) (job : Job) : Turns r l (l.queueMicrotask caller job)
  | drainInbox : Turns r l l.drainInbox
  | run (job : Job) (rest : EventLoop Job) (next : l.next? = some (job, rest))
      (other : job ≠ .collect r) : Turns r l rest
  | setTimeout (now : Time) (delay : Number) (job : Job) : Turns r l (l.setTimeout now delay job)
  | fire (now : Time) (timer : Timer Job) (rest : EventLoop Job)
      (due : l.due? now = some (timer, rest)) : Turns r l rest
  | hold : Turns r l l.hold
  | letGo : Turns r l l.letGo
  | shutdown : Turns r l l.shutdown

/-- What happens next, in parts that no other thread gets between. -/
inductive Step (r : RealmId) (s : Scene) : List Event → Scene → Prop
  | note (thread : ThreadId) (h : Handle) :
      Step r s [.noted h] { s with
        realm := (s.realm.scheduleFinalizer h).2
        posting := if (s.realm.scheduleFinalizer h).1 then s.posting ++ [thread] else s.posting }
  | post (former later : List ThreadId) (thread : ThreadId)
      (noted : s.posting = former ++ thread :: later) :
      Step r s [] { s with
        loop := s.loop.queueMicrotask thread (.collect r), posting := former ++ later }
  | begin (rest : EventLoop Job) (idle : s.stage = .idle)
      (next : s.loop.next? = some (.collect r, rest)) :
      Step r s [] { s with loop := rest, stage := .begun }
  /-- The owner collects on its own account, or the job does that it began. -/
  | take (free : s.stage = .idle ∨ s.stage = .begun) :
      Step r s [.taken s.realm.finalizers] { s with
        realm := { s.realm with finalizers := [] }, stage := .releasing s.realm.finalizers }
  | release (h : Handle) (rest : List Handle) (left : s.stage = .releasing (h :: rest)) :
      Step r s [.attempted h] { s with
        realm := s.realm.releaseQuietly h, stage := .releasing rest }
  | finish (done : s.stage = .releasing []) : Step r s [] { s with stage := .idle }
  | loop (l : EventLoop Job) (turns : Turns r s.loop l) : Step r s [] { s with loop := l }
  /-- Anything else in the realm. -/
  | realm (x : Realm) (kept : x.finalizers = s.realm.finalizers) : Step r s [] { s with realm := x }

inductive Course (r : RealmId) (start : Scene) : List Event → Scene → Prop
  | start : Course r start [] start
  | step {past new : List Event} {s s' : Scene} (course : Course r start past s)
      (step : Step r s new s') : Course r start (past ++ new) s'

namespace Event

def notes : Event → List Handle
  | noted h => [h]
  | _ => []

def takes : Event → List Handle
  | taken handles => handles
  | _ => []

def attempts : Event → List Handle
  | attempted h => [h]
  | _ => []

end Event

section

variable (events more : List Event) (e : Event)

def noted : List Handle := events.flatMap Event.notes

def taken : List Handle := events.flatMap Event.takes

def attempted : List Handle := events.flatMap Event.attempts

@[simp] theorem noted_append : noted (events ++ more) = noted events ++ noted more :=
  List.flatMap_append

@[simp] theorem taken_append : taken (events ++ more) = taken events ++ taken more :=
  List.flatMap_append

@[simp] theorem attempted_append :
    attempted (events ++ more) = attempted events ++ attempted more := List.flatMap_append

@[simp] theorem noted_one : noted [e] = e.notes := List.flatMap_singleton _ _

@[simp] theorem taken_one : taken [e] = e.takes := List.flatMap_singleton _ _

@[simp] theorem attempted_one : attempted [e] = e.attempts := List.flatMap_singleton _ _

end

variable {r : RealmId} {start s s' : Scene} {past new events : List Event}

/-- A collection is queued on a loop. -/
def Queued (r : RealmId) (l : EventLoop Job) : Prop := .collect r ∈ l.microtasks ++ l.inbox

theorem queued_queueMicrotask (l : EventLoop Job) (caller : ThreadId) (job : Job) :
    Queued r (l.queueMicrotask caller job) ↔ Queued r l ∨ .collect r = job := by
  rw [EventLoop.queueMicrotask]
  split
  · simp only [Queued, List.mem_append, List.mem_singleton]
    exact or_right_comm
  · simp only [Queued, List.mem_append, List.mem_singleton]
    exact or_assoc.symm

theorem queued_of_next (l rest : EventLoop Job) (job : Job) (next : l.next? = some (job, rest))
    (queued : Queued r l) : .collect r = job ∨ Queued r rest := by
  rw [EventLoop.next?] at next
  split at next
  · cases next
  · next first others jobs =>
    cases next
    rw [Queued, jobs] at queued
    exact List.mem_cons.mp queued

theorem Turns.queued {l l' : EventLoop Job} (turns : Turns r l l') (queued : Queued r l) :
    Queued r l' := by
  cases turns with
  | queue caller job => exact (queued_queueMicrotask l caller job).mpr (.inl queued)
  | drainInbox => exact List.mem_append_left _ queued
  | run job rest next other => exact (queued_of_next l _ job next queued).resolve_left other.symm
  | fire now timer rest due =>
    rw [EventLoop.due?] at due
    split at due
    · cases due
    · split at due
      · cases due
        exact queued
      · cases due
  | setTimeout | hold | letGo | shutdown => exact queued

/-- Where something is noted, a collection is queued, or was begun, or is about to be posted. -/
def Waits (r : RealmId) (s : Scene) : Prop :=
  s.realm.finalizers ≠ [] → s.posting ≠ [] ∨ Queued r s.loop ∨ s.stage = .begun

/-- Only the taking of what was noted makes a collection that was begun not come. -/
theorem Step.waits (step : Step r s new s') (waits : Waits r s) : Waits r s' := by
  cases step with
  | note thread h =>
    intro _
    cases first : s.realm.finalizers with
    | nil =>
      refine .inl ?_
      simp only [Realm.scheduleFinalizer, first, List.isEmpty_nil, ↓reduceIte]
      exact List.append_ne_nil_of_right_ne_nil _ (List.cons_ne_nil _ _)
    | cons h' more =>
      have before := waits (by rw [first]; exact List.cons_ne_nil _ _)
      simp only [Realm.scheduleFinalizer, first, List.isEmpty_cons, Bool.false_eq_true, ↓reduceIte]
      exact before
  | post former later thread noted =>
    exact fun _ => .inr (.inl ((queued_queueMicrotask _ _ _).mpr (.inr rfl)))
  | begin rest idle next => exact fun _ => .inr (.inr rfl)
  | take free => exact fun some => absurd rfl some
  | release h rest left =>
    intro some
    have same : (s.realm.releaseQuietly h).finalizers = s.realm.finalizers := by
      rw [Realm.releaseQuietly_eq]
    rcases waits (same ▸ some) with posting | queued | begun
    · exact .inl posting
    · exact .inr (.inl queued)
    · cases begun.symm.trans left
  | finish done =>
    intro some
    rcases waits some with posting | queued | begun
    · exact .inl posting
    · exact .inr (.inl queued)
    · cases begun.symm.trans done
  | loop l turns => exact fun some => (waits some).imp_right fun rest => rest.imp_left turns.queued
  | realm x kept => exact fun some => waits (kept ▸ some)

/-- Where every handle is that was noted: still there, taken and not given back yet, or given
back. -/
structure Accounts (s : Scene) (events : List Event) : Prop where
  noted : noted events = taken events ++ s.realm.finalizers
  taken : taken events = attempted events ++ s.stage.rest

theorem Step.accounts (step : Step r s new s') (accounts : Accounts s past) :
    Accounts s' (past ++ new) := by
  obtain ⟨notes, takes⟩ := accounts
  cases step with
  | note thread h =>
    constructor
    · simp [notes, Event.notes, Event.takes, Realm.scheduleFinalizer]
    · simp [takes, Event.takes, Event.attempts]
  | take free =>
    have none : s.stage.rest = [] := by rcases free with idle | begun <;> simp [Stage.rest, *]
    rw [none, List.append_nil] at takes
    constructor
    · simp [notes, Event.notes, Event.takes]
    · simp [takes, Event.takes, Event.attempts, Stage.rest]
  | release h rest left =>
    rw [left] at takes
    constructor
    · simp [notes, Event.notes, Event.takes, Realm.releaseQuietly_eq]
    · simp [takes, Event.takes, Event.attempts, Stage.rest]
  | begin rest idle next =>
    rw [List.append_nil]
    rw [idle] at takes
    exact ⟨notes, takes⟩
  | finish done =>
    rw [List.append_nil]
    rw [done] at takes
    exact ⟨notes, takes⟩
  | realm x kept =>
    rw [List.append_nil]
    exact ⟨kept ▸ notes, takes⟩
  | post | loop =>
    rw [List.append_nil]
    exact ⟨notes, takes⟩

theorem Course.waits (course : Course r start events s) (waits : Waits r start) : Waits r s := by
  induction course with
  | start => exact waits
  | step _ step ih => exact step.waits ih

theorem Course.accounts (course : Course r start events s) (accounts : Accounts start []) :
    Accounts s events := by
  induction course with
  | start => exact accounts
  | step _ step ih => exact step.accounts ih

theorem Course.trans {later : List Event} (course : Course r start events s)
    (rest : Course r s later s') : Course r start (events ++ later) s' := by
  induction rest with
  | start => rwa [List.append_nil]
  | step _ step ih =>
    rw [← List.append_assoc]
    exact .step ih step

/-- What a world shows of a realm and its loop where no collection is under way. -/
def Shows (w : World) (r : RealmId) (s : Scene) : Prop :=
  ∃ x c, w.realms[r]? = some x ∧ w.loops[x.loop]? = some c ∧ s = ⟨x, c.queue, [], .idle⟩

section

variable {w w₁ : World}

theorem Shows.withRealm {x y : Realm} {c : LoopCell} (present : w.realms[r]? = some x)
    (loop : w.loops[x.loop]? = some c) (same : y.loop = x.loop) :
    Shows (w.withRealm r y) r ⟨y, c.queue, [], .idle⟩ := by
  refine ⟨y, c, ?_, same ▸ loop, rfl⟩
  rw [w.realms_withRealm r x y present, if_pos rfl]

end

end Membrane.Collection
