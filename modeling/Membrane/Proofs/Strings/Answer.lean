import Membrane.Proofs.Strings.Calls
import Membrane.World.Convert
/-!
How the answer of an import gets to its caller. What was thrown is taken and reported; any other
answer is read as the type that the caller asks for, and only the reading of a string gives a handle
back.
-/

set_option autoImplicit false

namespace Membrane

namespace Realm

/-- A realm once its import is done and what was thrown is taken. -/
def closed (x : Realm) : Realm := { x.closeFrame with exception := none }

theorem exception_closeFrame (x : Realm) : x.closeFrame.exception = x.exception := by
  cases running : x.frames with
  | nil => rw [x.closeFrame_of_idle running]
  | cons frame outer => rw [x.closeFrame_eq frame outer running]

/-- Where nothing is listed, a read gives its handle back and does nothing else. -/
theorem reads_of_idle (hs : List Handle) (x : Realm) (idle : x.frames = [])
    (settled : x.lowered = []) :
    hs.foldl read x = { x with table := hs.foldl RefTable.releaseQuietly x.table } := by
  induction hs generalizing x with
  | nil => rfl
  | cons h hs ih =>
    have unlisted : ¬ x.Lists h := by
      rw [Lists, innermost, idle, settled, List.headD_nil, or_self]
      exact List.not_mem_nil
    have first : x.read h = { x with table := x.table.releaseQuietly h } := by
      rw [read, x.claimLowered_of_unlisted h unlisted, releaseQuietly_eq]
    rw [List.foldl_cons, first]
    exact ih _ idle settled

end Realm

namespace Act

open World

variable {α β : Type} (w : World)

/-- An action that comes to its end and leaves what a realm holds, as long as the realm is there and
the action is its owner's. -/
def Leaves (r : RealmId) (act : Act α) : Prop :=
  ∀ (w : World) (x : Realm), w.realms[r]? = some x → x.owner = w.here →
    ∃ a w' y, exec act w = (.ok a, w') ∧ w'.here = w.here ∧ w'.realms[r]? = some y ∧
      y.holdings = x.holdings

namespace Leaves

variable {r : RealmId}

theorem pure (a : α) : Leaves r (pure a : Act α) :=
  fun w x present _ => ⟨a, w, x, rfl, rfl, present, rfl⟩

theorem get : Leaves r (get : Act World) :=
  fun w x present _ => ⟨w, w, x, rfl, rfl, present, rfl⟩

theorem bind {act : Act α} {rest : α → Act β} (first : Leaves r act)
    (next : ∀ a, Leaves r (rest a)) : Leaves r (act >>= rest) := by
  intro w x present owner
  obtain ⟨a, v, y, before, here, between, same⟩ := first w x present owner
  have stays : y.owner = v.here := (congrArg Holdings.owner same).trans (owner.trans here.symm)
  obtain ⟨b, w', z, after, there, last, again⟩ := next a v y between stays
  refine ⟨b, w', z, ?_, there.trans here, last, again.trans same⟩
  rw [exec_bind, before, goOn_ok, after]

theorem realm : Leaves r (realm r) :=
  fun w x present _ => ⟨x, w, x, exec_realm w r x present, rfl, present, rfl⟩

theorem assertOwner : Leaves r (assertOwner r) :=
  fun w x present owner => ⟨(), w, x, exec_assertOwner w r x present owner, rfl, present, rfl⟩

theorem onRealm (f : Realm → α × Realm) (same : ∀ x, (f x).2.holdings = x.holdings) :
    Leaves r (onRealm r f) :=
  fun w x present _ =>
    ⟨_, _, _, exec_onRealm w r x present f, rfl, realm_withRealm w r x _ present, same x⟩

theorem queueMicrotask (l : LoopId) (job : Job) : Leaves r (queueMicrotask l job) :=
  fun w x present _ => ⟨(), _, x, exec_queueMicrotask w l job, rfl, present, rfl⟩

theorem onHalt {act : Act α} (cleanup : Act Unit) (first : Leaves r act) :
    Leaves r (onHalt act cleanup) := by
  intro w x present owner
  obtain ⟨a, w', y, done, rest⟩ := first w x present owner
  refine ⟨a, w', y, ?_, rest⟩
  rw [Act.onHalt, exec_tryCatch, done]

theorem dropRef (h : Handle) : Leaves r (dropRef ⟨r, h⟩) := by
  refine .bind .realm fun x => ?_
  split
  · refine .bind (.onRealm _ fun _ => rfl) fun first => ?_
    split
    · exact .bind .realm fun _ => .queueMicrotask _ _
    · exact .pure ()
  · exact .pure ()

theorem promiseOf (h : Handle) : Leaves r (promiseOf ⟨r, h⟩) := by
  refine .bind (.bind .assertOwner fun _ => .bind .realm fun _ => .pure _) fun found => ?_
  cases found with
  | error e => exact .pure _
  | ok v =>
    refine .bind .get fun w => ?_
    split
    · exact .pure _
    · exact .bind (.bind .get fun _ => .pure _) fun _ => .pure _

theorem asPromise (h : Handle) : Leaves r (asPromise ⟨r, h⟩) := by
  refine .bind (.bind (.onHalt _ (.promiseOf h)) fun found => ?_) fun _ => .pure _
  cases found with
  | ok p => exact .pure _
  | error e => exact .bind (.dropRef h) fun _ => .pure _

theorem liftHandle (word : Wire) : Leaves r (liftHandle r word) := by
  unfold Act.liftHandle
  cases word.asHandle with
  | error e => exact .pure _
  | ok h =>
    refine .bind (.bind .assertOwner fun _ => .bind .realm fun _ => .pure _) fun live => ?_
    split <;> exact .pure _

end Leaves

/-- The handles that are given back as a word is read as a type: that of a string. -/
def spent (type : Guest.ResultType) (word : Wire) : List Handle :=
  match type, word with
  | .string, .i32 n => [.ofWire n]
  | _, _ => []

/-- A word can be read as any type. -/
theorem exec_lift (r : RealmId) (x : Realm) (present : w.realms[r]? = some x)
    (owner : x.owner = w.here) (type : Guest.ResultType) (word : Wire) :
    ∃ result w' y, exec (lift r type word) w = (.ok result, w') ∧ w'.realms[r]? = some y ∧
      y.holdings = ((spent type word).foldl Realm.read x).holdings := by
  have quiet (act : Act (Except Fault Guest.Result)) (leaves : Leaves r act) :
      ∃ result w' y, exec act w = (.ok result, w') ∧ w'.realms[r]? = some y ∧
        y.holdings = x.holdings := by
    obtain ⟨result, w', y, done, _, last, same⟩ := leaves w x present owner
    exact ⟨result, w', y, done, last, same⟩
  cases type with
  | unit | bool | i32 | u32 | f64 | f32 => exact quiet _ (.pure _)
  | handle => exact quiet _ (.bind (.liftHandle word) fun _ => .pure _)
  | ref => exact quiet _ (.bind (.liftHandle word) fun _ => .pure _)
  | promise =>
    refine quiet _ (.bind (.liftHandle word) fun found => ?_)
    cases found with
    | error e => exact .pure _
    | ok h => exact .bind (.asPromise h) fun _ => .pure _
  | string =>
    cases word with
    | i32 n =>
      refine ⟨(x.stringAt w.heap.typeName (.ofWire n)).map .string, _, _, ?_,
        realm_withRealm w r x _ present, rfl⟩
      show exec (loadString r (.ofWire n) >>= _) w = _
      rw [exec_bind, exec_loadString w r x present owner, goOn_ok]
      rfl
    | f64 | f32 | void => exact quiet _ (.pure _)

/-- What the caller of an import gets: something thrown, by the import or before it, or a word. -/
def received (outcome : Except Host.Value Wire) (slot : Option Host.Value) : Except Fault Wire :=
  match outcome, slot with
  | .error v, _ | .ok _, some v => .error (.hostException v)
  | .ok word, none => .ok word

/-- The handles that the caller of an import gives back as it reads what it gets. -/
def spentOn (type : Guest.ResultType) : Except Fault Wire → List Handle
  | .ok word => spent type word
  | .error _ => []

/-- A call, from the run of its import: what was thrown is taken. -/
theorem exec_callImport (p : Performer) (r : RealmId) (name : String) (args : List Wire)
    (y z : Realm) (present : w.realms[r]? = some y) (owner : y.owner = w.here)
    (outcome : Except Host.Value Wire) (u : World)
    (run : exec (runImport p r name args) (w.withRealm r y.openFrame) = (.ok outcome, u))
    (last : u.realms[r]? = some z) :
    exec (callImport p r name args) w =
      (.ok (received outcome z.exception), u.withRealm r z.closed) := by
  have invoked : exec (invokeImport p r name args) w =
      (.ok (.answer outcome), u.withRealm r (z.closeFrame.answered outcome)) := by
    rw [exec_invokeImport w p r y present owner, run, goOn_ok, exec_endImport u r z last]
  have answered := realm_withRealm u r z (z.closeFrame.answered outcome) last
  rw [callImport, exec_bind, invoked, goOn_ok, exec_bind, takeException,
    exec_onRealm _ r _ answered, goOn_ok, withRealm_withRealm]
  cases outcome with
  | error v => rfl
  | ok word =>
    have slot : (z.closeFrame.answered (.ok word)).takeException.1 = z.exception :=
      z.exception_closeFrame
    rw [slot]
    cases z.exception <;> rfl

/-- A call whose answer is read, from the run of its import. -/
theorem exec_callTyped (p : Performer) (r : RealmId) (name : String) (args : List Wire)
    (type : Guest.ResultType) (y z : Realm) (present : w.realms[r]? = some y)
    (owner : y.owner = w.here) (outcome : Except Host.Value Wire) (u : World)
    (run : exec (runImport p r name args) (w.withRealm r y.openFrame) = (.ok outcome, u))
    (last : u.realms[r]? = some z) (stays : z.closed.owner = u.here) :
    ∃ result w' z', exec (callTyped p r name args type) w = (.ok result, w') ∧
      w'.realms[r]? = some z' ∧
      z'.holdings =
        ((spentOn type (received outcome z.exception)).foldl Realm.read z.closed).holdings := by
  have called := exec_callImport w p r name args y z present owner outcome u run last
  have there := realm_withRealm u r z z.closed last
  rw [callTyped, exec_bind, called, goOn_ok]
  cases outcome with
  | error v => exact ⟨_, _, _, rfl, there, rfl⟩
  | ok word =>
    cases z.exception with
    | some v => exact ⟨_, _, _, rfl, there, rfl⟩
    | none => exact exec_lift _ r z.closed there stays type word

end Act

end Membrane
