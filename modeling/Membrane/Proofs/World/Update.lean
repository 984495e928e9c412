import Mathlib.Data.List.Perm.Basic
import Membrane.Proofs.World.Exec
/-!
The changes that actions make to the world, each under a name, and the actions that make them. What
is left in the loops is told as a list of jobs, each with the thread that is to run it.
-/

set_option autoImplicit false

namespace Membrane

/-- A place of an array that is there can be written, and nothing else changes. -/
theorem getElem?_written {α : Type} (xs : Array α) (i : Nat) (old new : α)
    (present : xs[i]? = some old) (j : Nat) :
    (xs.setIfInBounds i new)[j]? = if j = i then some new else xs[j]? := by
  have inside : i < xs.size := (Array.getElem?_eq_some_iff.mp present).1
  rw [Array.getElem?_setIfInBounds]
  by_cases same : i = j
  · rw [if_pos same, if_pos inside, if_pos same.symm]
  · rw [if_neg same, if_neg (Ne.symm same)]

/-- To write what is there changes nothing. -/
theorem written_self {α : Type} (xs : Array α) (i : Nat) (a : α) (present : xs[i]? = some a) :
    xs.setIfInBounds i a = xs := by
  refine Array.ext_getElem? fun j => ?_
  rw [getElem?_written xs i a a present]
  by_cases same : j = i
  · rw [if_pos same, same, present]
  · rw [if_neg same]

theorem modify_eq_written {α : Type} (xs : Array α) (i : Nat) (a : α) (present : xs[i]? = some a)
    (f : α → α) : xs.modify i f = xs.setIfInBounds i (f a) := by
  refine Array.ext_getElem? fun j => ?_
  rw [Array.getElem?_modify, getElem?_written xs i a (f a) present]
  by_cases same : i = j
  · subst same
    rw [if_pos rfl, if_pos rfl, present]
    rfl
  · rw [if_neg same, if_neg (Ne.symm same)]

theorem getElem?_pushed {α : Type} (xs : Array α) (new : α) (j : Nat) :
    (xs.push new)[j]? = if j = xs.size then some new else xs[j]? :=
  Array.getElem?_push

/-- A filter that looks at keys leaves what is found under a key, or nothing of it. -/
theorem lookup_filter {α β : Type} [BEq α] [LawfulBEq α] (keep : α → Bool) (entries : List (α × β))
    (a : α) : (entries.filter fun e => keep e.1).lookup a =
      if keep a then entries.lookup a else none := by
  induction entries with
  | nil => simp
  | cons e rest ih =>
    obtain ⟨b, c⟩ := e
    by_cases same : a = b
    · subst same
      cases kept : keep a <;> simp [kept, ih]
    · have other : (a == b) = false := beq_false_of_ne same
      cases kept : keep b <;> simp [List.lookup_cons, kept, ih, other]

/-- What comes and goes in one item comes and goes in the whole. -/
theorem flatMap_modify_perm {α β : Type} (f : α → α) (g : α → List β) (gone more : List β) :
    ∀ (xs : List α) (i : Nat) (a : α), xs[i]? = some a →
      (gone ++ g (f a)).Perm (more ++ g a) →
      (gone ++ (xs.modify i f).flatMap g).Perm (more ++ xs.flatMap g)
  | [], _, _, present, _ => by simp at present
  | x :: xs, 0, a, present, changed => by
    simp only [List.getElem?_cons_zero, Option.some.injEq] at present
    subst present
    simp only [List.modify_zero_cons, List.flatMap_cons, ← List.append_assoc]
    exact changed.append_right _
  | x :: xs, i + 1, a, present, changed => by
    simp only [List.getElem?_cons_succ] at present
    simp only [List.modify_succ_cons, List.flatMap_cons]
    have rest := flatMap_modify_perm f g gone more xs i a present changed
    have moved : ∀ ys zs : List β, (ys ++ (g x ++ zs)).Perm (g x ++ (ys ++ zs)) := fun ys zs => by
      simpa only [List.append_assoc] using List.perm_append_comm.append_right zs
    exact ((moved gone _).trans (rest.append_left _)).trans (moved more _).symm

namespace World

def withToken (w : World) (t : TokenId) (x : Token) : World :=
  { w with tokens := w.tokens.setIfInBounds t x }

def withRealm (w : World) (r : RealmId) (x : Realm) : World :=
  { w with realms := w.realms.setIfInBounds r x }

def withReply (w : World) (n : ReplyId)
    (f : Channel (Except Fault Handle) → Channel (Except Fault Handle)) : World :=
  { w with replies := w.replies.modify n f }

def withReceive (w : World) (id : ReceiveId) (x : Option Receive) : World :=
  { w with receives := w.receives.setIfInBounds id x }

def withQueue (w : World) (l : LoopId) (f : EventLoop Job → EventLoop Job) : World :=
  { w with loops := w.loops.modify l fun c => { c with queue := f c.queue } }

/-- The running thread queues a job. -/
def post (w : World) (l : LoopId) (job : Job) : World :=
  w.withQueue l (·.queueMicrotask w.here job)

/-- The thread that owns a loop. -/
def owner? (w : World) (l : LoopId) : Option ThreadId := (w.loops[l]?).map (·.queue.owner)

/-- The microtasks of a loop and those on their way to it, with the thread that is to run them. -/
def postedOn (c : LoopCell) : List (ThreadId × Job) :=
  (c.queue.microtasks ++ c.queue.inbox).map (c.queue.owner, ·)

def posted (w : World) : List (ThreadId × Job) := w.loops.toList.flatMap postedOn

variable (w : World)

theorem exists_loop (l : LoopId) (i : ThreadId) (owner : w.owner? l = some i) :
    ∃ c, w.loops[l]? = some c ∧ c.queue.owner = i := by
  simpa only [owner?, Option.map_eq_some_iff] using owner

theorem loops_withQueue (l : LoopId) (f : EventLoop Job → EventLoop Job) (k : LoopId) :
    (w.withQueue l f).loops[k]? =
      if l = k then (w.loops[k]?).map fun c => { c with queue := f c.queue } else w.loops[k]? := by
  simp only [withQueue, Array.getElem?_modify]

theorem withToken_withToken (t : TokenId) (k l : Token) :
    (w.withToken t k).withToken t l = w.withToken t l := by
  simp only [withToken, Array.setIfInBounds_setIfInBounds]

theorem withRealm_withRealm (r : RealmId) (x y : Realm) :
    (w.withRealm r x).withRealm r y = w.withRealm r y := by
  simp only [withRealm, Array.setIfInBounds_setIfInBounds]

theorem withToken_self (t : TokenId) (k : Token) (present : w.tokens[t]? = some k) :
    w.withToken t k = w := by
  rw [withToken, written_self w.tokens t k present]

theorem withRealm_self (r : RealmId) (x : Realm) (present : w.realms[r]? = some x) :
    w.withRealm r x = w := by
  rw [withRealm, written_self w.realms r x present]

theorem tokens_withToken (t : TokenId) (k l : Token) (present : w.tokens[t]? = some k)
    (j : TokenId) : (w.withToken t l).tokens[j]? = if j = t then some l else w.tokens[j]? :=
  getElem?_written w.tokens t k l present j

theorem realms_withRealm (r : RealmId) (x y : Realm) (present : w.realms[r]? = some x)
    (j : RealmId) : (w.withRealm r y).realms[j]? = if j = r then some y else w.realms[j]? :=
  getElem?_written w.realms r x y present j

theorem replies_withReply (n : ReplyId)
    (f : Channel (Except Fault Handle) → Channel (Except Fault Handle)) (j : ReplyId) :
    (w.withReply n f).replies[j]? = if n = j then (w.replies[j]?).map f else w.replies[j]? := by
  simp only [withReply, Array.getElem?_modify]

/-- Two changes of a reply that agree on what is there are one. -/
theorem withReply_congr (n : ReplyId) (ch : Channel (Except Fault Handle))
    (reply : w.replies[n]? = some ch)
    (f g : Channel (Except Fault Handle) → Channel (Except Fault Handle)) (same : f ch = g ch) :
    w.withReply n f = w.withReply n g := by
  simp only [withReply, modify_eq_written w.replies n ch reply, same]

/-- A change of a queue that leaves the owner leaves all owners. -/
theorem owner?_withQueue (l : LoopId) (f : EventLoop Job → EventLoop Job)
    (kept : ∀ c, w.loops[l]? = some c → (f c.queue).owner = c.queue.owner) :
    (w.withQueue l f).owner? = w.owner? := by
  funext k
  rw [owner?, loops_withQueue, owner?]
  by_cases same : l = k
  · subst same
    rw [if_pos rfl, Option.map_map]
    cases present : w.loops[l]? with
    | none => rfl
    | some c => exact congrArg some (kept c present)
  · rw [if_neg same]

/-- A change of a queue that leaves it as it is leaves the world. -/
theorem withQueue_of_kept (l : LoopId) (f : EventLoop Job → EventLoop Job)
    (kept : ∀ c, w.loops[l]? = some c → f c.queue = c.queue) : w.withQueue l f = w := by
  have same : w.loops.modify l (fun c => { c with queue := f c.queue }) = w.loops := by
    refine Array.ext_getElem? fun k => ?_
    rw [Array.getElem?_modify]
    by_cases here : l = k
    · subst here
      rw [if_pos rfl]
      cases present : w.loops[l]? with
      | none => rfl
      | some c => rw [Option.map_some, kept c present]
    · rw [if_neg here]
  rw [withQueue, same]

theorem queueMicrotask_owner (q : EventLoop Job) (caller : ThreadId) (job : Job) :
    (q.queueMicrotask caller job).owner = q.owner := by
  unfold EventLoop.queueMicrotask
  split <;> rfl

theorem owner?_post (l : LoopId) (job : Job) : (w.post l job).owner? = w.owner? :=
  owner?_withQueue w l _ fun c _ => queueMicrotask_owner c.queue w.here job

theorem posted_withQueue (l : LoopId) (f : EventLoop Job → EventLoop Job) (c : LoopCell)
    (present : w.loops[l]? = some c) (gone more : List (ThreadId × Job))
    (changed : (gone ++ postedOn { c with queue := f c.queue }).Perm (more ++ postedOn c)) :
    (gone ++ (w.withQueue l f).posted).Perm (more ++ w.posted) := by
  simp only [posted, withQueue, Array.toList_modify]
  exact flatMap_modify_perm _ _ gone more _ l c (by rw [Array.getElem?_toList]; exact present)
    changed

/-- A change of a queue that leaves its jobs leaves all that is posted. -/
theorem posted_withQueue_of_kept (l : LoopId) (f : EventLoop Job → EventLoop Job)
    (kept : ∀ q, (f q).owner = q.owner ∧ (f q).microtasks = q.microtasks ∧ (f q).inbox = q.inbox) :
    (w.withQueue l f).posted.Perm w.posted := by
  cases present : w.loops[l]? with
  | none =>
    rw [w.withQueue_of_kept l f fun c there => by rw [present] at there; cases there]
  | some c =>
    apply posted_withQueue w l f c present [] []
    simp only [postedOn, kept, List.nil_append, List.Perm.refl]

/-- A job that is queued is for the owner of the loop, wherever it was queued from. -/
theorem posted_post (l : LoopId) (job : Job) (i : ThreadId) (owner : w.owner? l = some i) :
    (w.post l job).posted.Perm ((i, job) :: w.posted) := by
  obtain ⟨c, present, rfl⟩ := w.exists_loop l i owner
  apply posted_withQueue w l _ c present [] [(c.queue.owner, job)]
  simp only [postedOn, EventLoop.queueMicrotask, List.nil_append]
  split
  · simp only [List.map_append, List.map_cons, List.map_nil, List.append_assoc]
    exact List.perm_middle
  · simp only [List.map_append, List.map_cons, List.map_nil, ← List.append_assoc]
    exact List.perm_append_comm

theorem here_sweep : w.sweep.here = w.here := by
  unfold sweep
  split <;> rfl

/-- Guest functions are forgotten and nothing else. -/
theorem realms_sweep (r : RealmId) (x : Realm) (present : w.realms[r]? = some x) :
    ∃ closures, w.sweep.realms[r]? = some { x with closures } := by
  unfold sweep
  split
  · exact ⟨x.closures, present⟩
  · simp only [Array.getElem?_mapIdx, present, Option.map_some]
    split <;> exact ⟨_, rfl⟩

end World

namespace Act

open World

variable (w : World)

theorem exec_token (t : TokenId) (k : Token) (present : w.tokens[t]? = some k) :
    exec (token t) w = (.ok k, w) := exec_fetch (fun w => w.tokens[t]?) w k present

theorem exec_realm (r : RealmId) (x : Realm) (present : w.realms[r]? = some x) :
    exec (realm r) w = (.ok x, w) := exec_fetch (fun w => w.realms[r]?) w x present

theorem exec_loop (l : LoopId) (c : LoopCell) (present : w.loops[l]? = some c) :
    exec (loop l) w = (.ok c, w) := exec_fetch (fun w => w.loops[l]?) w c present

theorem exec_loopOf (e : ExecutorId) (l : LoopId) (loop : w.executorLoop? e = some l) :
    exec (loopOf e) w = (.ok l, w) := by
  obtain ⟨x, present, installed⟩ := Option.bind_eq_some_iff.mp loop
  simp only [loopOf, executor, exec_bind, exec_fetch (fun w => w.executors[e]?) w x present, goOn_ok,
    installed, exec_pure]

theorem exec_loopOf_eq_ok (e : ExecutorId) (l : LoopId) (w' : World)
    (done : exec (loopOf e) w = (.ok l, w')) : w.executorLoop? e = some l ∧ w' = w := by
  obtain ⟨x, present, installed⟩ := exec_fetch_bind_eq_ok _ _ _ _ _ done
  cases loop : x.loop with
  | none =>
    rw [loop] at installed
    cases installed
  | some m =>
    rw [loop] at installed
    cases installed
    exact ⟨by simp [executorLoop?, present, loop], rfl⟩

@[simp] theorem exec_setToken (t : TokenId) (x : Token) :
    exec (setToken t x) w = (.ok (), w.withToken t x) := rfl

@[simp] theorem exec_setRealm (r : RealmId) (x : Realm) :
    exec (setRealm r x) w = (.ok (), w.withRealm r x) := rfl

@[simp] theorem exec_setReceive (id : ReceiveId) (x : Option Receive) :
    exec (setReceive id x) w = (.ok (), w.withReceive id x) := rfl

@[simp] theorem exec_onQueue (l : LoopId) (f : EventLoop Job → EventLoop Job) :
    exec (onQueue l f) w = (.ok (), w.withQueue l f) := rfl

@[simp] theorem exec_queueMicrotask (l : LoopId) (job : Job) :
    exec (queueMicrotask l job) w = (.ok (), w.post l job) := rfl

@[simp] theorem exec_onRuntime {α : Type} (f : Runtime → α × Runtime) :
    exec (onRuntime f) w = (.ok (f w.runtime).1, { w with runtime := (f w.runtime).2 }) := rfl

@[simp] theorem exec_newReceive (x : Receive) :
    exec (newReceive x) w =
      (.ok w.receives.size, { w with receives := w.receives.push (some x) }) := rfl

theorem exec_onReply {α : Type} (n : ReplyId) (c : Channel (Except Fault Handle))
    (present : w.replies[n]? = some c)
    (f : Channel (Except Fault Handle) → α × Channel (Except Fault Handle)) :
    exec (onReply n f) w = (.ok (f c).1, w.withReply n fun c => (f c).2) := by
  simp only [onReply, exec_bind, exec_fetch (fun w => w.replies[n]?) w c present, goOn_ok,
    exec_modify, exec_pure, withReply, modify_eq_written w.replies n c present]

theorem exec_onRealm {α : Type} (r : RealmId) (x : Realm) (present : w.realms[r]? = some x)
    (f : Realm → α × Realm) :
    exec (onRealm r f) w = (.ok (f x).1, w.withRealm r (f x).2) := by
  simp only [onRealm, exec_bind, exec_realm w r x present, goOn_ok, exec_setRealm, exec_pure]

theorem exec_tryRealm (r : RealmId) (x : Realm) (present : w.realms[r]? = some x)
    (f : Realm → Except Fault Realm) :
    exec (tryRealm r f) w =
      match f x with
      | .ok x' => (.ok (.ok ()), w.withRealm r x')
      | .error e => (.ok (.error e), w) := by
  simp only [tryRealm, exec_bind, exec_realm w r x present, goOn_ok]
  cases f x <;> simp

/-- The owner of a realm may work on it. -/
theorem exec_assertOwner (r : RealmId) (x : Realm) (present : w.realms[r]? = some x)
    (owner : x.owner = w.here) : exec (assertOwner r) w = (.ok (), w) := by
  simp only [assertOwner, exec_bind, exec_realm w r x present, goOn_ok, exec_get, owner,
    ↓reduceIte, exec_pure]

theorem exec_assertOwner_foreign (r : RealmId) (x : Realm) (present : w.realms[r]? = some x)
    (foreign : x.owner ≠ w.here) :
    exec (assertOwner r) w = (.error (.misuse (.foreignThreadAccess x.thread)), w) := by
  simp only [assertOwner, exec_bind, exec_realm w r x present, goOn_ok, exec_get, foreign,
    ↓reduceIte, exec_misuse]

theorem exec_onRealm_eq_ok {α : Type} (r : RealmId) (f : Realm → α × Realm) (w' : World) (a : α)
    (done : exec (onRealm r f) w = (.ok a, w')) :
    ∃ x, w.realms[r]? = some x ∧ a = (f x).1 ∧ w' = w.withRealm r (f x).2 := by
  obtain ⟨x, present, _⟩ := exec_fetch_bind_eq_ok _ _ _ _ _ done
  rw [exec_onRealm w r x present] at done
  cases done
  exact ⟨x, present, rfl, rfl⟩

theorem exec_assertOwner_eq_ok (r : RealmId) (w' : World)
    (done : exec (assertOwner r) w = (.ok (), w')) :
    w' = w ∧ ∃ x, w.realms[r]? = some x ∧ x.owner = w.here := by
  obtain ⟨x, present, rest⟩ := exec_fetch_bind_eq_ok _ _ _ _ _ done
  rw [exec_bind, exec_get, goOn_ok, exec_ite] at rest
  split at rest
  · next owner =>
    cases rest
    exact ⟨rfl, x, present, owner⟩
  · cases rest

/-- What begins by asking for the owner and comes to its end was done by the owner. -/
theorem owner_of_asserted {α : Type} (r : RealmId) (x : Realm) (present : w.realms[r]? = some x)
    (rest : Unit → Act α) (w' : World) (a : α)
    (done : exec (assertOwner r >>= rest) w = (.ok a, w')) : x.owner = w.here := by
  obtain ⟨_, _, asserted, _⟩ := exec_bind_eq_ok _ _ _ _ _ done
  obtain ⟨_, y, there, owner⟩ := exec_assertOwner_eq_ok _ _ _ asserted
  obtain rfl := Option.some.inj (present.symm.trans there)
  exact owner

theorem exec_retain (r : RealmId) (x : Realm) (present : w.realms[r]? = some x)
    (owner : x.owner = w.here) (v : Host.Value) :
    exec (retain r v) w = (.ok (x.retain v).1, w.withRealm r (x.retain v).2) := by
  simp only [retain, exec_bind, exec_assertOwner w r x present owner, goOn_ok,
    exec_onRealm w r x present]

theorem exec_retainHandle (r : RealmId) (x : Realm) (present : w.realms[r]? = some x)
    (owner : x.owner = w.here) (h : Handle) :
    exec (retainHandle r h) w =
      match x.retainHandle h with
      | .ok x' => (.ok (.ok ()), w.withRealm r x')
      | .error e => (.ok (.error e), w) := by
  simp only [retainHandle, exec_bind, exec_assertOwner w r x present owner, goOn_ok,
    exec_tryRealm w r x present]

theorem exec_release (r : RealmId) (x : Realm) (present : w.realms[r]? = some x)
    (owner : x.owner = w.here) (h : Handle) :
    exec (release r h) w =
      match x.release h with
      | .ok x' => (.ok (.ok ()), w.withRealm r x')
      | .error e => (.ok (.error e), w) := by
  simp only [release, exec_bind, exec_assertOwner w r x present owner, goOn_ok,
    exec_tryRealm w r x present]

theorem exec_releaseQuietly (r : RealmId) (x : Realm) (present : w.realms[r]? = some x)
    (owner : x.owner = w.here) (h : Handle) :
    exec (releaseQuietly r h) w = (.ok (), w.withRealm r (x.releaseQuietly h)) := by
  simp only [releaseQuietly, exec_bind, exec_release w r x present owner, Realm.releaseQuietly]
  cases x.release h with
  | ok y => rfl
  | error e => simp only [goOn_ok, exec_pure, w.withRealm_self r x present]

theorem exec_read (r : RealmId) (x : Realm) (present : w.realms[r]? = some x)
    (owner : x.owner = w.here) (h : Handle) :
    exec (read r h) w = (.ok (x.table.get h), w) := by
  simp only [read, exec_bind, exec_assertOwner w r x present owner, goOn_ok,
    exec_realm w r x present, exec_pure]

@[simp] theorem exec_wakeAny_none : exec (wakeAny none) w = (.ok (), w) := rfl

theorem exec_copyToken (t : TokenId) (k : Token) (present : w.tokens[t]? = some k) :
    exec (copyToken t) w = (.ok (), w.withToken t { k with copies := k.copies + 1 }) := by
  simp only [copyToken, exec_bind, exec_token w t k present, goOn_ok, exec_setToken]

end Act

end Membrane
