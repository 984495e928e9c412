import Membrane.Proofs.World.Ownership
/-!
What it comes to that threads are attached and detached.
-/

set_option autoImplicit false

namespace Membrane

theorem isAttached_iff (runtime : Runtime) (thread : ThreadIndex) :
    runtime.isAttached thread = true ↔ ∃ a ∈ runtime.attached, a.thread = thread := by
  simp only [Runtime.isAttached, Runtime.attachment?, List.find?_isSome, beq_iff_eq]

/-- What becomes of the reply of a receiver that loses a thread. -/
def Continuation.orphaned (thread : ThreadIndex) (c : Continuation)
    (ch : Channel (Except Fault Handle)) : Channel (Except Fault Handle) :=
  if c.source = thread then ch.answer (.error (.threadUnavailable thread)) else ch.shut

/-- What becomes of the replies of several. -/
def orphanedReplies (thread : ThreadIndex) (cs : List Continuation)
    (replies : Array (Channel (Except Fault Handle))) : Array (Channel (Except Fault Handle)) :=
  cs.foldl (fun replies c => replies.modify c.reply (c.orphaned thread)) replies

/-- A reply that none of them waits for is left alone. -/
theorem orphanedReplies_of_apart (thread : ThreadIndex) (n : ReplyId) (cs : List Continuation)
    (replies : Array (Channel (Except Fault Handle))) (apart : ∀ c ∈ cs, c.reply ≠ n) :
    (orphanedReplies thread cs replies)[n]? = replies[n]? := by
  induction cs generalizing replies with
  | nil => rfl
  | cons c cs ih =>
    show (orphanedReplies thread cs (replies.modify c.reply (c.orphaned thread)))[n]? = _
    rw [ih _ fun d member => apart d (List.mem_cons_of_mem c member), Array.getElem?_modify,
      if_neg (apart c List.mem_cons_self)]

/-- Each of several that wait for replies of their own is told once. -/
theorem orphanedReplies_of_mem (thread : ThreadIndex) (c : Continuation) (cs : List Continuation)
    (replies : Array (Channel (Except Fault Handle))) (once : (cs.map (·.reply)).Nodup)
    (member : c ∈ cs) :
    (orphanedReplies thread cs replies)[c.reply]? =
      (replies[c.reply]?).map (c.orphaned thread) := by
  induction cs generalizing replies with
  | nil => cases member
  | cons d cs ih =>
    obtain ⟨fresh, rest⟩ := List.nodup_cons.mp once
    show (orphanedReplies thread cs (replies.modify d.reply (d.orphaned thread)))[c.reply]? = _
    rcases List.mem_cons.mp member with rfl | later
    · rw [orphanedReplies_of_apart, Array.getElem?_modify, if_pos rfl]
      intro e also same
      exact fresh (List.mem_map.mpr ⟨e, also, same⟩)
    · have apart : d.reply ≠ c.reply := by
        intro same
        exact fresh (List.mem_map.mpr ⟨c, later, same.symm⟩)
      rw [ih _ rest later, Array.getElem?_modify, if_neg apart]

theorem Continuation.orphaned_of_not_waiting (thread : ThreadIndex) (c : Continuation)
    (ch : Channel (Except Fault Handle)) (done : ch.isWaiting = false) :
    c.orphaned thread ch = ch := by
  unfold Continuation.orphaned
  split
  · exact ch.answer_of_not_waiting _ done
  · exact ch.shut_of_not_waiting done

/-- Nobody is told who does not wait. -/
theorem orphanedReplies_of_not_waiting (thread : ThreadIndex) (n : ReplyId)
    (ch : Channel (Except Fault Handle)) (done : ch.isWaiting = false) (cs : List Continuation)
    (replies : Array (Channel (Except Fault Handle))) (present : replies[n]? = some ch) :
    (orphanedReplies thread cs replies)[n]? = some ch := by
  induction cs generalizing replies with
  | nil => exact present
  | cons c cs ih =>
    apply ih (replies.modify c.reply (c.orphaned thread))
    rw [Array.getElem?_modify, present]
    split
    · rw [Option.map_some, c.orphaned_of_not_waiting thread ch done]
    · rfl

namespace World

variable (w : World)

/-- Every executor that is registered is there. -/
def Registered : Prop := ∀ p ∈ w.runtime.executors, p.2 < w.executors.size

/-- A realm has joined the runtime with its thread. -/
def joined (x : Realm) (l : LoopId) : World :=
  { w with realms := w.realms.push x, runtime := w.runtime.attach w.realms.size l }

/-- The world after the running thread got an executor. -/
def staffed (heap : Host.Heap) (executors : Array Executor)
    (registry : List (ThreadId × ExecutorId)) (current : List (ThreadId × Context)) : World :=
  { w with heap, executors, current, runtime := { w.runtime with executors := registry } }

/-- The realm of a thread that attaches itself. -/
def newRealm (l : LoopId) (globalObject : ObjectId) : Realm :=
  .create ⟨w.runtime.nextThread⟩ w.here l w.runtime.features w.runtime.config.layout globalObject

/-- The contexts of the threads once the running thread has another one. -/
def seated (c : Context) : List (ThreadId × Context) :=
  w.current.filter (·.1 != w.here) ++ [(w.here, c)]

/-- A thread has neither its executor nor its context any longer. -/
def retired (c : Context) : World :=
  { w with
    runtime := { w.runtime with executors := w.runtime.executors.filter (·.1 != w.here) }
    current := match w.current.lookup w.here with
      | some d => if d.thread = c.thread then w.current.filter (·.1 != w.here) else w.current
      | none => w.current }

/-- The world after a context of a realm was detached. -/
def detached (c : Context) (x : Realm) : World :=
  let left := { w with
    runtime := (w.runtime.remove c.thread).2
    replies := orphanedReplies c.thread (w.runtime.remove c.thread).1 w.replies }
  if x.owner = w.here then left.retired c else left

end World

namespace Act

open World

variable (w : World)

theorem exec_orphan (thread : ThreadIndex) (c : Continuation) (ch : Channel (Except Fault Handle))
    (present : w.replies[c.reply]? = some ch) (quiet : ch.waiter = none) :
    exec (orphan thread c) w = (.ok (), w.withReply c.reply (c.orphaned thread)) := by
  by_cases same : c.source = thread
  · have sent : c.orphaned thread ch = ch.answer (.error (.threadUnavailable thread)) := by
      simp only [Continuation.orphaned, same, ↓reduceIte]
    simp only [orphan, same, ↓reduceIte, exec_bind, exec_onReply w _ ch present, goOn_ok]
    rw [w.withReply_congr c.reply ch present _ (c.orphaned thread)]
    · cases waits : ch.isWaiting <;> simp [ch.send?_eq _ quiet, waits]
    · rw [sent, ch.send?_eq _ quiet]
      cases waits : ch.isWaiting <;> simp [Channel.answer, waits]
  · simp only [orphan, same, ↓reduceIte, exec_bind, exec_onReply w _ ch present, goOn_ok,
      ch.closeSender_eq quiet, exec_wakeAny_none]
    rw [w.withReply_congr c.reply ch present _ (c.orphaned thread)]
    simp only [Continuation.orphaned, same, ↓reduceIte, Channel.shut]

theorem orphaned_quiet (thread : ThreadIndex) (c : Continuation)
    (ch : Channel (Except Fault Handle)) (quiet : ch.waiter = none) :
    (c.orphaned thread ch).waiter = none := by
  unfold Continuation.orphaned
  split
  · exact ch.answer_quiet _ quiet
  · exact ch.shut_quiet quiet

theorem exec_orphans (thread : ThreadIndex) (cs : List Continuation) (w : World) (quiet : w.Quiet)
    (there : ∀ c ∈ cs, c.reply < w.replies.size) :
    exec (cs.forM (orphan thread)) w =
      (.ok (), { w with replies := orphanedReplies thread cs w.replies }) := by
  induction cs generalizing w with
  | nil => rfl
  | cons c cs ih =>
    have inside := there c List.mem_cons_self
    have present := Array.getElem?_eq_getElem inside
    have still := quiet _ _ present
    have first := exec_orphan w thread c _ present still
    have after : (w.withReply c.reply (c.orphaned thread)).Quiet := by
      intro n ch found
      simp only [withReply, Array.getElem?_modify] at found
      split at found
      · rw [Option.map_eq_some_iff] at found
        obtain ⟨former, there, rfl⟩ := found
        exact orphaned_quiet thread c former (quiet n former there)
      · exact quiet n ch found
    have others : ∀ d ∈ cs, d.reply < (w.withReply c.reply (c.orphaned thread)).replies.size := by
      intro d member
      simp only [withReply, Array.size_modify]
      exact there d (List.mem_cons_of_mem c member)
    show exec (orphan thread c >>= fun _ => cs.forM (orphan thread)) w = _
    rw [exec_bind, first, goOn_ok, ih _ after others]
    rfl

theorem exec_detach (c : Context) (x : Realm) (present : w.realms[c.realm]? = some x)
    (quiet : w.Quiet) (there : ∀ d ∈ w.runtime.waiting, d.reply < w.replies.size) :
    exec (detach c) w = (.ok (), w.detached c x) := by
  have lost : ∀ d ∈ (w.runtime.remove c.thread).1, d.reply < w.replies.size :=
    fun d member => there d (List.mem_filter.mp member).1
  simp only [detach, exec_bind, exec_onRuntime, goOn_ok]
  rw [exec_orphans c.thread _ { w with runtime := (w.runtime.remove c.thread).2 } quiet lost]
  have kept : ({ w with
      runtime := (w.runtime.remove c.thread).2
      replies := orphanedReplies c.thread (w.runtime.remove c.thread).1 w.replies } :
      World).realms[c.realm]? = some x := present
  simp only [goOn_ok, exec_realm _ _ x kept, exec_get, exec_ite, exec_bind, removeExecutor,
    exec_onRuntime, currentContext, exec_pure, detached]
  by_cases owner : x.owner = w.here
  · simp only [owner, ↓reduceIte, retired]
    cases current : w.current.lookup w.here with
    | none => rfl
    | some d =>
      by_cases same : d.thread = c.thread
      · simp [same, setCurrent]
      · simp [same]
  · simp only [owner, ↓reduceIte]

/-- The executor of the running thread is found or made. -/
theorem exec_currentExecutor (registered : w.Registered) :
    ∃ (e : ExecutorId) (executors : Array Executor) (registry : List (ThreadId × ExecutorId)),
      exec currentExecutor w =
        (.ok e, { w with executors, runtime := { w.runtime with executors := registry } }) ∧
      e < executors.size ∧ w.executors.size ≤ executors.size ∧
      ∀ p ∈ registry, p.2 < executors.size := by
  cases known : w.runtime.executors.lookup w.here with
  | some e =>
    have member : (w.here, e) ∈ w.runtime.executors := by
      obtain ⟨before, after, split, _⟩ := List.lookup_eq_some_iff.mp known
      rw [split]
      exact List.mem_append_right before List.mem_cons_self
    refine ⟨e, w.executors, w.runtime.executors, ?_, registered _ member, Nat.le_refl _,
      registered⟩
    simp only [currentExecutor, exec_bind, exec_get, goOn_ok, known, exec_pure]
  | none =>
    refine ⟨w.executors.size, w.executors.push (.create (w.threads[w.here]?.getD "")),
      w.runtime.executors ++ [(w.here, w.executors.size)], ?_, ?_, ?_, ?_⟩
    · simp only [currentExecutor, exec_bind, exec_get, goOn_ok, known, newExecutor,
        exec_modifyGet, exec_onRuntime, exec_pure]
    · simp only [Array.size_push, Nat.lt_add_one]
    · simp only [Array.size_push, Nat.le_add_right]
    · intro p member
      rw [Array.size_push]
      rcases List.mem_append.mp member with old | new
      · exact Nat.lt_succ_of_lt (registered p old)
      · rw [List.mem_singleton.mp new]
        exact Nat.lt_succ_self _

theorem exec_install (e : ExecutorId) (x : Executor) (present : w.executors[e]? = some x)
    (l : LoopId) :
    exec (install e l) w =
      (.ok (x.install l).1, { w with executors := w.executors.setIfInBounds e (x.install l).2 }) := by
  simp only [install, executor, exec_bind, exec_fetch (fun w => w.executors[e]?) w x present,
    goOn_ok, exec_modify, exec_pure]

/-- Where there is no room nothing happens; otherwise a fresh realm joins the runtime, and the
running thread has a context for it. -/
theorem exec_attach (l : LoopId) (registered : w.Registered) :
    exec (attach l) w = (.error .noRoom, w) ∨
    ∃ (heap : Host.Heap) (globalObject : ObjectId) (e : ExecutorId) (executors : Array Executor)
      (registry : List (ThreadId × ExecutorId)),
      exec (attach l) w =
        (.ok ⟨⟨w.runtime.nextThread⟩, w.realms.size, e, l⟩,
          (w.staffed heap executors registry
            (w.seated ⟨⟨w.runtime.nextThread⟩, w.realms.size, e, l⟩)).joined
              (w.newRealm l globalObject) l) ∧
      w.executors.size ≤ executors.size ∧ ∀ p ∈ registry, p.2 < executors.size := by
  by_cases room : w.runtime.config.layout.hasRoom w.runtime.config.initialCapacity
  · right
    let born := w.heap.alloc (.plain (some globalClass))
    let x := w.newRealm l born.1
    let housed := { w with heap := born.2, realms := w.realms.push x }
    obtain ⟨e, executors, registry, found, there, more, listed⟩ :=
      exec_currentExecutor housed registered
    let staffed := { housed with
      executors, runtime := { w.runtime with executors := registry } }
    have present : staffed.executors[e]? = some executors[e] := Array.getElem?_eq_getElem there
    refine ⟨born.2, born.1, e, executors.setIfInBounds e (executors[e].install l).2, registry,
      ?_, ?_, ?_⟩
    · simp only [attach, exec_bind, exec_get, goOn_ok, assertRoom, room, ↓reduceIte, exec_pure,
        newObject, onHeap, exec_modifyGet, exec_modify]
      show goOn (exec currentExecutor housed) _ = _
      rw [found, goOn_ok, exec_bind]
      show goOn (exec (install e l) staffed) _ = _
      rw [exec_install staffed e _ present]
      rfl
    · rw [Array.size_setIfInBounds]
      exact more
    · intro p member
      rw [Array.size_setIfInBounds]
      exact listed p member
  · left
    simp only [attach, exec_bind, exec_get, goOn_ok, assertRoom, room, Bool.false_eq_true,
      ↓reduceIte, exec_throw, goOn_error]

end Act

end Membrane
