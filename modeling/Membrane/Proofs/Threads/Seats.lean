import Mathlib.Algebra.Group.Nat.Defs
import Membrane.World.Process
import Membrane.Proofs.World.Thread
/-!
Threads attach themselves to runtimes and detach what they attached, or what others did. What each
of these does to the contexts of the threads and to the tables of the runtimes.
-/

set_option autoImplicit false

namespace Membrane

namespace World

variable (w : World)

/-- The current context of a thread is replaced, and that of no other thread. -/
theorem lookup_seated (c : Context) (thread : ThreadId) :
    (w.seated c).lookup thread = if thread = w.here then some c else w.current.lookup thread := by
  have kept := lookup_filter (fun i => i != w.here) w.current thread
  rw [seated, List.lookup_append, kept]
  by_cases mine : thread = w.here
  · subst mine
    simp
  · have other : (thread == w.here) = false := beq_false_of_ne mine
    simp [mine, List.lookup_cons, other]

/-- Only the thread of a context that goes looks at its current context, and it loses that one if it
has the number that goes. -/
theorem lookup_detached (c : Context) (x : Realm) (thread : ThreadId) :
    (w.detached c x).current.lookup thread =
      if thread = w.here ∧ x.owner = w.here ∧
        (w.current.lookup w.here).any (·.thread = c.thread) then none
      else w.current.lookup thread := by
  have kept := lookup_filter (fun i => i != w.here) w.current thread
  unfold detached retired
  by_cases mine : x.owner = w.here
  · cases current : w.current.lookup w.here with
    | none => simp [mine, current]
    | some d =>
      by_cases same : d.thread = c.thread
      · by_cases here : thread = w.here
        · simp [mine, current, same, here, lookup_filter (fun i => i != w.here)]
        · simp [mine, current, same, here, kept]
      · simp [mine, current, same]
  · simp [mine]

end World

namespace Process

variable (p : Process)

/-- The world as a thread finds it that acts on a runtime. -/
def view (runtime : Runtime) (thread : ThreadId) : World :=
  { p.world with runtime, here := thread }

/-- The process after a thread acted on a runtime. -/
def updated (r : RuntimeId) (w : World) : Process :=
  ⟨{ w with here := p.world.here }, p.runtimes.setIfInBounds r w.runtime⟩

/-- The thread that a realm belongs to. -/
def owner? (realm : RealmId) : Option ThreadId := (p.world.realms[realm]?).map (·.owner)

/-- Nobody waits for a transfer, and every executor that a runtime lists is there. -/
structure Sound : Prop where
  quiet : p.world.Quiet
  idle : ∀ (r : RuntimeId) (runtime : Runtime), p.runtimes[r]? = some runtime →
    runtime.waiting = []
  registered : ∀ (r : RuntimeId) (runtime : Runtime), p.runtimes[r]? = some runtime →
    ∀ e ∈ runtime.executors, e.2 < p.world.executors.size

/-- Two processes in which the threads have the same contexts and the runtimes the same tables. -/
structure Alike (p p' : Process) : Prop where
  current : p'.current? = p.current?
  owner : p'.owner? = p.owner?
  runtimes : p'.runtimes = p.runtimes

/-- A thread has joined a runtime under the next of its numbers. -/
structure Joined (p : Process) (runtime : Runtime) (m : Member) (p' : Process) : Prop where
  number : m.context.thread = ⟨runtime.nextThread⟩
  fresh : p.owner? m.context.realm = none
  current : ∀ thread,
    p'.current? thread = if thread = m.owner then some m.context else p.current? thread
  owner : ∀ realm,
    p'.owner? realm = if realm = m.context.realm then some m.owner else p.owner? realm
  table : ∃ runtime', p'.runtimes[m.runtime]? = some runtime' ∧
    runtime'.nextThread = runtime.nextThread + 1 ∧
    ∀ i, runtime'.isAttached i = (runtime.isAttached i || i == m.context.thread)
  others : ∀ r, r ≠ m.runtime → p'.runtimes[r]? = p.runtimes[r]?

/-- A thread has taken a context out of the table of its runtime. Only on the thread of that context
is the current context looked at, and only for its number. -/
structure Parted (p : Process) (runtime : Runtime) (thread : ThreadId) (m : Member)
    (p' : Process) : Prop where
  current : ∀ t, p'.current? t =
    if t = thread ∧ m.owner = thread ∧ (p.current? t).any (·.thread = m.context.thread) then none
    else p.current? t
  owner : p'.owner? = p.owner?
  table : ∃ runtime', p'.runtimes[m.runtime]? = some runtime' ∧
    runtime'.nextThread = runtime.nextThread ∧
    ∀ i, runtime'.isAttached i = (runtime.isAttached i && i != m.context.thread)
  others : ∀ r, r ≠ m.runtime → p'.runtimes[r]? = p.runtimes[r]?

variable {p} {r : RuntimeId} {runtime : Runtime}

theorem within_eq {α : Type} (there : p.runtimes[r]? = some runtime) (thread : ThreadId)
    (act : Act α) :
    p.within r thread act =
      ((act.exec (p.view runtime thread)).1, p.updated r (act.exec (p.view runtime thread)).2) := by
  have turned := Act.exec_asThread thread act { p.world with runtime }
  simp only [within, there]
  change (let (result, world) := (Act.asThread thread act).exec { p.world with runtime }
    ((result, { world, runtimes := p.runtimes.setIfInBounds r world.runtime }) :
      Except Halt α × Process)) = _
  rw [turned]
  rfl

theorem updated_view (there : p.runtimes[r]? = some runtime) (thread : ThreadId) :
    Alike p (p.updated r (p.view runtime thread)) :=
  ⟨rfl, rfl, written_self p.runtimes r runtime there⟩

theorem runtimes_updated (there : p.runtimes[r]? = some runtime) (w : World) (j : RuntimeId) :
    (p.updated r w).runtimes[j]? = if j = r then some w.runtime else p.runtimes[j]? :=
  getElem?_written p.runtimes r runtime w.runtime there j

/-- A runtime is written back as it was found or with other tables; the others are as they were. -/
theorem Sound.updated (sound : p.Sound) (there : p.runtimes[r]? = some runtime) (w : World)
    (quiet : w.Quiet) (idle : w.runtime.waiting = [])
    (listed : ∀ e ∈ w.runtime.executors, e.2 < w.executors.size)
    (more : p.world.executors.size ≤ w.executors.size) : (p.updated r w).Sound := by
  refine ⟨quiet, ?_, ?_⟩
  · intro j other found
    rw [runtimes_updated there] at found
    by_cases same : j = r
    · simp only [same, if_true, Option.some.injEq] at found
      rw [← found]
      exact idle
    · simp only [same, if_false] at found
      exact sound.idle j other found
  · intro j other found e member
    rw [runtimes_updated there] at found
    by_cases same : j = r
    · simp only [same, if_true, Option.some.injEq] at found
      subst found
      exact listed e member
    · simp only [same, if_false] at found
      exact Nat.lt_of_lt_of_le (sound.registered j other found e member) more

theorem Sound.alike {p' : Process} (sound : p.Sound) (alike : Alike p p')
    (executors : p'.world.executors = p.world.executors)
    (replies : p'.world.replies = p.world.replies) : p'.Sound := by
  refine ⟨?_, ?_, ?_⟩
  · simpa only [World.Quiet, replies] using sound.quiet
  · simpa only [alike.runtimes] using sound.idle
  · simpa only [alike.runtimes, executors] using sound.registered

end Process

namespace Runtime

theorem isAttached_attach (runtime : Runtime) (realm : RealmId) (l : LoopId) (i : ThreadIndex) :
    (runtime.attach realm l).isAttached i = (runtime.isAttached i || i == ⟨runtime.nextThread⟩) := by
  rw [Bool.eq_iff_iff]
  simp only [isAttached_iff, attach, List.mem_append, List.mem_singleton, Bool.or_eq_true,
    beq_iff_eq]
  grind

theorem isAttached_remove (runtime : Runtime) (thread i : ThreadIndex) :
    (runtime.remove thread).2.isAttached i = (runtime.isAttached i && i != thread) := by
  rw [Bool.eq_iff_iff]
  simp only [isAttached_iff, remove, List.mem_filter, Bool.and_eq_true, bne_iff_ne]
  grind

end Runtime

namespace Process

variable {p : Process} {r : RuntimeId} {runtime : Runtime}

/-- A thread attaches itself, unless there is no room for a realm. -/
theorem Sound.attach (sound : p.Sound) (there : p.runtimes[r]? = some runtime) (thread : ThreadId)
    (l : LoopId) :
    (∃ p', p.attach thread r l = (.error .noRoom, p') ∧ p'.Sound ∧ Alike p p') ∨
    ∃ m p', p.attach thread r l = (.ok m, p') ∧ p'.Sound ∧ m.runtime = r ∧ m.owner = thread ∧
      Joined p runtime m p' := by
  have registered : (p.view runtime thread).Registered := sound.registered r runtime there
  have same := updated_view there thread
  rcases Act.exec_attach (p.view runtime thread) l registered with full |
    ⟨heap, globalObject, e, executors, registry, done, more, listed⟩
  · left
    refine ⟨p.updated r (p.view runtime thread), ?_, sound.alike same rfl rfl, same⟩
    simp only [Process.attach, within_eq there, full]
    rfl
  · right
    let c : Context := ⟨⟨runtime.nextThread⟩, p.world.realms.size, e, l⟩
    let w := ((p.view runtime thread).staffed heap executors registry
      ((p.view runtime thread).seated c)).joined ((p.view runtime thread).newRealm l globalObject) l
    have answer : p.attach thread r l = (.ok ⟨r, thread, c⟩, p.updated r w) := by
      simp only [Process.attach, within_eq there, done]
      rfl
    refine ⟨⟨r, thread, c⟩, p.updated r w, answer, ?_, rfl, rfl, ?_⟩
    · apply sound.updated there w
      · exact sound.quiet
      · exact sound.idle r runtime there
      · exact listed
      · exact more
    · refine ⟨rfl, ?_, ?_, ?_, ⟨w.runtime, ?_, rfl, ?_⟩, ?_⟩
      · simp [owner?, c]
      · intro t
        exact World.lookup_seated (p.view runtime thread) c t
      · intro realm
        change ((p.world.realms.push _)[realm]?).map Realm.owner = _
        rw [getElem?_pushed]
        by_cases last : realm = p.world.realms.size
        · simp [c, last, World.newRealm, Realm.create, view]
        · simp [c, last, owner?]
      · rw [runtimes_updated there, if_pos rfl]
      · intro i
        exact Runtime.isAttached_attach _ _ _ i
      · intro j other
        rw [runtimes_updated there, if_neg other]

theorem Sound.detach_eq (sound : p.Sound) (m : Member)
    (there : p.runtimes[m.runtime]? = some runtime) (x : Realm)
    (present : p.world.realms[m.context.realm]? = some x) (thread : ThreadId) :
    p.detach thread m =
      (.ok (), p.updated m.runtime ((p.view runtime thread).detached m.context x)) := by
  have idle : (p.view runtime thread).runtime.waiting = [] := sound.idle m.runtime runtime there
  have done := Act.exec_detach (p.view runtime thread) m.context x present sound.quiet
    (by simp [idle])
  rw [Process.detach, within_eq there, done]

/-- To detach a context always comes to its end. -/
theorem Sound.detach (sound : p.Sound) (m : Member) (there : p.runtimes[m.runtime]? = some runtime)
    (housed : p.owner? m.context.realm = some m.owner) (thread : ThreadId) :
    ∃ p', p.detach thread m = (.ok (), p') ∧ p'.Sound ∧ Parted p runtime thread m p' := by
  obtain ⟨x, present, owner⟩ := Option.map_eq_some_iff.mp housed
  have idle : (p.view runtime thread).runtime.waiting = [] := sound.idle m.runtime runtime there
  have unasked : ((p.view runtime thread).runtime.remove m.context.thread).1 = [] := by
    simp [Runtime.remove, idle]
  let w := (p.view runtime thread).detached m.context x
  have answer : p.detach thread m = (.ok (), p.updated m.runtime w) :=
    sound.detach_eq m there x present thread
  have same_executors : w.executors = p.world.executors := by
    simp only [w, World.detached]
    split <;> rfl
  refine ⟨p.updated m.runtime w, answer, ?_, ?_⟩
  · apply sound.updated there w
    · have same : w.replies = p.world.replies := by
        simp only [w, World.detached, unasked]
        split <;> rfl
      simpa only [World.Quiet, same] using sound.quiet
    · simp only [w, World.detached]
      split <;> simp [World.retired, Runtime.remove, idle]
    · intro f member
      have listed : f ∈ runtime.executors := by
        simp only [w, World.detached] at member
        split at member
        · exact (List.mem_filter.mp member).1
        · exact member
      rw [same_executors]
      exact sound.registered m.runtime runtime there f listed
    · exact Nat.le_of_eq (congrArg Array.size same_executors.symm)
  · refine ⟨?_, ?_, ⟨w.runtime, ?_, ?_, ?_⟩, ?_⟩
    · intro t
      have looked : (p.updated m.runtime w).current? t = _ :=
        (p.view runtime thread).lookup_detached m.context x t
      rw [looked, owner]
      by_cases own : t = thread
      · subst own
        rfl
      · simp [own, view, current?]
    · funext realm
      simp only [owner?, Process.updated, w, World.detached]
      split <;> rfl
    · rw [runtimes_updated there, if_pos rfl]
    · simp only [w, World.detached]
      split <;> rfl
    · intro i
      have removed := Runtime.isAttached_remove runtime m.context.thread i
      simp only [w, World.detached]
      split <;> exact removed
    · intro j other
      rw [runtimes_updated there, if_neg other]

end Process

end Membrane
