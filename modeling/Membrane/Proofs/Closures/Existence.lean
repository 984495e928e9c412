import Mathlib.Data.List.Basic
import Membrane.World.Existence
/-!
What exists, said without counting. Objects, promises and loops exist together: there is a copy of
each one somewhere, and a copy counts if it is at a place of its own or in something that exists. The
rounds that the runtime counts off come to rest at the greatest such set.
-/

set_option autoImplicit false

namespace Membrane

/-- A set of objects, promises and loops. -/
structure Things where
  objects : ObjectId → Prop
  promises : PromiseId → Prop
  loops : LoopId → Prop

/-- Whether a value is none of them. -/
def Things.Lacks (L : Things) (v : Host.Value) : Prop := ∀ o, v = .object o → ¬L.objects o

/-- What is in both of two sets is in a third one. -/
structure Things.MeetWithin (D L M : Things) : Prop where
  objects : ∀ o, D.objects o → L.objects o → M.objects o
  promises : ∀ p, D.promises p → L.promises p → M.promises p
  loops : ∀ l, D.loops l → L.loops l → M.loops l

/-- One set is part of another. -/
structure Things.Within (L M : Things) : Prop where
  objects : ∀ o, L.objects o → M.objects o
  promises : ∀ p, L.promises p → M.promises p
  loops : ∀ l, L.loops l → M.loops l

namespace World

/-- Whether a realm knows a guest function as long as some objects exist: without weak references it
does until it is told to forget it, with them as long as its function object exists. -/
def Remembers (w : World) (L : Things) (x : Realm) (r : RealmId) (id : FunctionId) : Prop :=
  x.features.weakRefs = true →
    ∀ o y, w.heap.get? o = some y → y.kind = .guestFunction r id → L.objects o

/-- Where there is a copy of a value, if some objects, promises and loops exist. -/
inductive HasCopy (w : World) (L : Things) (v : Host.Value) : Prop
  /-- A receiver, an argument, a callee or an answer of a call that is not over. -/
  | inFlight (held : v ∈ w.pins)
  /-- A register of the host. -/
  | register {name : String} (held : (name, v) ∈ w.registers.values)
  /-- The table of a realm. -/
  | table {r : RealmId} {x : Realm} (kept : w.holdsRealm r = true) (present : w.realms[r]? = some x)
      (held : v ∈ x.table.values)
  /-- The slot of a realm for what was thrown. -/
  | slot {r : RealmId} {x : Realm} (kept : w.holdsRealm r = true) (present : w.realms[r]? = some x)
      (held : x.exception = some v)
  | globalObject {r : RealmId} {x : Realm} (kept : w.holdsRealm r = true)
      (present : w.realms[r]? = some x) (held : v = .object x.globalObject)
  /-- A guest function that is known. -/
  | guestFunction {r : RealmId} {x : Realm} {id : FunctionId} {f : Guest.Function}
      (kept : w.holdsRealm r = true) (present : w.realms[r]? = some x)
      (known : (id, f) ∈ x.closures.entries) (remembered : w.Remembers L x r id) (held : v ∈ f.holds)
  | imported {name : String} {i : Import} (known : (name, i) ∈ w.runtime.imports) (held : v ∈ i.holds)
  /-- A job that waits in a loop. -/
  | queued {l : LoopId} {c : LoopCell} {job : Job} (present : w.loops[l]? = some c)
      (exists_ : L.loops l) (waits : job ∈ c.queue.jobs) (held : v ∈ job.values)
  /-- An outcome that was sent to a task and not read. -/
  | sent {i : Nat} {c : Channel Outcome} {outcome : Outcome} (present : w.awaits[i]? = some c)
      (sent : c.state = .sent outcome) (held : v = outcome.value)
  /-- A property of an object, or what its code refers to. -/
  | object {o : ObjectId} {x : Host.Object} (present : w.heap.get? o = some x)
      (exists_ : L.objects o) (held : v ∈ x.references)
  /-- The outcome of a promise. -/
  | outcome {p : PromiseId} {x : Promise Reaction} {outcome : Outcome}
      (present : w.promises[p]? = some x) (exists_ : L.promises p)
      (settled : x.outcome? = some outcome) (held : v = outcome.value)

/-- What holds a promise. -/
inductive HoldsPromise (w : World) (L : Things) (p : PromiseId) : Prop
  | register {name : String} (held : (name, p) ∈ w.registers.promises)
  | queued {l : LoopId} {c : LoopCell} {job : Job} (present : w.loops[l]? = some c)
      (exists_ : L.loops l) (waits : job ∈ c.queue.jobs) (held : p ∈ job.promises)
  | awaited {i : TaskId} {t : Task} (present : w.tasks[i]? = some t) (held : awaitedPromise? t = some p)
  /-- A reaction that waits holds the promise that it waits for. -/
  | itself {x : Promise Reaction} (present : w.promises[p]? = some x) (exists_ : L.promises p)
      (held : x.reactions.any (·.held?.isSome))
  | object {o : ObjectId} {x : Host.Object} (present : w.heap.get? o = some x)
      (exists_ : L.objects o) (held : x.kind = .promise p)

/-- The loops that are held whatever else exists. -/
def rootLoops (w : World) : List LoopId :=
  w.registers.loops.map (·.2) ++
    w.registers.guards.map (·.2) ++
    w.registers.workers.filterMap (fun (_, i) => (w.workers[i]?).map (·.context.loop)) ++
    w.heldContexts.flatMap w.contextLoops ++
    w.heldExecutors.filterMap w.executorLoop? ++
    w.runtime.attached.map (·.loop) ++
    w.heldRealms.filterMap (fun r => (w.realms[r]?).map (·.loop)) ++
    w.receives.toList.filterMap (fun
      | some (.waiting _ _ l) => some l
      | _ => none)

/-- The loops that are held by something else than a realm. -/
def outerLoops (w : World) : List LoopId :=
  w.registers.loops.map (·.2) ++
    w.registers.guards.map (·.2) ++
    w.registers.workers.filterMap (fun (_, i) => (w.workers[i]?).map (·.context.loop)) ++
    w.heldContexts.flatMap w.contextLoops ++
    w.heldExecutors.filterMap w.executorLoop? ++
    w.runtime.attached.map (·.loop) ++
    w.receives.toList.filterMap (fun
      | some (.waiting _ _ l) => some l
      | _ => none)

theorem mem_rootLoops_iff (w : World) (l : LoopId) :
    l ∈ w.rootLoops ↔ l ∈ w.outerLoops ∨
      ∃ r x, w.holdsRealm r = true ∧ w.realms[r]? = some x ∧ x.loop = l := by
  have realms : l ∈ w.heldRealms.filterMap (fun r => (w.realms[r]?).map (·.loop)) ↔
      ∃ r x, w.holdsRealm r = true ∧ w.realms[r]? = some x ∧ x.loop = l := by
    simp only [List.mem_filterMap, Option.map_eq_some_iff, holdsRealm, List.contains_iff_mem,
      exists_and_left]
  simp only [rootLoops, outerLoops, List.mem_append, realms]
  exact or_right_comm

/-- What holds a loop. -/
inductive HoldsLoop (w : World) (L : Things) (l : LoopId) : Prop
  | root (held : l ∈ w.rootLoops)
  | promise {p : PromiseId} {x : Promise Reaction} (present : w.promises[p]? = some x)
      (exists_ : L.promises p) (held : x.loop = l)
  | queued {k : LoopId} {c : LoopCell} {job : Job} (present : w.loops[k]? = some c)
      (exists_ : L.loops k) (waits : job ∈ c.queue.jobs) (held : l ∈ w.jobLoops job)

/-- Everything in a set is there and is held by something, where the things in the set count. -/
structure Sustains (w : World) (L : Things) : Prop where
  objects : ∀ o, L.objects o → o < w.heap.objects.size ∧ w.HasCopy L (.object o)
  promises : ∀ p, L.promises p → p < w.promises.size ∧ w.HoldsPromise L p
  loops : ∀ l, L.loops l → l < w.loops.size ∧ w.HoldsLoop L l

/-- What exists: all sets that sustain themselves, taken together. -/
def living (w : World) : Things where
  objects o := ∃ L, w.Sustains L ∧ L.objects o
  promises p := ∃ L, w.Sustains L ∧ L.promises p
  loops l := ∃ L, w.Sustains L ∧ L.loops l

/-- An object exists if some copy of it does. -/
def Exists (w : World) (o : ObjectId) : Prop := w.living.objects o

variable {w : World} {L M : Things}

theorem Remembers.mono {x : Realm} {r : RealmId} {id : FunctionId} (sub : L.Within M)
    (remembers : w.Remembers L x r id) : w.Remembers M x r id :=
  fun weak o y there kind => sub.objects o (remembers weak o y there kind)

theorem HasCopy.mono {v : Host.Value} (sub : L.Within M) (copy : w.HasCopy L v) : w.HasCopy M v := by
  cases copy with
  | inFlight held => exact .inFlight held
  | register held => exact .register held
  | table kept present held => exact .table kept present held
  | slot kept present held => exact .slot kept present held
  | globalObject kept present held => exact .globalObject kept present held
  | guestFunction kept present known remembered held =>
    exact .guestFunction kept present known (remembered.mono sub) held
  | imported known held => exact .imported known held
  | queued present exists_ waits held => exact .queued present (sub.loops _ exists_) waits held
  | sent present sent held => exact .sent present sent held
  | object present exists_ held => exact .object present (sub.objects _ exists_) held
  | outcome present exists_ settled held =>
    exact .outcome present (sub.promises _ exists_) settled held

theorem HoldsPromise.mono {p : PromiseId} (sub : L.Within M) (holds : w.HoldsPromise L p) :
    w.HoldsPromise M p := by
  cases holds with
  | register held => exact .register held
  | queued present exists_ waits held => exact .queued present (sub.loops _ exists_) waits held
  | awaited present held => exact .awaited present held
  | itself present exists_ held => exact .itself present (sub.promises _ exists_) held
  | object present exists_ held => exact .object present (sub.objects _ exists_) held

theorem HoldsLoop.mono {l : LoopId} (sub : L.Within M) (holds : w.HoldsLoop L l) :
    w.HoldsLoop M l := by
  cases holds with
  | root held => exact .root held
  | promise present exists_ held => exact .promise present (sub.promises _ exists_) held
  | queued present exists_ waits held => exact .queued present (sub.loops _ exists_) waits held

theorem Sustains.within (sustains : w.Sustains L) : L.Within w.living where
  objects _ h := ⟨L, sustains, h⟩
  promises _ h := ⟨L, sustains, h⟩
  loops _ h := ⟨L, sustains, h⟩

theorem sustains_living : w.Sustains w.living where
  objects := by
    rintro o ⟨L, sustains, h⟩
    obtain ⟨there, copy⟩ := sustains.objects o h
    exact ⟨there, copy.mono sustains.within⟩
  promises := by
    rintro p ⟨L, sustains, h⟩
    obtain ⟨there, holds⟩ := sustains.promises p h
    exact ⟨there, holds.mono sustains.within⟩
  loops := by
    rintro l ⟨L, sustains, h⟩
    obtain ⟨there, holds⟩ := sustains.loops l h
    exact ⟨there, holds.mono sustains.within⟩

/-- What exists and what is held, if that exists as well, sustain one another. -/
theorem sustains_of_more (more : w.living.Within L)
    (objects : ∀ o, L.objects o →
      w.living.objects o ∨ o < w.heap.objects.size ∧ w.HasCopy L (.object o))
    (promises : ∀ p, L.promises p →
      w.living.promises p ∨ p < w.promises.size ∧ w.HoldsPromise L p)
    (loops : ∀ l, L.loops l → w.living.loops l ∨ l < w.loops.size ∧ w.HoldsLoop L l) :
    w.Sustains L := by
  refine ⟨fun o h => (objects o h).elim (fun h => ?_) id,
    fun p h => (promises p h).elim (fun h => ?_) id, fun l h => (loops l h).elim (fun h => ?_) id⟩
  · exact (sustains_living.objects o h).imp id (HasCopy.mono more)
  · exact (sustains_living.promises p h).imp id (HoldsPromise.mono more)
  · exact (sustains_living.loops l h).imp id (HoldsLoop.mono more)

/-- Whatever there is a copy of exists. -/
theorem living_objects_of_copy {o : ObjectId} (there : o < w.heap.objects.size)
    (copy : w.HasCopy w.living (.object o)) : w.living.objects o := by
  let L : Things := { w.living with objects := fun i => w.living.objects i ∨ i = o }
  have more : w.living.Within L := ⟨fun _ => .inl, fun _ => id, fun _ => id⟩
  refine ⟨L, sustains_of_more more ?_ (fun _ => .inl) (fun _ => .inl), Or.inr rfl⟩
  rintro i (h | rfl)
  · exact .inl h
  · exact .inr ⟨there, copy.mono more⟩

theorem living_promises_of_held {p : PromiseId} (there : p < w.promises.size)
    (holds : w.HoldsPromise w.living p) : w.living.promises p := by
  let L : Things := { w.living with promises := fun i => w.living.promises i ∨ i = p }
  have more : w.living.Within L := ⟨fun _ => id, fun _ => .inl, fun _ => id⟩
  refine ⟨L, sustains_of_more more (fun _ => .inl) ?_ (fun _ => .inl), Or.inr rfl⟩
  rintro i (h | rfl)
  · exact .inl h
  · exact .inr ⟨there, holds.mono more⟩

theorem living_loops_of_held {l : LoopId} (there : l < w.loops.size)
    (holds : w.HoldsLoop w.living l) : w.living.loops l := by
  let L : Things := { w.living with loops := fun i => w.living.loops i ∨ i = l }
  have more : w.living.Within L := ⟨fun _ => id, fun _ => id, fun _ => .inl⟩
  refine ⟨L, sustains_of_more more (fun _ => .inl) (fun _ => .inl) ?_, Or.inr rfl⟩
  rintro i (h | rfl)
  · exact .inl h
  · exact .inr ⟨there, holds.mono more⟩

end World

end Membrane
