import Membrane.Proofs.Closures.Moves
import Membrane.Proofs.Closures.Survivors
/-!
What does not exist any more is sealed off: nothing that exists leads to it, so nothing that is done
reaches it, and it stays as it is. A world that is sealed off from the dead of an earlier one leads to
none of them, and they do not exist in it.
-/

set_option autoImplicit false

namespace Membrane

open Host.Heap (get?_alloc get?_setProperty)

namespace World

/-- What is there and does not exist. Open promises may be known to code that runs. -/
def dead (w : World) : Things where
  objects o := o < w.heap.objects.size ∧ ¬w.living.objects o
  promises p := p < w.promises.size ∧ ¬w.living.promises p ∧ ¬w.Open p
  loops l := l < w.loops.size ∧ ¬w.living.loops l

/-- Each realm is attached. -/
def Attached (w : World) : Prop :=
  ∀ (r : RealmId) x, w.realms[r]? = some x → ∃ a ∈ w.runtime.attached, a.realm = r

/-- A world that leads to nothing that was dead in an earlier one. -/
structure Sealed (w₀ w : World) : Prop where
  backdrop : w.backdrop = w₀.backdrop
  objects : ∀ o, w₀.dead.objects o → w.heap.get? o = w₀.heap.get? o
  promises : ∀ p : PromiseId, w₀.dead.promises p → w.promises[p]? = w₀.promises[p]?
  loops : ∀ l : LoopId, w₀.dead.loops l → w.loops[l]? = w₀.loops[l]?
  pinned : ∀ v ∈ w.pins, w₀.dead.Lacks v
  named : ∀ name v, (name, v) ∈ w.registers.values → w₀.dead.Lacks v
  held : ∀ (r : RealmId) x, w.realms[r]? = some x → ∀ v ∈ x.held, w₀.dead.Lacks v
  realms : ∀ (r : RealmId) x, w.realms[r]? = some x →
    ¬w₀.dead.loops x.loop ∧ ∃ x₀, w₀.realms[r]? = some x₀ ∧ x₀.loop = x.loop
  queued : ∀ (l : LoopId) c job, ¬w₀.dead.loops l → w.loops[l]? = some c → job ∈ c.queue.jobs →
    (∀ v ∈ job.values, w₀.dead.Lacks v) ∧ (∀ p ∈ job.promises, ¬w₀.dead.promises p) ∧
      ∀ k ∈ w.jobLoops job, ¬w₀.dead.loops k
  heap : ∀ o x, ¬w₀.dead.objects o → w.heap.get? o = some x →
    (∀ v ∈ x.references, w₀.dead.Lacks v) ∧ ∀ p, x.kind = .promise p → ¬w₀.dead.promises p
  outcomes : ∀ (p : PromiseId) x, ¬w₀.dead.promises p → w.promises[p]? = some x →
    (∀ outcome, x.outcome? = some outcome → w₀.dead.Lacks outcome.value) ∧ ¬w₀.dead.loops x.loop

variable {w₀ w w' : World} {A B : List Host.Value} {v : Host.Value}

/-! What there is a copy of is not dead -/

theorem lacks_of_copy (copy : w.HasCopy w.living v) : w.dead.Lacks v := by
  rintro o rfl ⟨there, gone⟩
  exact gone (living_objects_of_copy there copy)

theorem not_dead_promise (p : PromiseId) (holds : w.HoldsPromise w.living p) :
    ¬w.dead.promises p := by
  rintro ⟨there, gone, _⟩
  exact gone (living_promises_of_held there holds)

theorem not_dead_loop (l : LoopId) (holds : w.HoldsLoop w.living l) : ¬w.dead.loops l := by
  rintro ⟨there, gone⟩
  exact gone (living_loops_of_held there holds)

theorem Attached.holdsRealm (attached : w.Attached) {r : RealmId} {x : Realm}
    (present : w.realms[r]? = some x) : w.holdsRealm r = true := by
  obtain ⟨a, there, rfl⟩ := attached r x present
  rw [World.holdsRealm, List.contains_iff_mem, heldRealms]
  simp only [List.mem_append, List.mem_map]
  tauto

theorem Attached.grows (attached : w.Attached) (grows : Grows w w') : w'.Attached := by
  intro r x present
  obtain ⟨y, there, _⟩ := grows.realm present
  rw [grows.runtime]
  exact attached r y there

theorem Attached.not_dead_loop (attached : w.Attached) {r : RealmId} {x : Realm}
    (present : w.realms[r]? = some x) : ¬w.dead.loops x.loop := by
  refine World.not_dead_loop _ (.root ?_)
  have kept := attached.holdsRealm present
  rw [World.holdsRealm, List.contains_iff_mem] at kept
  simp only [rootLoops, List.mem_append, List.mem_filterMap]
  exact Or.inl (Or.inr ⟨r, kept, by rw [present]; rfl⟩)

/-- In a world where every realm is attached, forgetting what does not exist seals it off. -/
theorem sealed_sweep (attached : w.Attached) : Sealed w w.sweep := by
  have realms (r : RealmId) (x' : Realm) (there : w.sweep.realms[r]? = some x') :
      ∃ x, w.realms[r]? = some x ∧ x.loop = x'.loop ∧ ∀ v ∈ x'.held, w.dead.Lacks v := by
    obtain ⟨x, present, recalls⟩ := (Grows.sweep w).realm there
    have kept := attached.holdsRealm present
    obtain rfl := Option.some.inj (there.symm.trans (realms_sweep_of_held kept present))
    refine ⟨x, present, rfl, fun v held => ?_⟩
    obtain held | held | held | ⟨id, f, known, held⟩ := (Realm.mem_held_iff _ v).mp held
    · exact lacks_of_copy (.table kept present held)
    · exact lacks_of_copy (.slot kept present held)
    · exact lacks_of_copy (.globalObject kept present held)
    · obtain ⟨known, remembered⟩ := List.mem_filter.mp known
      have remembered := (isForgotten_iff present id).mp (by simpa using remembered)
      exact lacks_of_copy (.guestFunction kept present known remembered held)
  rw [sweep_eq]
  refine ⟨rfl, fun _ _ => rfl, fun _ _ => rfl, fun _ _ => rfl, ?_, ?_, ?_, ?_, ?_, ?_, ?_⟩
  · exact fun v held => lacks_of_copy (.inFlight held)
  · exact fun name v held => lacks_of_copy (.register held)
  · intro r x' there
    obtain ⟨_, _, _, held⟩ := realms r x' there
    exact held
  · intro r x' there
    obtain ⟨x, present, loop, _⟩ := realms r x' there
    exact ⟨loop ▸ attached.not_dead_loop present, x, present, loop⟩
  · intro l c job alive there waits
    have exists_ : w.living.loops l := by
      by_contra gone
      exact alive ⟨(Array.getElem?_eq_some_iff.mp there).1, gone⟩
    exact ⟨fun v held => lacks_of_copy (.queued there exists_ waits held),
      fun p held => not_dead_promise p (.queued there exists_ waits held),
      fun k held => not_dead_loop k (.queued there exists_ waits held)⟩
  · intro o x alive there
    have exists_ : w.living.objects o := by
      by_contra gone
      exact alive ⟨(Array.getElem?_eq_some_iff.mp there).1, gone⟩
    exact ⟨fun v held => lacks_of_copy (.object there exists_ held),
      fun p kind => not_dead_promise p (.object there exists_ kind)⟩
  · intro p x alive there
    by_cases isOpen : w.Open p
    · obtain ⟨y, found, waits, r, z, present, loop⟩ := isOpen
      obtain rfl := Option.some.inj (there.symm.trans found)
      refine ⟨fun outcome settled => ?_, loop ▸ attached.not_dead_loop present⟩
      rw [waits] at settled
      cases settled
    · have exists_ : w.living.promises p := by
        by_contra gone
        exact alive ⟨(Array.getElem?_eq_some_iff.mp there).1, gone, isOpen⟩
      exact ⟨fun outcome settled => lacks_of_copy (.outcome there exists_ settled rfl),
        not_dead_loop _ (.promise there exists_ rfl)⟩

/-! What is sealed off does not exist -/

section

variable {S M : Things} (shut : Sealed w₀ w)

include shut

/-- What holds something dead is dead itself, and held it before. -/
theorem Sealed.copy_back (both : w₀.dead.MeetWithin S M)
    {o : ObjectId} (gone : w₀.dead.objects o) (copy : w.HasCopy S (.object o)) :
    w₀.HasCopy M (.object o) := by
  have alive {v : Host.Value} (lacks : w₀.dead.Lacks v) (same : .object o = v) :
      w₀.HasCopy M (.object o) := absurd gone (lacks o same.symm)
  cases copy with
  | inFlight held => exact alive (shut.pinned _ held) rfl
  | register held => exact alive (shut.named _ _ held) rfl
  | table _ present held =>
    exact alive (shut.held _ _ present _ ((Realm.mem_held_iff _ _).mpr (.inl held))) rfl
  | slot _ present held =>
    exact alive (shut.held _ _ present _ ((Realm.mem_held_iff _ _).mpr (.inr (.inl held)))) rfl
  | globalObject _ present held =>
    exact alive
      (shut.held _ _ present _ ((Realm.mem_held_iff _ _).mpr (.inr (.inr (.inl held))))) rfl
  | guestFunction _ present known _ held =>
    exact alive (shut.held _ _ present _
      ((Realm.mem_held_iff _ _).mpr (.inr (.inr (.inr ⟨_, _, known, held⟩))))) rfl
  | imported known held =>
    have same : w.runtime = w₀.runtime :=
      eq_of_backdrop World.runtime shut.backdrop fun _ => rfl
    exact .imported (same ▸ known) held
  | @queued l c job present exists_ waits held =>
    by_cases there : w₀.dead.loops l
    · exact .queued ((shut.loops l there).symm.trans present) (both.loops l there exists_) waits held
    · exact alive ((shut.queued l c job there present waits).1 _ held) rfl
  | sent present sent held =>
    have same : w.awaits = w₀.awaits :=
      eq_of_backdrop World.awaits shut.backdrop fun _ => rfl
    exact .sent (same ▸ present) sent held
  | @object i x present exists_ held =>
    by_cases there : w₀.dead.objects i
    · exact .object ((shut.objects i there).symm.trans present) (both.objects i there exists_) held
    · exact alive ((shut.heap i x there present).1 _ held) rfl
  | @outcome p x outcome present exists_ settled held =>
    by_cases there : w₀.dead.promises p
    · exact .outcome ((shut.promises p there).symm.trans present) (both.promises p there exists_) settled
        held
    · exact alive ((shut.outcomes p x there present).1 outcome settled) held

theorem Sealed.holdsPromise_back (both : w₀.dead.MeetWithin S M)
    {p : PromiseId} (gone : w₀.dead.promises p) (holds : w.HoldsPromise S p) :
    w₀.HoldsPromise M p := by
  cases holds with
  | register held =>
    have same : w.registers.promises = w₀.registers.promises :=
      eq_of_backdrop (·.registers.promises) shut.backdrop fun _ => rfl
    exact .register (same ▸ held)
  | @queued l c job present exists_ waits held =>
    by_cases there : w₀.dead.loops l
    · exact .queued ((shut.loops l there).symm.trans present) (both.loops l there exists_) waits held
    · exact absurd gone ((shut.queued l c job there present waits).2.1 p held)
  | awaited present held =>
    have same : w.tasks = w₀.tasks :=
      eq_of_backdrop World.tasks shut.backdrop fun _ => rfl
    exact .awaited (same ▸ present) held
  | itself present exists_ held =>
    exact .itself ((shut.promises p gone).symm.trans present) (both.promises p gone exists_) held
  | @object i x present exists_ held =>
    by_cases there : w₀.dead.objects i
    · exact .object ((shut.objects i there).symm.trans present) (both.objects i there exists_) held
    · exact absurd gone ((shut.heap i x there present).2 p held)

theorem Sealed.holdsLoop_back (both : w₀.dead.MeetWithin S M)
    {l : LoopId} (gone : w₀.dead.loops l) (holds : w.HoldsLoop S l) : w₀.HoldsLoop M l := by
  cases holds with
  | root held =>
    obtain held | ⟨r, x, _, present, rfl⟩ := (w.mem_rootLoops_iff l).mp held
    · have same : w.outerLoops = w₀.outerLoops :=
      eq_of_backdrop World.outerLoops shut.backdrop fun _ => rfl
      exact .root ((w₀.mem_rootLoops_iff l).mpr (.inl (same ▸ held)))
    · exact absurd gone (shut.realms r x present).1
  | @promise p x present exists_ held =>
    by_cases there : w₀.dead.promises p
    · exact .promise ((shut.promises p there).symm.trans present) (both.promises p there exists_) held
    · exact absurd (held ▸ gone) (shut.outcomes p x there present).2
  | @queued k c job present exists_ waits held =>
    by_cases there : w₀.dead.loops k
    · have same : w.jobLoops job = w₀.jobLoops job :=
        eq_of_backdrop (World.jobLoops · job) shut.backdrop fun _ => rfl
      exact .queued ((shut.loops k there).symm.trans present) (both.loops k there exists_) waits
        (same ▸ held)
    · exact absurd gone ((shut.queued k c job there present waits).2.2 l held)

/-- What exists of what was dead would have sustained itself, together with what existed. -/
theorem Sealed.not_exists {o : ObjectId} (gone : w₀.dead.objects o) : ¬w.Exists o := by
  rintro ⟨S, sustains, exists_⟩
  let M : Things :=
    { objects o := w₀.living.objects o ∨ w₀.dead.objects o ∧ S.objects o
      promises p := w₀.living.promises p ∨ w₀.dead.promises p ∧ S.promises p
      loops l := w₀.living.loops l ∨ w₀.dead.loops l ∧ S.loops l }
  have both : w₀.dead.MeetWithin S M :=
    ⟨fun _ gone there => .inr ⟨gone, there⟩, fun _ gone there => .inr ⟨gone, there⟩,
      fun _ gone there => .inr ⟨gone, there⟩⟩
  have together : w₀.Sustains M := by
    refine sustains_of_more ⟨fun _ => .inl, fun _ => .inl, fun _ => .inl⟩ ?_ ?_ ?_
    · exact fun o h => h.imp id fun ⟨gone, there⟩ =>
        ⟨gone.1, shut.copy_back both gone (sustains.objects o there).2⟩
    · exact fun p h => h.imp id fun ⟨gone, there⟩ =>
        ⟨gone.1, shut.holdsPromise_back both gone (sustains.promises p there).2⟩
    · exact fun l h => h.imp id fun ⟨gone, there⟩ =>
        ⟨gone.1, shut.holdsLoop_back both gone (sustains.loops l there).2⟩
  exact gone.2 ⟨M, together, .inr ⟨gone, exists_⟩⟩

end

/-! What is done does not reach it -/

section

variable (shut : Sealed w₀ w)

include shut

theorem Sealed.lacks (hands : ∀ v ∈ A, w₀.dead.Lacks v) (had : w.AtHand A v) :
    w₀.dead.Lacks v := by
  induction had with
  | plain plain =>
    rintro o rfl
    cases plain
  | hand held => exact hands _ held
  | pinned held => exact shut.pinned _ held
  | register held => exact shut.named _ _ held
  | realm present held => exact shut.held _ _ present _ held
  | imported known held =>
    have same : w.runtime = w₀.runtime :=
      eq_of_backdrop World.runtime shut.backdrop fun _ => rfl
    exact lacks_of_copy (.imported (same ▸ known) held)
  | object _ present held ih => exact (shut.heap _ _ (ih _ rfl) present).1 _ held

theorem Sealed.not_dead_of_open {p : PromiseId} (isOpen : w.Open p) : ¬w₀.dead.promises p := by
  intro dead
  obtain ⟨x, there, waits, r, y, present, loop⟩ := isOpen
  obtain ⟨_, z, before, same⟩ := shut.realms r y present
  refine dead.2.2 ⟨x, (shut.promises p dead).symm.trans there, waits, r, z, before, ?_⟩
  exact same.trans loop

/-- What an object that is at hand stands for is not dead. -/
theorem Sealed.not_dead_of_atHand {o : ObjectId} {x : Host.Object} {p : PromiseId}
    (had : w.AtHand [] (.object o)) (present : w.heap.get? o = some x) (kind : x.kind = .promise p) :
    ¬w₀.dead.promises p :=
  (shut.heap o x (shut.lacks (A := []) (fun _ => nofun) had o rfl) present).2 p kind

/-- A realm holds nothing dead. -/
theorem Sealed.withRealm {r : RealmId} {x y : Realm} (present : w.realms[r]? = some x)
    (held : ∀ v ∈ y.held, w₀.dead.Lacks v) (loop : y.loop = x.loop) :
    Sealed w₀ (w.withRealm r y) := by
  refine { shut with held := ?_, realms := ?_ }
  · intro s z there
    rw [realms_withRealm w r x y present] at there
    split at there
    · cases there
      exact held
    · exact shut.held s z there
  · intro s z there
    rw [realms_withRealm w r x y present] at there
    split at there
    · next same =>
      cases there
      rw [same, loop]
      exact shut.realms r x present
    · exact shut.realms s z there

/-- A job is queued that holds nothing dead. -/
theorem Sealed.post {l : LoopId} (job : Job) (f : LoopCell → LoopCell) (alive : ¬w₀.dead.loops l)
    (adds : ∀ c, ∀ j ∈ (f c).queue.jobs, j ∈ c.queue.jobs ∨ j = job)
    (values : ∀ v ∈ job.values, w₀.dead.Lacks v)
    (promises : ∀ p ∈ job.promises, ¬w₀.dead.promises p) (loops : w.jobLoops job = []) :
    Sealed w₀ { w with loops := w.loops.modify l f } := by
  refine { shut with loops := ?_, queued := ?_ }
  · intro k dead
    simp only [Array.getElem?_modify]
    rw [if_neg, shut.loops k dead]
    rintro rfl
    exact alive dead
  · intro k c j lives there waits
    simp only [Array.getElem?_modify] at there
    split at there
    · obtain ⟨c, found, rfl⟩ := Option.map_eq_some_iff.mp there
      obtain waits | rfl := adds c j waits
      · exact shut.queued k c j lives found waits
      · refine ⟨values, promises, fun k held => ?_⟩
        have none : k ∈ w.jobLoops j := held
        rw [loops] at none
        cases none
    · exact shut.queued k c j lives there waits

/-- An object is made that refers to nothing dead. It was not there before, so it is not dead. -/
theorem Sealed.alloc {x : Host.Object} (references : ∀ v ∈ x.references, w₀.dead.Lacks v)
    (promises : ∀ p, x.kind = .promise p → ¬w₀.dead.promises p) :
    Sealed w₀ { w with heap := (w.heap.alloc x).2 } ∧ ¬w₀.dead.objects w.heap.objects.size := by
  have fresh : ¬w₀.dead.objects w.heap.objects.size := by
    intro dead
    have there := shut.objects _ dead
    rw [Host.Heap.get?, Host.Heap.get?, Array.getElem?_eq_none (Nat.le_refl _),
      Array.getElem?_eq_getElem dead.1] at there
    cases there
  refine ⟨{ shut with objects := ?_, heap := ?_ }, fresh⟩
  · intro o dead
    rw [get?_alloc, if_neg, shut.objects o dead]
    rintro rfl
    exact fresh dead
  · intro o y lives there
    rw [get?_alloc] at there
    split at there
    · cases there
      exact ⟨references, promises⟩
    · exact shut.heap o y lives there

end

/-- Nothing that is done while nothing dead is in the hands reaches the dead. -/
theorem Sealed.moves {F : RealmId → FunctionId → Prop} (shut : Sealed w₀ w)
    (hands : ∀ v ∈ A, w₀.dead.Lacks v) (moves : Moves F A w B w') :
    Sealed w₀ w' ∧ ∀ v ∈ B, w₀.dead.Lacks v := by
  induction moves with
  | take had => exact ⟨shut, fun v held => shut.lacks hands (had v held)⟩
  | trans _ _ ih₁ ih₂ =>
    obtain ⟨shut, hands⟩ := ih₁ shut hands
    exact ih₂ shut hands
  | aside => exact ⟨{ shut with }, hands⟩
  | pin pins had => exact ⟨{ shut with pinned := fun v held => shut.lacks hands (had v held) }, hands⟩
  | name values had =>
    exact ⟨{ shut with named := fun name v there => shut.lacks hands (had name v there) }, hands⟩
  | @make A w x had makes =>
    obtain ⟨made, fresh⟩ := shut.alloc (fun v held => shut.lacks hands (had v held))
      fun p kind => shut.not_dead_of_open (by rwa [kind] at makes)
    refine ⟨made, ?_⟩
    rintro v held o rfl
    obtain same | held := List.mem_cons.mp held
    · cases same
      exact fresh
    · exact hands _ held o rfl
  | @write A w o name v target had =>
    -- What is written to was in the hands, so it is none of the dead.
    have alive : ¬w₀.dead.objects o := shut.lacks hands target o rfl
    refine ⟨{ shut with objects := ?_, heap := ?_ }, hands⟩
    · intro i dead
      rw [get?_setProperty, if_neg, shut.objects i dead]
      rintro rfl
      exact alive dead
    · intro i y lives there
      rw [get?_setProperty] at there
      split at there
      · obtain ⟨x, found, rfl⟩ := Option.map_eq_some_iff.mp there
        obtain ⟨references, promises⟩ := shut.heap i x lives found
        refine ⟨fun u held => ?_, promises⟩
        obtain rfl | held := Host.Object.mem_references_set x name v u held
        · exact shut.lacks hands had
        · exact references u held
      · exact shut.heap i y lives there
  | turn present turns =>
    refine ⟨shut.withRealm present (fun v held => ?_) turns.loop, hands⟩
    obtain held | had := turns.held v held
    · exact shut.held _ _ present v held
    · exact shut.lacks hands had
  | @post A w r x job f present posts adds =>
    have alive := (shut.realms r x present).1
    refine ⟨?_, hands⟩
    cases job with
    | collect => exact shut.post _ f alive adds (fun _ => nofun) (fun _ => nofun) rfl
    | settle p outcome =>
      refine shut.post _ f alive adds ?_ ?_ rfl
      · intro v held
        obtain rfl := List.mem_singleton.mp held
        exact shut.lacks hands posts.2
      · intro q held
        obtain rfl := List.mem_singleton.mp held
        exact shut.not_dead_of_open posts.1
    | script | line | poll | fireSleeper | react | serve | deliver => exact posts.elim
  | @promise A w r x present =>
    -- The promise is new, so it is none of the dead.
    refine ⟨{ shut with promises := ?_, outcomes := ?_ }, hands⟩
    · intro p dead
      have there := shut.promises p dead
      rw [← there, getElem?_pushed, if_neg]
      rintro rfl
      rw [Array.getElem?_eq_none (Nat.le_refl _), Array.getElem?_eq_getElem dead.1] at there
      cases there
    · intro p y lives there
      rw [getElem?_pushed] at there
      split at there
      · cases there
        exact ⟨fun outcome settled => (by cases settled), (shut.realms r x present).1⟩
      · exact shut.outcomes p y lives there
  | @forget A w r x id present _ =>
    refine ⟨shut.withRealm present (fun v held => shut.held r x present v ?_) rfl, hands⟩
    exact x.mem_held_of_fewer _ (x.recalls_without id).entries v held
  | @sweep w =>
    -- A sweep takes entries away and adds none.
    have realms (r : RealmId) (y : Realm) (there : w.sweep.realms[r]? = some y) :
        ∃ x, w.realms[r]? = some x ∧ y.loop = x.loop ∧ ∀ v ∈ y.held, v ∈ x.held := by
      obtain ⟨x, present, _⟩ := (Grows.sweep w).realm there
      obtain ⟨entries, swept, fewer⟩ := w.realms_sweep_eq r x present
      obtain rfl := Option.some.inj (there.symm.trans swept)
      exact ⟨x, present, rfl, x.mem_held_of_fewer _ fewer⟩
    rw [sweep_eq]
    refine ⟨{ shut with held := ?_, realms := ?_ }, hands⟩
    · intro r y there v held
      obtain ⟨x, present, _, fewer⟩ := realms r y there
      exact shut.held r x present v (fewer v held)
    · intro r y there
      obtain ⟨x, present, loop, _⟩ := realms r y there
      rw [loop]
      exact shut.realms r x present

end World

end Membrane
