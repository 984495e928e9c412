import Mathlib.Data.List.Basic
import Membrane.Proofs.Closures.Existence
/-!
The runtime finds what exists by rounds: it begins with everything and keeps in each round what is
referred to by what was left. The rounds come to rest at exactly what exists.
-/

set_option autoImplicit false

namespace Membrane

namespace World

/-- What is left after some rounds. -/
def Survivors.living (s : Survivors) : Things where
  objects o := s.objects[o]? = some true
  promises p := s.promises[p]? = some true
  loops l := s.loops[l]? = some true

/-- There is an entry for each thing in the world. -/
structure Survivors.Fits (s : Survivors) (w : World) : Prop where
  objects : s.objects.size = w.heap.objects.size
  promises : s.promises.size = w.promises.size
  loops : s.loops.size = w.loops.size

theorem mem_zip_toList {α β : Type} (xs : Array α) (ys : Array β) (a : α) (b : β) :
    (a, b) ∈ xs.toList.zip ys.toList ↔ ∃ i : Nat, xs[i]? = some a ∧ ys[i]? = some b := by
  simp only [List.mem_iff_getElem?, List.getElem?_zip_eq_some, Array.getElem?_toList]

variable {w : World} {s : Survivors}

theorem mem_waitingJobs_iff (job : Job) :
    job ∈ w.waitingJobs s ↔
      ∃ l c, w.loops[l]? = some c ∧ s.living.loops l ∧ job ∈ c.queue.jobs := by
  simp only [waitingJobs, List.mem_flatMap, Prod.exists, mem_zip_toList, Survivors.living]
  constructor
  · rintro ⟨c, exists_, ⟨l, there, marked⟩, waits⟩
    cases exists_ with
    | true => exact ⟨l, c, there, marked, waits⟩
    | false => cases waits
  · rintro ⟨l, c, there, marked, waits⟩
    exact ⟨c, true, ⟨l, there, marked⟩, waits⟩

theorem isForgotten_eq_false_iff (fits : s.Fits w) {r : RealmId} {x : Realm}
    (present : w.realms[r]? = some x) (id : FunctionId) :
    w.isForgotten s r id = false ↔ w.Remembers s.living x r id := by
  rw [isForgotten, present]
  simp only [Bool.and_eq_false_imp, List.any_eq_false, Prod.forall, mem_zip_toList, Remembers,
    Survivors.living, Host.Heap.get?]
  refine forall_congr' fun _ => ⟨fun all o y there kind => ?_, ?_⟩
  · have bound : o < s.objects.size := by
      rw [fits.objects]
      exact (Array.getElem?_eq_some_iff.mp there).1
    have marked := Array.getElem?_eq_getElem bound
    cases value : s.objects[o] with
    | true => rw [marked, value]
    | false =>
      rw [value] at marked
      have kept := all y false ⟨o, there, marked⟩
      simp [kind] at kept
  · rintro all y marked ⟨o, there, is⟩ dead
    cases marked with
    | true => cases dead
    | false =>
      cases kind : y.kind with
      | guestFunction r' id' =>
        simp only [kind, Bool.not_false, Bool.true_and, Bool.and_eq_true, beq_iff_eq] at dead
        obtain ⟨rfl, rfl⟩ := dead
        rw [all o y there kind] at is
        cases is
      | plain | function | constructor | promise => simp [kind] at dead

theorem mem_realmValues_iff (fits : s.Fits w) {r : RealmId} {x : Realm}
    (present : w.realms[r]? = some x) (v : Host.Value) :
    v ∈ w.realmValues s r ↔
      v ∈ x.table.values ∨ x.exception = some v ∨ v = .object x.globalObject ∨
        ∃ id f, (id, f) ∈ x.closures.entries ∧ w.Remembers s.living x r id ∧ v ∈ f.holds := by
  simp only [realmValues, knownFunctions, present, List.mem_append, Option.mem_toList,
    List.mem_singleton, List.mem_flatMap, List.mem_map, List.mem_filter, Prod.exists,
    Bool.not_eq_true', isForgotten_eq_false_iff fits present, or_assoc]
  refine or_congr_right (or_congr_right (or_congr_right ⟨?_, ?_⟩))
  · rintro ⟨_, ⟨id, f, ⟨known, remembered⟩, rfl⟩, held⟩
    exact ⟨id, f, known, remembered, held⟩
  · rintro ⟨id, f, known, remembered, held⟩
    exact ⟨f, ⟨id, f, ⟨known, remembered⟩, rfl⟩, held⟩

theorem hasCopy_of_realmValues (fits : s.Fits w) {r : RealmId} (kept : w.holdsRealm r = true)
    {v : Host.Value} (held : v ∈ w.realmValues s r) : w.HasCopy s.living v := by
  cases present : w.realms[r]? with
  | none =>
    rw [realmValues, present] at held
    cases held
  | some x =>
    obtain held | held | held | ⟨id, f, known, remembered, held⟩ :=
      (mem_realmValues_iff fits present v).mp held
    · exact .table kept present held
    · exact .slot kept present held
    · exact .globalObject kept present held
    · exact .guestFunction kept present known remembered held

/-- A value is referred to where there is a copy of it. -/
theorem mem_referredValues_iff (fits : s.Fits w) (v : Host.Value) :
    v ∈ w.referredValues s ↔ w.HasCopy s.living v := by
  have realms (v : Host.Value) : v ∈ w.heldRealms.eraseDups.flatMap (w.realmValues s) ↔
      ∃ r, w.holdsRealm r = true ∧ v ∈ w.realmValues s r := by
    simp only [List.mem_flatMap, List.mem_eraseDups, holdsRealm, List.contains_iff_mem]
  simp only [referredValues, List.mem_append, realms, List.mem_map, List.mem_flatMap,
    List.mem_filterMap, Prod.exists, mem_zip_toList, mem_waitingJobs_iff, or_assoc]
  constructor
  · rintro (held | ⟨name, _, held, rfl⟩ | ⟨r, kept, held⟩ | ⟨name, i, known, held⟩ |
      ⟨job, ⟨l, c, there, exists_, waits⟩, held⟩ | ⟨c, there, held⟩ |
      ⟨x, exists_, ⟨o, there, marked⟩, held⟩ | ⟨x, exists_, ⟨p, there, marked⟩, held⟩)
    · exact .inFlight held
    · exact .register held
    · exact hasCopy_of_realmValues fits kept held
    · exact .imported known held
    · exact .queued there exists_ waits held
    · obtain ⟨i, there⟩ := Array.mem_iff_getElem?.mp (Array.mem_toList_iff.mp there)
      cases state : c.state <;> rw [state] at held <;> cases held
      exact .sent there state rfl
    · cases exists_ with
      | true => exact .object there marked held
      | false => cases held
    · cases exists_ with
      | true =>
        obtain ⟨outcome, settled, rfl⟩ := Option.map_eq_some_iff.mp held
        exact .outcome there marked settled rfl
      | false => cases held
  · intro copy
    cases copy with
    | inFlight held => exact .inl held
    | register held => exact .inr (.inl ⟨_, _, held, rfl⟩)
    | table kept present held =>
      exact .inr (.inr (.inl ⟨_, kept, (mem_realmValues_iff fits present v).mpr (.inl held)⟩))
    | slot kept present held =>
      exact .inr (.inr (.inl ⟨_, kept, (mem_realmValues_iff fits present v).mpr (.inr (.inl held))⟩))
    | globalObject kept present held =>
      exact .inr (.inr (.inl
        ⟨_, kept, (mem_realmValues_iff fits present v).mpr (.inr (.inr (.inl held)))⟩))
    | guestFunction kept present known remembered held =>
      exact .inr (.inr (.inl ⟨_, kept, (mem_realmValues_iff fits present v).mpr
        (.inr (.inr (.inr ⟨_, _, known, remembered, held⟩)))⟩))
    | imported known held => exact .inr (.inr (.inr (.inl ⟨_, _, known, held⟩)))
    | queued present exists_ waits held =>
      exact .inr (.inr (.inr (.inr (.inl ⟨_, ⟨_, _, present, exists_, waits⟩, held⟩))))
    | @sent i c outcome present sent held =>
      refine .inr (.inr (.inr (.inr (.inr (.inl ⟨c, ?_, ?_⟩)))))
      · exact Array.mem_toList_iff.mpr (Array.mem_iff_getElem?.mpr ⟨_, present⟩)
      · rw [sent, held]
    | object present exists_ held =>
      exact .inr (.inr (.inr (.inr (.inr (.inr (.inl ⟨_, true, ⟨_, present, exists_⟩, held⟩))))))
    | outcome present exists_ settled held =>
      refine .inr (.inr (.inr (.inr (.inr (.inr (.inr ⟨_, true, ⟨_, present, exists_⟩, ?_⟩))))))
      rw [if_pos rfl, settled, held]
      rfl

theorem mem_selfHeldPromises_iff (p : PromiseId) :
    p ∈ w.selfHeldPromises s ↔
      ∃ x, w.promises[p]? = some x ∧ s.living.promises p ∧ x.reactions.any (·.held?.isSome) := by
  simp only [selfHeldPromises, List.mem_filter, List.mem_range, Bool.and_eq_true, Survivors.living]
  constructor
  · rintro ⟨there, marked, held⟩
    have present := Array.getElem?_eq_getElem there
    rw [present] at held
    refine ⟨_, present, ?_, held⟩
    cases old : s.promises[p]? with
    | none =>
      rw [old] at marked
      cases marked
    | some b =>
      rw [old] at marked
      exact congrArg some marked
  · rintro ⟨x, present, marked, held⟩
    refine ⟨(Array.getElem?_eq_some_iff.mp present).1, ?_, ?_⟩
    · rw [marked]
      rfl
    · rw [present]
      exact held

/-- A promise is referred to where something holds it. -/
theorem mem_referredPromises_iff (p : PromiseId) :
    p ∈ w.referredPromises s ↔ w.HoldsPromise s.living p := by
  simp only [referredPromises, List.mem_append, List.mem_map, List.mem_flatMap, List.mem_filterMap,
    Prod.exists, mem_zip_toList, mem_waitingJobs_iff, mem_selfHeldPromises_iff, or_assoc]
  constructor
  · rintro (⟨name, _, held, rfl⟩ | ⟨job, ⟨l, c, there, exists_, waits⟩, held⟩ | ⟨t, there, held⟩ |
      ⟨x, present, exists_, held⟩ | ⟨x, exists_, ⟨o, there, marked⟩, held⟩)
    · exact .register held
    · exact .queued there exists_ waits held
    · obtain ⟨i, there⟩ := Array.mem_iff_getElem?.mp (Array.mem_toList_iff.mp there)
      exact .awaited there held
    · exact .itself present exists_ held
    · cases exists_ with
      | true =>
        cases kind : x.kind <;> rw [kind] at held <;> cases held
        exact .object there marked kind
      | false => cases held
  · intro holds
    cases holds with
    | register held => exact .inl ⟨_, _, held, rfl⟩
    | queued present exists_ waits held =>
      exact .inr (.inl ⟨_, ⟨_, _, present, exists_, waits⟩, held⟩)
    | awaited present held =>
      refine .inr (.inr (.inl ⟨_, ?_, held⟩))
      exact Array.mem_toList_iff.mpr (Array.mem_iff_getElem?.mpr ⟨_, present⟩)
    | itself present exists_ held => exact .inr (.inr (.inr (.inl ⟨_, present, exists_, held⟩)))
    | object present exists_ held =>
      refine .inr (.inr (.inr (.inr ⟨_, true, ⟨_, present, exists_⟩, ?_⟩)))
      rw [held]

/-- A loop is referred to where something holds it. -/
theorem mem_referredLoops_iff (l : LoopId) :
    l ∈ w.referredLoops s ↔ w.HoldsLoop s.living l := by
  have parts : w.referredLoops s = w.rootLoops ++
      (w.promises.toList.zip s.promises.toList).filterMap (fun q =>
        if q.2 then some q.1.loop else none) ++
      (w.waitingJobs s).flatMap w.jobLoops := rfl
  simp only [parts, List.mem_append, List.mem_flatMap, List.mem_filterMap, Prod.exists,
    mem_zip_toList, mem_waitingJobs_iff, or_assoc]
  constructor
  · rintro (held | ⟨x, exists_, ⟨p, there, marked⟩, held⟩ | ⟨job, ⟨k, c, there, exists_, waits⟩, held⟩)
    · exact .root held
    · cases exists_ with
      | true =>
        cases held
        exact .promise there marked rfl
      | false => cases held
    · exact .queued there exists_ waits held
  · intro holds
    cases holds with
    | root held => exact .inl held
    | promise present exists_ held =>
      refine .inr (.inl ⟨_, true, ⟨_, present, exists_⟩, ?_⟩)
      rw [held]
      rfl
    | queued present exists_ waits held =>
      exact .inr (.inr ⟨_, ⟨_, _, present, exists_, waits⟩, held⟩)

/-! One round -/

/-- Marks places that were marked before. -/
def markAgain (old acc : Array Bool) (places : List Nat) : Array Bool :=
  places.foldl (fun acc place => acc.setIfInBounds place (old[place]?.getD false)) acc

theorem size_markAgain (old acc : Array Bool) (places : List Nat) :
    (markAgain old acc places).size = acc.size := by
  induction places generalizing acc with
  | nil => rfl
  | cons place rest ih => exact (ih _).trans Array.size_setIfInBounds

theorem markAgain_eq_true_iff (old acc : Array Bool) (fits : old.size = acc.size)
    (places : List Nat) (blank : ∀ i : Nat, acc[i]? = some true → old[i]? = some true) (i : Nat) :
    (markAgain old acc places)[i]? = some true ↔
      acc[i]? = some true ∨ i ∈ places ∧ old[i]? = some true := by
  induction places generalizing acc with
  | nil => simp [markAgain]
  | cons place rest ih =>
    have next (i : Nat) : (acc.setIfInBounds place (old[place]?.getD false))[i]? = some true ↔
        if place = i then old[i]? = some true else acc[i]? = some true := by
      rw [Array.getElem?_setIfInBounds]
      split
      · next same =>
        subst same
        split
        · next inside => simp [Array.getElem?_eq_getElem (fits ▸ inside)]
        · next outside => simp [Array.getElem?_eq_none (Nat.not_lt.mp (fits ▸ outside))]
      · rfl
    have step := ih (acc.setIfInBounds place (old[place]?.getD false))
      (fits.trans Array.size_setIfInBounds.symm) fun i marked => by
        have marked := (next i).mp marked
        split at marked
        · exact marked
        · exact blank i marked
    refine step.trans ?_
    rw [next i, List.mem_cons]
    have kept := blank i
    split
    · next same => grind
    · next other => grind

theorem replicate_false (n i : Nat) : (Array.replicate n false)[i]? ≠ some true := by
  rw [Array.getElem?_replicate]
  split <;> simp

/-- What is marked again on a blank sheet is what was marked before, of the places. -/
theorem markAgain_replicate {old : Array Bool} {n : Nat} (fits : old.size = n) (places : List Nat)
    (i : Nat) :
    (markAgain old (Array.replicate n false) places)[i]? = some true ↔
      old[i]? = some true ∧ i ∈ places := by
  rw [markAgain_eq_true_iff old _ (fits.trans Array.size_replicate.symm) places
    (fun i marked => absurd marked (replicate_false n i))]
  simp only [replicate_false, false_or]
  exact and_comm

theorem thin_eq (w : World) (s : Survivors) :
    w.thin s =
      { objects := markAgain s.objects (Array.replicate w.heap.objects.size false)
          ((w.referredValues s).filterMap Host.Value.object?)
        promises := markAgain s.promises (Array.replicate w.promises.size false)
          (w.referredPromises s)
        loops := markAgain s.loops (Array.replicate w.loops.size false) (w.referredLoops s) } := by
  rw [thin, markAgain, List.foldl_filterMap]
  congr 2
  funext acc v
  cases v <;> rfl

theorem fits_thin (w : World) (s : Survivors) : (w.thin s).Fits w := by
  rw [thin_eq]
  constructor <;> simp only [size_markAgain, Array.size_replicate]

theorem thin_living_objects_iff (fits : s.Fits w) (o : ObjectId) :
    (w.thin s).living.objects o ↔ s.living.objects o ∧ w.HasCopy s.living (.object o) := by
  have named : o ∈ (w.referredValues s).filterMap Host.Value.object? ↔
      .object o ∈ w.referredValues s := by
    rw [List.mem_filterMap]
    constructor
    · rintro ⟨v, held, same⟩
      cases v <;> cases same
      exact held
    · exact fun held => ⟨_, held, rfl⟩
  rw [thin_eq, ← mem_referredValues_iff fits, ← named]
  exact markAgain_replicate fits.objects _ o

theorem thin_living_promises_iff (fits : s.Fits w) (p : PromiseId) :
    (w.thin s).living.promises p ↔ s.living.promises p ∧ w.HoldsPromise s.living p := by
  rw [thin_eq, ← mem_referredPromises_iff]
  exact markAgain_replicate fits.promises _ p

theorem thin_living_loops_iff (fits : s.Fits w) (l : LoopId) :
    (w.thin s).living.loops l ↔ s.living.loops l ∧ w.HoldsLoop s.living l := by
  rw [thin_eq, ← mem_referredLoops_iff]
  exact markAgain_replicate fits.loops _ l

/-- A round keeps every set that sustains itself. -/
theorem within_thin {L : Things} (fits : s.Fits w) (sustains : w.Sustains L)
    (sub : L.Within s.living) : L.Within (w.thin s).living where
  objects o h := (thin_living_objects_iff fits o).mpr
    ⟨sub.objects o h, (sustains.objects o h).2.mono sub⟩
  promises p h := (thin_living_promises_iff fits p).mpr
    ⟨sub.promises p h, (sustains.promises p h).2.mono sub⟩
  loops l h := (thin_living_loops_iff fits l).mpr
    ⟨sub.loops l h, (sustains.loops l h).2.mono sub⟩

/-- What a round leaves as it is sustains itself. -/
theorem sustains_of_thin_eq (fits : s.Fits w) (rest : w.thin s = s) : w.Sustains s.living where
  objects o h := by
    have copy := ((thin_living_objects_iff fits o).mp (rest.symm ▸ h)).2
    exact ⟨fits.objects ▸ (Array.getElem?_eq_some_iff.mp h).1, copy⟩
  promises p h := by
    have holds := ((thin_living_promises_iff fits p).mp (rest.symm ▸ h)).2
    exact ⟨fits.promises ▸ (Array.getElem?_eq_some_iff.mp h).1, holds⟩
  loops l h := by
    have holds := ((thin_living_loops_iff fits l).mp (rest.symm ▸ h)).2
    exact ⟨fits.loops ▸ (Array.getElem?_eq_some_iff.mp h).1, holds⟩

/-! All rounds -/

/-- How many things are marked. -/
def Survivors.count (s : Survivors) : Nat :=
  s.objects.count true + s.promises.count true + s.loops.count true

theorem count_le_of_marked {xs ys : Array Bool} (size : xs.size = ys.size)
    (sub : ∀ i : Nat, xs[i]? = some true → ys[i]? = some true) :
    xs.count true ≤ ys.count true ∧ (xs.count true = ys.count true → xs = ys) := by
  obtain ⟨xs⟩ := xs
  obtain ⟨ys⟩ := ys
  simp only [List.size_toArray, List.getElem?_toArray, List.count_toArray, Array.mk.injEq] at *
  induction xs generalizing ys with
  | nil =>
    cases ys with
    | nil => exact ⟨Nat.le_refl _, fun _ => rfl⟩
    | cons y ys => cases size
  | cons x xs ih =>
    cases ys with
    | nil => cases size
    | cons y ys =>
      obtain ⟨less, same⟩ := ih ys (Nat.succ.inj size) fun i => sub (i + 1)
      have first : x = true → y = true := fun h => Option.some.inj (sub 0 (congrArg some h))
      cases x with
      | true =>
        obtain rfl := first rfl
        simp only [List.count_cons_self, List.cons.injEq, true_and]
        exact ⟨by omega, fun h => same (by omega)⟩
      | false =>
        cases y with
        | true =>
          simp only [List.count_cons_self, List.count_cons, beq_iff_eq, Bool.false_eq_true,
            if_false]
          omega
        | false =>
          simp only [List.count_cons, beq_iff_eq, Bool.false_eq_true, if_false, List.cons.injEq,
            true_and]
          exact ⟨by omega, fun h => same (by omega)⟩

/-- A round that changes anything takes something away. -/
theorem count_thin (fits : s.Fits w) (changed : w.thin s ≠ s) : (w.thin s).count < s.count := by
  have again := fits_thin w s
  obtain ⟨objects, sameObjects⟩ := count_le_of_marked (again.objects.trans fits.objects.symm)
    fun o h => ((thin_living_objects_iff fits o).mp h).1
  obtain ⟨promises, samePromises⟩ := count_le_of_marked (again.promises.trans fits.promises.symm)
    fun p h => ((thin_living_promises_iff fits p).mp h).1
  obtain ⟨loops, sameLoops⟩ := count_le_of_marked (again.loops.trans fits.loops.symm)
    fun l h => ((thin_living_loops_iff fits l).mp h).1
  by_contra more
  rw [Survivors.count, Survivors.count] at more
  apply changed
  have equal : (w.thin s).objects = s.objects ∧ (w.thin s).promises = s.promises ∧
      (w.thin s).loops = s.loops :=
    ⟨sameObjects (by omega), samePromises (by omega), sameLoops (by omega)⟩
  obtain ⟨h₁, h₂, h₃⟩ := equal
  cases thinned : w.thin s
  cases s
  simp only [thinned] at h₁ h₂ h₃
  subst h₁ h₂ h₃
  rfl

/-- With enough rounds nothing changes any more, and what sustains itself is kept all the way. -/
theorem settleDown_spec (fuel : Nat) (s : Survivors) (fits : s.Fits w) (enough : s.count < fuel) :
    (w.settleDown fuel s).Fits w ∧ w.thin (w.settleDown fuel s) = w.settleDown fuel s ∧
      ∀ L, w.Sustains L → L.Within s.living → L.Within (w.settleDown fuel s).living := by
  induction fuel generalizing s with
  | zero => omega
  | succ fuel ih =>
    rw [settleDown]
    split
    · next rest => exact ⟨fits, rest, fun _ _ sub => sub⟩
    · next changed =>
      have fewer := count_thin fits changed
      obtain ⟨last, rest, kept⟩ := ih (w.thin s) (fits_thin w s) (by omega)
      exact ⟨last, rest, fun L sustains sub => kept L sustains (within_thin fits sustains sub)⟩

/-- The rounds find what exists. -/
theorem survivors_spec (w : World) :
    w.survivors.Fits w ∧ w.Sustains w.survivors.living ∧ w.living.Within w.survivors.living := by
  have start : Survivors.Fits ⟨Array.replicate w.heap.objects.size true,
      Array.replicate w.promises.size true, Array.replicate w.loops.size true⟩ w := by
    constructor <;> simp only [Array.size_replicate]
  obtain ⟨fits, rest, kept⟩ := settleDown_spec
    (w.heap.objects.size + w.promises.size + w.loops.size + 1) _ start (by
      simp only [Survivors.count, Array.count_replicate_self]
      omega)
  refine ⟨fits, sustains_of_thin_eq fits rest, kept _ sustains_living ⟨?_, ?_, ?_⟩⟩
  · intro o h
    simp only [Survivors.living, Array.getElem?_replicate, (sustains_living.objects o h).1, if_true]
  · intro p h
    simp only [Survivors.living, Array.getElem?_replicate, (sustains_living.promises p h).1,
      if_true]
  · intro l h
    simp only [Survivors.living, Array.getElem?_replicate, (sustains_living.loops l h).1, if_true]

theorem survivors_objects_iff (w : World) (o : ObjectId) :
    w.survivors.living.objects o ↔ w.Exists o := by
  obtain ⟨_, sustains, within⟩ := w.survivors_spec
  exact ⟨fun h => ⟨_, sustains, h⟩, within.objects o⟩

/-- A guest function is forgotten unless its function object exists. -/
theorem isForgotten_iff {r : RealmId} {x : Realm} (present : w.realms[r]? = some x)
    (id : FunctionId) :
    w.isForgotten w.survivors r id = false ↔ w.Remembers w.living x r id := by
  rw [isForgotten_eq_false_iff w.survivors_spec.1 present, Remembers, Remembers]
  simp only [survivors_objects_iff, Exists]

/-- What is left of the guest functions of a realm. -/
theorem realms_sweep_of_held {r : RealmId} {x : Realm} (held : w.holdsRealm r = true)
    (present : w.realms[r]? = some x) :
    w.sweep.realms[r]? = some { x with closures := { x.closures with
      entries := x.closures.entries.filter fun (id, _) => !w.isForgotten w.survivors r id } } := by
  unfold sweep
  split
  · next empty =>
    have none : x.closures.entries = [] := by
      have mem := Array.mem_of_getElem? present
      have all := (Array.all_eq_true_iff_forall_mem.mp empty) x mem
      exact List.isEmpty_iff.mp all
    rw [present]
    obtain ⟨_, _, _, _, _, _, _, _, _, _, ⟨_, entries⟩⟩ := x
    cases none
    rfl
  · simp only [Array.getElem?_mapIdx, present, Option.map_some]
    exact congrArg some (if_pos held)

end World

end Membrane
