import Membrane.Proofs.Calls.Keeps
import Membrane.Proofs.Closures.Moves
import Membrane.Proofs.Table.Values
/-!
Actions that run no foreign code, as moves: they spread only values that they are given or come across,
and bring only such values. Each action does because the actions it is made of do. An action that is
halted leaves nothing in the hands.
-/

set_option autoImplicit false

namespace Membrane

open World

theorem Host.Value.IsKnown.more {v : Host.Value} {A : List Host.Value} (known : v.IsKnown A)
    (B : List Host.Value) : v.IsKnown (B ++ A) :=
  fun object => List.mem_append_right B (known object)

theorem Host.Value.isKnown_of_mem {v : Host.Value} {A : List Host.Value} (held : v ∈ A) :
    v.IsKnown A := fun _ => held

theorem Host.Value.isKnown_of_plain {v : Host.Value} (plain : v.object? = none)
    (A : List Host.Value) : v.IsKnown A := by
  intro object
  rw [plain] at object
  cases object

/-! What a realm holds, after work on it -/

namespace Realm

variable {allowed : Host.Value → Prop} {x y z : Realm}

/-- A realm of which only the table and the slot changed, and what says nothing about values. -/
theorem Turns.of_table (table : ∀ v ∈ y.table.values, v ∈ x.table.values ∨ allowed v)
    (slot : ∀ v, y.exception = some v → x.exception = some v ∨ allowed v)
    (globalObject : y.globalObject = x.globalObject) (loop : y.loop = x.loop)
    (features : y.features = x.features) (closures : y.closures = x.closures) :
    x.Turns allowed y := by
  refine ⟨fun v held => ?_, loop, features, closures⟩
  rw [mem_held_iff, globalObject, closures] at held
  rw [mem_held_iff]
  obtain held | held | rest := held
  · exact (table v held).imp Or.inl id
  · exact (slot v held).imp (fun held => Or.inr (Or.inl held)) id
  · exact Or.inl (Or.inr (Or.inr rest))

theorem Turns.refl (x : Realm) : x.Turns allowed x := ⟨fun _ => Or.inl, rfl, rfl, rfl⟩

theorem Turns.trans (first : x.Turns allowed y) (rest : y.Turns allowed z) : x.Turns allowed z := by
  refine ⟨fun v held => ?_, rest.loop.trans first.loop, rest.features.trans first.features,
    rest.closures.trans first.closures⟩
  obtain held | allowed := rest.held v held
  · exact first.held v held
  · exact Or.inr allowed

theorem Turns.mono {more : Host.Value → Prop} (turns : x.Turns allowed y)
    (all : ∀ v, allowed v → more v) : x.Turns more y :=
  { turns with held := fun v held => (turns.held v held).imp id (all v) }

theorem turns_retain (x : Realm) {v : Host.Value} (known : allowed v) :
    x.Turns allowed (x.retain v).2 := by
  refine .of_table (fun u held => ?_) (fun _ => Or.inl) rfl rfl rfl rfl
  obtain rfl | held := RefTable.mem_values_of_retain v held
  · exact Or.inr known
  · exact Or.inl held

theorem turns_retainHandle (h : Handle) (done : x.retainHandle h = .ok y) : x.Turns allowed y := by
  obtain ⟨t, counted, rfl⟩ := x.retainHandle_eq_ok y h done
  exact .of_table (fun _ held => Or.inl (RefTable.mem_values_of_retainHandle h counted held))
    (fun _ => Or.inl) rfl rfl rfl rfl

theorem turns_release (h : Handle) (done : x.release h = .ok y) : x.Turns allowed y := by
  obtain ⟨t, counted, rfl⟩ := x.release_eq_ok y h done
  exact .of_table (fun _ held => Or.inl (RefTable.mem_values_of_release h counted held))
    (fun _ => Or.inl) rfl rfl rfl rfl

theorem turns_releaseQuietly (x : Realm) (h : Handle) : x.Turns allowed (x.releaseQuietly h) := by
  rw [releaseQuietly_eq]
  exact .of_table (fun _ held => Or.inl (RefTable.mem_values_of_releaseQuietly h held))
    (fun _ => Or.inl) rfl rfl rfl rfl

/-- What is not read of the values of a realm may change. -/
theorem turns_aside (table : y.table = x.table) (slot : y.exception = x.exception)
    (globalObject : y.globalObject = x.globalObject) (loop : y.loop = x.loop)
    (features : y.features = x.features) (closures : y.closures = x.closures) :
    x.Turns allowed y :=
  .of_table (fun _ held => Or.inl (table ▸ held)) (fun _ held => Or.inl (slot ▸ held)) globalObject
    loop features closures

theorem turns_lowerString (x : Realm) (text : String) (known : allowed (.string text)) :
    x.Turns allowed (x.lowerString text).2 :=
  (x.turns_retain known).trans (turns_aside rfl rfl rfl rfl rfl rfl)

theorem turns_claimLowered (x : Realm) (h : Handle) : x.Turns allowed (x.claimLowered h) := by
  obtain ⟨lowered, frames, claimed⟩ := x.claimLowered_eq h
  rw [claimed]
  exact turns_aside rfl rfl rfl rfl rfl rfl

theorem turns_takeString (x : Realm) (names : Host.Value → String) (h : Handle) :
    x.Turns allowed (x.takeString names h).2 := by
  unfold takeString
  simp only
  split
  · exact x.turns_releaseQuietly h
  · exact .refl x

theorem turns_foldl_releaseQuietly (x : Realm) (hs : List Handle) :
    x.Turns allowed (hs.foldl releaseQuietly x) := by
  induction hs generalizing x with
  | nil => exact .refl x
  | cons h hs ih => exact (x.turns_releaseQuietly h).trans (ih _)

theorem turns_openFrame (x : Realm) : x.Turns allowed x.openFrame :=
  turns_aside rfl rfl rfl rfl rfl rfl

theorem turns_closeFrame (x : Realm) : x.Turns allowed x.closeFrame := by
  unfold closeFrame
  split
  · exact .refl x
  · next frame outer _ =>
    have opened : x.Turns allowed { x with frames := outer } :=
      turns_aside rfl rfl rfl rfl rfl rfl
    exact opened.trans (turns_foldl_releaseQuietly _ frame)

theorem turns_throwValue (x : Realm) {v : Host.Value} (known : allowed v) :
    x.Turns allowed (x.throwValue v) := by
  refine .of_table (fun _ => Or.inl) (fun u held => ?_) rfl rfl rfl rfl
  obtain rfl := Option.some.inj held
  exact Or.inr known

theorem turns_takeException (x : Realm) : x.Turns allowed x.takeException.2 :=
  .of_table (fun _ => Or.inl) (fun _ held => by cases held) rfl rfl rfl rfl

theorem turns_collect (x : Realm) : x.Turns allowed x.collect.2 := by
  rw [collect_eq]
  exact .of_table
    (fun _ held => Or.inl (RefTable.mem_values_of_foldl_releaseQuietly x.finalizers held))
    (fun _ => Or.inl) rfl rfl rfl rfl

end Realm

/-! Faults of the table are no exceptions of the host -/

namespace Request

theorem thrownValues_map {α β : Type} (f : α → β) (result : Except Fault α) :
    thrownValues (result.map f) = thrownValues result := by
  cases result <;> rfl

end Request

open Request

theorem RefTable.get_error (t : RefTable) (h : Handle) : readValues (t.get h) = [] ∨
    ∃ v, t.get h = .ok v := by
  unfold get
  split
  · exact Or.inr ⟨_, rfl⟩
  · exact Or.inl rfl

theorem Realm.thrownValues_retainHandle (x : Realm) (h : Handle) :
    thrownValues (x.retainHandle h) = [] := by
  rw [retainHandle, thrownValues_map]
  unfold RefTable.retainHandle
  split <;> rfl

theorem Realm.thrownValues_release (x : Realm) (h : Handle) :
    thrownValues (x.release h) = [] := by
  rw [release, thrownValues_map]
  unfold RefTable.release
  split
  · rfl
  · split <;> rfl

theorem Realm.thrownValues_stringAt (x : Realm) (names : Host.Value → String) (h : Handle) :
    thrownValues (x.stringAt names h) = [] := by
  unfold stringAt
  split
  · rfl
  · rfl
  · next e found =>
    unfold RefTable.get at found
    split at found
    · cases found
    · cases found
      rfl

namespace Act

variable {α β : Type}

/-- What is in the hands after an action; nothing if it was halted. -/
def handsAfter (B : α → List Host.Value) : Except Halt α → List Host.Value
  | .ok a => B a
  | .error _ => []

/-- An action that leads, by moves, from a world with some values in the hands to one with others. What
was in the hands of calls stays there. -/
structure LeadsAt (F : RealmId → FunctionId → Prop) (w : World) (A : List Host.Value)
    (act : Act α) (B : α → List Host.Value) : Prop where
  pins : w.pins ⊆ (exec act w).2.pins
  moves : Moves F A w (handsAfter B (exec act w).1) (exec act w).2

/-- An action that adds some values to what is in the hands. -/
def Brings (F : RealmId → FunctionId → Prop) (A : List Host.Value) (act : Act α)
    (values : α → List Host.Value) : Prop :=
  ∀ w, LeadsAt F w A act fun a => values a ++ A

variable {F : RealmId → FunctionId → Prop} {A B : List Host.Value} {w : World}

namespace LeadsAt

theorem moves_ok {act : Act α} {C : α → List Host.Value} (leads : LeadsAt F w A act C)
    {a : α} {w' : World} (done : exec act w = (.ok a, w')) : Moves F A w (C a) w' := by
  have moves := leads.moves
  rw [done] at moves
  exact moves

/-- Nothing need stay in the hands. -/
theorem moves_away {act : Act α} {C : α → List Host.Value} (leads : LeadsAt F w A act C) :
    Moves F A w [] (exec act w).2 :=
  .trans leads.moves (.take fun _ => nofun)

theorem pins_ok {act : Act α} {C : α → List Host.Value} (leads : LeadsAt F w A act C)
    {a : α} {w' : World} (done : exec act w = (.ok a, w')) : w.pins ⊆ w'.pins := by
  have pins := leads.pins
  rw [done] at pins
  exact pins

theorem of_ok {act : Act α} {C : α → List Host.Value} {a : α} {w' : World}
    (done : exec act w = (.ok a, w')) (pins : w.pins ⊆ w'.pins) (moves : Moves F A w (C a) w') :
    LeadsAt F w A act C := by
  constructor <;> rw [done]
  · exact pins
  · exact moves

/-- Less need be in the hands after an action, and more may be before it. -/
theorem weaken {act : Act α} {C D : α → List Host.Value} (leads : LeadsAt F w A act C)
    (more : ∀ v ∈ A, v.IsKnown B) (fewer : ∀ a, ∀ v ∈ D a, v.IsKnown (C a)) :
    LeadsAt F w B act D := by
  refine ⟨leads.pins, .trans (.take fun v held => atHand_of_known (more v held))
    (.trans leads.moves (.take ?_))⟩
  cases (exec act w).1 with
  | ok a => exact fun v held => atHand_of_known (fewer a v held)
  | error => exact fun _ => nofun

theorem bind {act : Act α} {rest : α → Act β} {C : α → List Host.Value} {D : β → List Host.Value}
    (first : LeadsAt F w A act C)
    (next : ∀ a w', exec act w = (.ok a, w') → LeadsAt F w' (C a) (rest a) D) :
    LeadsAt F w A (act >>= rest) D := by
  rcases done : exec act w with ⟨halt | a, w'⟩
  · have pins := first.pins
    have moves := first.moves
    rw [done] at pins moves
    constructor <;> rw [exec_bind, done]
    · exact pins
    · exact moves
  · have after := next a w' done
    constructor <;> rw [exec_bind, done, goOn_ok]
    · exact List.Subset.trans (first.pins_ok done) after.pins
    · exact .trans (first.moves_ok done) after.moves

theorem onHalt {act : Act α} {cleanup : Act Unit} {C : α → List Host.Value}
    (first : LeadsAt F w A act C) (after : Brings F [] cleanup fun _ => []) :
    LeadsAt F w A (onHalt act cleanup) C := by
  rcases done : exec act w with ⟨halt | a, w'⟩
  · have pins := first.pins
    have moves := first.moves
    rw [done] at pins moves
    have cleaned := after w'
    have rest : exec (Act.onHalt act cleanup) w = goOn (exec cleanup w') fun _ => throw halt := by
      rw [Act.onHalt, exec_tryCatch, done]
      exact exec_bind _ _ _
    rcases ended : exec cleanup w' with ⟨halt' | u, w''⟩
    · rw [ended] at rest
      constructor <;> rw [rest]
      · have last := cleaned.pins
        rw [ended] at last
        exact List.Subset.trans pins last
      · have last := cleaned.moves
        rw [ended] at last
        exact .trans moves last
    · rw [ended] at rest
      constructor <;> rw [rest]
      · exact List.Subset.trans pins (cleaned.pins_ok ended)
      · exact .trans moves (cleaned.moves_ok ended)
  · have same : exec (Act.onHalt act cleanup) w = (.ok a, w') := by
      rw [Act.onHalt, exec_tryCatch, done]
    exact .of_ok same (first.pins_ok done) (first.moves_ok done)

theorem pure {a : α} {C : α → List Host.Value} (had : ∀ v ∈ C a, w.AtHand A v) :
    LeadsAt F w A (pure a) C :=
  .of_ok (exec_pure a w) (List.Subset.refl _) (.take had)

theorem get {rest : World → Act β} {C : β → List Host.Value} (next : LeadsAt F w A (rest w) C) :
    LeadsAt F w A (get >>= rest) C := by
  refine .bind (C := fun _ => A) (.of_ok (exec_get w) (List.Subset.refl _) (.refl A w)) ?_
  intro a w' done
  cases done
  exact next

theorem throw {halt : Halt} {C : α → List Host.Value} :
    LeadsAt F w A (throw halt : Act α) C :=
  ⟨List.Subset.refl w.pins, .take fun _ => nofun⟩

theorem fetch {find : World → Option α} {rest : α → Act β} {C : β → List Host.Value}
    (next : ∀ a, find w = some a → LeadsAt F w A (rest a) C) :
    LeadsAt F w A (fetch find >>= rest) C := by
  refine .bind (C := fun _ => A) (.get ?_) fun a w' done => ?_
  · split
    · exact .pure fun _ => .hand
    · exact .throw
  · obtain ⟨present, rfl⟩ := exec_fetch_eq_ok find w w' a done
    exact next a present

theorem onRealm {r : RealmId} {f : Realm → α × Realm} {C : α → List Host.Value}
    (moves : ∀ x, w.realms[r]? = some x → Moves F A w (C (f x).1) (w.withRealm r (f x).2)) :
    LeadsAt F w A (onRealm r f) C :=
  .fetch fun x present => .of_ok rfl (List.Subset.refl _) (moves x present)

/-- Whatever is at hand may be taken first. -/
theorem taking {act : Act α} {C : α → List Host.Value} (B : List Host.Value)
    (had : ∀ v ∈ B, w.AtHand A v) (leads : LeadsAt F w B act C) : LeadsAt F w A act C :=
  ⟨leads.pins, .trans (.take had) leads.moves⟩

theorem dropping {act : Act α} {C : α → List Host.Value} (leads : LeadsAt F w [] act C) :
    LeadsAt F w A act C := .taking [] (fun _ => nofun) leads

theorem sweep : LeadsAt F w [] sweep fun _ => [] := by
  refine .of_ok rfl (fun v held => ?_) .sweep
  rw [sweep_eq]
  exact held

/-- What is pinned is in the hands of the call that runs; nothing else is while it does. -/
theorem pinning {act : Act α} {C : α → List Host.Value} (values : List Host.Value)
    (had : ∀ v ∈ values, w.AtHand A v) (inside : LeadsAt F (w.pinned values) [] act C) :
    LeadsAt F w A (pinning values act) C := by
  have kept : ∀ v ∈ w.pins, v ∈ (exec act (w.pinned values)).2.pins :=
    fun v held => inside.pins (List.mem_append_right values held)
  constructor <;> rw [exec_pinning]
  · exact List.Subset.refl _
  · refine .trans (.pin (values ++ w.pins) fun v held => ?_) (.trans (.take (B := []) fun _ => nofun)
      (.trans inside.moves (.pin w.pins fun v held => .pinned (kept v held))))
    exact (List.mem_append.mp held).elim (had v) .pinned

end LeadsAt

namespace Brings

theorem leads {act : Act α} {values : α → List Host.Value} (brings : Brings F A act values)
    (w : World) : LeadsAt F w A act values :=
  (brings w).weaken (fun _ => Host.Value.isKnown_of_mem) fun _ _ held =>
    Host.Value.isKnown_of_mem (List.mem_append_left A held)

/-! What actions are made of -/

theorem pure {a : α} {values : α → List Host.Value} (known : ∀ v ∈ values a, v.IsKnown A) :
    Brings F A (pure a) values := by
  refine fun w => .of_ok (exec_pure a w) (List.Subset.refl _) (.take fun v held => ?_)
  exact (List.mem_append.mp held).elim (fun held => atHand_of_known (known v held)) .hand

/-- What was brought before is brought once more. -/
theorem handOn {B : List Host.Value} {a : α} {values : α → List Host.Value}
    (held : ∀ v ∈ values a, v ∈ B) : Brings F (B ++ A) (Pure.pure a) values :=
  .pure fun v there => Host.Value.isKnown_of_mem (List.mem_append_left A (held v there))

theorem throw {halt : Halt} {values : α → List Host.Value} :
    Brings F A (throw halt : Act α) values := fun _ => .throw

theorem bind {act : Act α} {rest : α → Act β} {values : α → List Host.Value}
    {more : β → List Host.Value} (first : Brings F A act values)
    (next : ∀ a, Brings F (values a ++ A) (rest a) more) :
    Brings F A (act >>= rest) more := by
  refine fun w => (first w).bind fun a w' _ =>
    (next a w').weaken (fun _ => Host.Value.isKnown_of_mem) fun b v held => ?_
  apply Host.Value.isKnown_of_mem
  obtain held | held := List.mem_append.mp held
  · exact List.mem_append_left _ held
  · exact List.mem_append_right _ (List.mem_append_right _ held)

/-- The most common case: nothing is brought on the way. -/
theorem andThen {act : Act α} {rest : α → Act β} {more : β → List Host.Value}
    (first : Brings F A act fun _ => []) (next : ∀ a, Brings F A (rest a) more) :
    Brings F A (act >>= rest) more := first.bind next

/-- An action that may fail, with its result read in another way. -/
theorem mapping {act : Act (Except Fault α)} (f : α → β) (first : Brings F A act thrownValues) :
    Brings F A (do return (← act).map f) thrownValues :=
  first.bind fun result => .handOn fun _ held => by rwa [thrownValues_map] at held

theorem get : Brings F A (get : Act World) fun _ => [] :=
  fun w => .of_ok (exec_get w) (List.Subset.refl _) (.refl A w)

theorem fetch (find : World → Option α) : Brings F A (fetch find) fun _ => [] := by
  refine .andThen .get fun w => ?_
  split
  · exact .pure fun _ => nofun
  · exact .throw

theorem misuse (m : Misuse) {values : α → List Host.Value} :
    Brings F A (misuse m : Act α) values := .throw

theorem modify (f : World → World) (pins : ∀ w, (f w).pins = w.pins)
    (moves : ∀ w, Moves F A w A (f w)) : Brings F A (modify f : Act Unit) fun _ => [] :=
  fun w => .of_ok (exec_modify f w) (fun v held => by rw [pins]; exact held) (moves w)

theorem forM {ι : Type} (f : ι → Act Unit) (items : List ι)
    (each : ∀ i ∈ items, Brings F A (f i) fun _ => []) :
    Brings F A (items.forM f) fun _ => [] := by
  induction items with
  | nil => exact .pure fun _ => nofun
  | cons i rest ih =>
    exact .andThen (each i List.mem_cons_self) fun _ =>
      ih fun j held => each j (List.mem_cons_of_mem i held)

theorem mapM {ι : Type} (f : ι → Act α) (items : List ι)
    (each : ∀ i ∈ items, Brings F A (f i) fun _ => []) :
    Brings F A (items.mapM f) fun _ => [] := by
  induction items with
  | nil => exact .pure fun _ => nofun
  | cons i rest ih =>
    rw [List.mapM_cons]
    refine .andThen (each i List.mem_cons_self) fun _ => .andThen (ih fun j held => ?_) fun _ => ?_
    · exact each j (List.mem_cons_of_mem i held)
    · exact .pure fun _ => nofun

theorem onRealm {values : α → List Host.Value} (r : RealmId) (f : Realm → α × Realm)
    (turns : ∀ x : Realm, x.Turns (·.IsKnown A) (f x).2)
    (brought : ∀ x : Realm, ∀ v ∈ values (f x).1, v ∈ x.held ∨ v.IsKnown A) :
    Brings F A (onRealm r f) values := by
  refine fun w => .onRealm fun x present => ?_
  refine .trans (.take fun v held => ?_) (.turn present ((turns x).mono fun v known =>
    atHand_of_known (known.more _)))
  obtain held | held := List.mem_append.mp held
  · exact (brought x v held).elim (.realm present) atHand_of_known
  · exact .hand held

theorem tryRealm (r : RealmId) (f : Realm → Except Fault Realm)
    (turns : ∀ x y : Realm, f x = .ok y → x.Turns (·.IsKnown A) y)
    (faults : ∀ x, thrownValues (f x) = []) : Brings F A (tryRealm r f) thrownValues := by
  refine fun w => .fetch fun x present => ?_
  cases changed : f x with
  | ok y =>
    exact .of_ok rfl (List.Subset.refl _)
      (.turn present ((turns x y changed).mono fun v => atHand_of_known))
  | error e =>
    have none : faultValues e = [] := by
      have none := faults x
      rwa [changed] at none
    refine .pure fun v held => .hand ?_
    rw [thrownValues, none] at held
    exact held

end Brings

end Act

end Membrane
