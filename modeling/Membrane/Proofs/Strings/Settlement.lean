import Membrane.Proofs.Strings.Answer
import Membrane.Proofs.Strings.Record
/-!
A call of an import where none is running and nothing is pending: its arguments are lowered, the
code of the import reads some of them, and its answer is lifted. Whatever it reads, keeps, answers
or throws, every string that was lowered for the call has been given back once in the end.
-/

set_option autoImplicit false

namespace Membrane

open Realm (Course)

/-- What an import does to the references of its realm that takes what it likes and gives back none
but those of strings of its own, each once at most, and that neither calls nor lowers for a call. -/
structure Tally.Modest (t : Tally) (own : List Handle) : Prop where
  uncalled : t.calls = 0
  unlowered : ∀ h, t.lowered h = 0
  kept : ∀ h, t.lost h = 0
  reads : ∀ h, t.reads h ≤ own.count h

namespace Realm

/-- A realm in which strings were lowered, and nothing else was done to its references. -/
structure Lowers (x : Realm) (hs : List Handle) (t : Tally) (y : Realm) : Prop where
  course : Course x t y
  pending : y.lowered = x.lowered ++ hs
  taken : t.taken = hs.length
  gained : ∀ h, t.gained h = 0
  lost : ∀ h, t.lost h = 0
  strayed : ∀ h, t.strayed h = 0

variable {x y z : Realm} {hs ks : List Handle} {s t : Tally}

theorem Lowers.nothing (x : Realm) : Lowers x [] .none x where
  course := .aside rfl
  pending := (List.append_nil _).symm
  taken := rfl
  gained _ := rfl
  lost _ := rfl
  strayed _ := rfl

theorem Lowers.string (x : Realm) (text : String) :
    Lowers x [(x.lowerString text).1] (.lowering (x.lowerString text).1)
      (x.lowerString text).2 where
  course := .lower x text
  pending := rfl
  taken := rfl
  gained _ := rfl
  lost _ := rfl
  strayed _ := rfl

theorem Lowers.andThen (first : Lowers x hs s y) (rest : Lowers y ks t z) :
    Lowers x (hs ++ ks) (s.followedBy t) z where
  course := first.course.andThen rest.course
  pending := by rw [rest.pending, first.pending, List.append_assoc]
  taken := by rw [List.length_append, ← first.taken, ← rest.taken]; rfl
  gained h := Nat.add_eq_zero_iff.mpr ⟨first.gained h, rest.gained h⟩
  lost h := Nat.add_eq_zero_iff.mpr ⟨first.lost h, rest.lost h⟩
  strayed h := Nat.add_eq_zero_iff.mpr ⟨first.strayed h, rest.strayed h⟩

variable {g : Host.Value}

/-- A modest import reads nothing but what it owns. -/
theorem Course.strayed_of_modest (inside : Course y.openFrame t z) (modest : t.Modest y.lowered)
    (h : Handle) : t.strayed h = 0 := by
  have dry : y.openFrame.lowered.count h + t.lowered h = 0 := by
    rw [modest.unlowered h]
    rfl
  obtain ⟨read, strays⟩ := inside.reads_of_quiet h modest.uncalled dry
  have own : y.openFrame.innermost.count h = y.lowered.count h := rfl
  have few : t.claimed h + t.strayed h ≤ y.lowered.count h := modest.reads h
  rcases Nat.eq_zero_or_pos (t.strayed h) with none | some
  · exact none
  · have gone := strays some
    omega

/-- A call of a modest import, with the strings lowered for it: nothing is owed in the end, and
whatever is held more was taken by the import. -/
theorem Lowers.settled (idle : x.frames = []) (settled : x.lowered = [])
    (sound : x.table.Sound g) (lowering : x.Lowers hs s y) (inside : Course y.openFrame t z)
    (modest : t.Modest y.lowered) (room : x.table.RoomFor (hs.length + t.taken)) :
    z.closeFrame.lowered = [] ∧ z.closeFrame.frames = [] ∧ z.closeFrame.table.Sound g ∧
      ∀ h, z.closeFrame.table.lent h = x.table.lent h + t.gained h := by
  have pending : z.closeFrame.lowered = [] := by
    rw [closeFrame_lowered]
    refine List.eq_nil_iff_forall_not_mem.mpr fun h =>
      List.count_eq_zero.mp (Nat.le_zero.mp ?_)
    have less := (inside.pending h).1
    rwa [modest.unlowered h] at less
  have frames : z.closeFrame.frames = [] := by
    rw [inside.frames_call.2.2]
    exact Shrunk.eq_nil (idle ▸ lowering.course.frames.2)
  have whole : Course x (s.followedBy (t.closing z)) z.closeFrame :=
    lowering.course.andThen inside.call
  rw [← lowering.taken] at room
  have room : x.table.RoomFor ((s.followedBy (t.closing z)).taken + 0) := room
  obtain ⟨kept, _, even⟩ := whole.balanced sound room
  refine ⟨pending, frames, kept, fun h => ?_⟩
  have gained := lowering.gained h
  have lost := lowering.lost h
  have strayed := lowering.strayed h
  have firm := inside.strayed_of_modest modest h
  have before : x.owed h = 0 := by
    rw [owed, idle, settled]
    rfl
  have after : z.closeFrame.owed h = 0 := by
    rw [owed, frames, pending]
    rfl
  have even : _ + _ + (s.strayed h + t.strayed h) + (s.lost h + t.lost h) =
      _ + _ + (s.gained h + t.gained h) + _ := even h
  have none : (s.followedBy (t.closing z)).short h = 0 := whole.short_eq_zero sound room h (by
    show x.owed h + (s.strayed h + t.strayed h) + (s.lost h + t.lost h) ≤ x.table.lent h
    have nothing := modest.kept h
    omega)
  have nothing := modest.kept h
  omega

end Realm

/-- Reads its first word as a string and answers with a handle of a text. -/
def Import.replacing (text : String) : Import where
  holds := []
  run r args := match args with
    | .i32 n :: _ =>
      .ask (.loadString r (.ofWire n)) fun _ =>
        .ask (.retain r (.string text)) fun h => .done (.ok (.ofHandle h))
    | _ => .done (.ok .void)

namespace Act

open World

/-- The run of an import that is called, or what is done where there is none of the name. -/
inductive Ran (w : World) (p : Performer) (r : RealmId) (name : String) (args : List Wire) :
    Tally → Except Host.Value Wire → World → Prop
  | found {i : Import} {t : Tally} {outcome : Except Host.Value Wire} {u : World}
      (known : w.runtime.import? name = some i)
      (recorded : Recorded r p (i.run r args) w t outcome u) : Ran w p r name args t outcome u
  | missing {outcome : Except Host.Value Wire} {u : World}
      (unknown : w.runtime.import? name = none)
      (run : exec (runImport p r name args) w = (.ok outcome, u)) :
      Ran w p r name args .none outcome u

section

variable {w : World} {p : Performer} {r : RealmId} {name : String} {args : List Wire} {t : Tally}
  {outcome : Except Host.Value Wire} {u : World}

theorem Ran.exec (ran : Ran w p r name args t outcome u) :
    Act.exec (runImport p r name args) w = (.ok outcome, u) := by
  cases ran with
  | found known recorded =>
    rw [exec_runImport_of_known p name args _ w known]
    exact recorded.exec
  | missing _ run => exact run

/-- Whatever import is called, the run has a record if it comes to its end. -/
theorem exists_ran (depth : Nat) (r : RealmId) (name : String) (args : List Wire)
    (outcome : Except Host.Value Wire) (w u : World) (x : Realm) (present : w.realms[r]? = some x)
    (run : Act.exec (runImport (performer depth) r name args) w = (.ok outcome, u)) :
    ∃ t, Ran w (performer depth) r name args t outcome u := by
  cases known : w.runtime.import? name with
  | none => exact ⟨.none, .missing known run⟩
  | some i =>
    rw [exec_runImport_of_known _ name args i w known] at run
    obtain ⟨t, recorded⟩ := exists_recorded depth _ w u outcome x present run
    exact ⟨t, .found known recorded⟩

theorem Ran.course (ran : Ran w p r name args t outcome u) (x : Realm)
    (present : w.realms[r]? = some x) : ∃ z, u.realms[r]? = some z ∧ Course x t z := by
  cases ran with
  | found _ recorded => exact recorded.course x present
  | missing unknown run =>
    obtain ⟨v, u', same, realms⟩ := exec_runImport_of_unknown (r := r) p name args w unknown
    cases run.symm.trans same
    exact ⟨x, realms ▸ present, .aside rfl⟩

end

variable (w : World)

/-- The word of an argument that is a string. -/
def stringWord : Guest.Argument → Wire → List Wire
  | .string _, word => [word]
  | _, _ => []

/-- The words of the strings among the arguments of a call. -/
def stringWords (args : List Guest.Argument) (words : List Wire) : List Wire :=
  (List.zipWith stringWord args words).flatten

theorem exec_lower (r : RealmId) (x : Realm) (present : w.realms[r]? = some x)
    (owner : x.owner = w.here) (arg : Guest.Argument) :
    ∃ word hs t y, exec (lower r arg) w = (.ok word, w.withRealm r y) ∧ x.Lowers hs t y ∧
      hs.map Wire.ofHandle = stringWord arg word := by
  have plain (word : Wire) : (Except.ok word, w) = ((.ok word, w.withRealm r x) :
      Except Halt Wire × World) := by rw [withRealm_self w r x present]
  cases arg with
  | string s =>
    refine ⟨.ofHandle (x.lowerString s).1, _, _, _, ?_, .string x s, rfl⟩
    rw [lower, exec_bind, exec_lowerString w r x present owner, goOn_ok, exec_pure]
  | i32 | u32 | bool | f64 | f32 | void | handle | ref =>
    exact ⟨_, [], .none, x, plain _, .nothing x, rfl⟩

/-- All arguments of a call are lowered, and nothing else happens. -/
theorem exec_lowerAll (r : RealmId) (args : List Guest.Argument) (x : Realm)
    (present : w.realms[r]? = some x) (owner : x.owner = w.here) :
    ∃ words hs t y, exec (args.mapM (lower r)) w = (.ok words, w.withRealm r y) ∧
      x.Lowers hs t y ∧ hs.map Wire.ofHandle = stringWords args words := by
  induction args generalizing w x with
  | nil =>
    refine ⟨[], [], .none, x, ?_, .nothing x, rfl⟩
    rw [withRealm_self w r x present]
    rfl
  | cons arg rest ih =>
    obtain ⟨word, hs, s, y, first, one, own⟩ := exec_lower w r x present owner arg
    have there := realm_withRealm w r x y present
    obtain ⟨words, ks, t, z, all, more, others⟩ :=
      ih (w.withRealm r y) y there (one.course.frames.1.trans owner)
    refine ⟨word :: words, hs ++ ks, s.followedBy t, z, ?_, one.andThen more, ?_⟩
    · rw [List.mapM_cons, exec_bind, first, goOn_ok, exec_bind, all, goOn_ok, exec_pure,
        withRealm_withRealm]
    · rw [List.map_append, own, others]
      rfl

/-- What an import does that reads its first word, a string of its own, and answers with a text. -/
theorem recorded_replacing (q : Performer) (x : Realm) (imports : List (String × Import))
    (owner : x.owner = 0) (text : String) (h : Handle) (words : List Wire)
    (own : h ∈ x.innermost) :
    ∃ (t : Tally) (answer : Handle) (z : Realm),
      Recorded 0 (perform q) ((Import.replacing text).run 0 (.ofHandle h :: words)) (lone x imports)
        t (.ok (.ofHandle answer)) (lone z imports) ∧
      t.Modest x.innermost ∧ t.taken = 1 ∧ (∀ k, t.gained k = answer.only k) ∧
      z.exception = x.exception := by
  have read := exec_perform_loadString q (lone x imports) 0 x rfl owner h
  have stays : (x.read h).owner = 0 := (x.owner_read h).trans owner
  have retained := (exec_perform_of_none q (.retain 0 (.string text)) _ fun _ => rfl).trans
    (exec_retain (lone (x.read h) imports) 0 _ rfl stays (.string text))
  have listed := congrArg some (Tally.reading_of_listed x h (Or.inl own))
  refine ⟨_, _, _, .direct (x := x) rfl listed read
    (.direct (x := x.read h) rfl rfl retained (.done _ _)), ⟨rfl, fun _ => rfl, fun _ => rfl, ?_⟩,
    rfl, fun k => Nat.zero_add _, ?_⟩
  · intro k
    show h.only k ≤ x.innermost.count k
    have first := Realm.count_claimFrom_of_mem x.innermost h own k
    omega
  · obtain ⟨_, _, _, _, struck⟩ := x.claimLowered_of_inside h own
    show (x.read h).exception = x.exception
    rw [Realm.read, struck, Realm.releaseQuietly_eq]

/-- A call where none is running and nothing is pending, from the lowering of its arguments to the
reading of its answer. -/
theorem settled_after_call (depth : Nat) (r : RealmId) (name : String)
    (args : List Guest.Argument) (type : Guest.ResultType) (w : World) (x : Realm) (g : Host.Value)
    (present : w.realms[r]? = some x) (owner : x.owner = w.here) (sound : x.table.Sound g)
    (idle : x.frames = []) (settled : x.lowered = []) :
    ∃ words v y, exec (args.mapM (lower r)) w = (.ok words, v) ∧ v.realms[r]? = some y ∧
      y.lowered.map Wire.ofHandle = stringWords args words ∧
      (v.runtime.import? name = none →
        ∃ e u, Ran (v.withRealm r y.openFrame) (performer depth) r name words .none (.error e) u) ∧
      ∀ outcome u, exec (runImport (performer depth) r name words) (v.withRealm r y.openFrame) =
          (.ok outcome, u) →
        (∃ t, Ran (v.withRealm r y.openFrame) (performer depth) r name words t outcome u) ∧
          ∀ t, Ran (v.withRealm r y.openFrame) (performer depth) r name words t outcome u →
            t.Modest y.lowered → x.table.RoomFor (y.lowered.length + t.taken) →
            ∃ z result w' x', u.realms[r]? = some z ∧
              exec (callTyped (performer depth) r name words type) v = (.ok result, w') ∧
              w'.realms[r]? = some x' ∧ x'.lowered = [] ∧ x'.frames = [] ∧
              ∀ h, x'.table.count h =
                max (RefTable.rooted h) (x.table.count h + t.gained h -
                  (spentOn type (received outcome z.exception)).count h) := by
  obtain ⟨words, hs, s, y, lowered, lowers, own⟩ := exec_lowerAll w r args x present owner
  obtain rfl : y.lowered = hs := lowers.pending.trans (settled ▸ rfl)
  have there := realm_withRealm w r x y present
  have opened := realm_withRealm (w.withRealm r y) r y y.openFrame there
  refine ⟨words, w.withRealm r y, y, lowered, there, own, fun unknown => ?_, fun outcome u run =>
    ⟨exists_ran depth r name words outcome _ u _ opened run, fun t ran modest room => ?_⟩⟩
  · obtain ⟨e, u, run, _⟩ := exec_runImport_of_unknown (r := r) (performer depth) name words
      ((w.withRealm r y).withRealm r y.openFrame) unknown
    exact ⟨e, u, .missing unknown run⟩
  obtain ⟨z, last, inside⟩ := ran.course y.openFrame opened
  have stays : y.owner = w.here := lowers.course.frames.1.trans owner
  have here : u.here = w.here :=
    (OnCourse.runImport (OnCourse.performer depth) r name words _ u outcome run).here
  have owned : z.closed.owner = u.here := (inside.call.frames.1.trans stays).trans here.symm
  obtain ⟨pending, frames, kept, lent⟩ := lowers.settled idle settled sound inside modest room
  obtain ⟨result, w', x', called, final, same⟩ := exec_callTyped (w.withRealm r y) (performer depth)
    r name words type y z there stays outcome u run last owned
  refine ⟨z, result, w', x', last, called, final, ?_⟩
  generalize spentOn type (received outcome z.exception) = hs at same ⊢
  rw [z.closed.reads_of_idle hs frames pending] at same
  have table : x'.table = hs.foldl RefTable.releaseQuietly z.closeFrame.table :=
    congrArg Holdings.table same
  have quiet : x'.lowered = z.closeFrame.lowered := congrArg Holdings.lowered same
  have idle : x'.frames = z.closeFrame.frames := congrArg Holdings.frames same
  obtain ⟨rest, less⟩ := kept.releaseAll hs
  refine ⟨quiet.trans pending, idle.trans frames, fun h => ?_⟩
  have held := sound.count_eq_lent h
  rw [table, rest.count_eq_lent, less h, lent h]
  omega

/-- A text is lowered twice for an import that reads it once and answers with the same text. -/
theorem settled_after_repeated_text :
    ∃ words v result w' y,
      exec ([Guest.Argument.string "a", .string "a"].mapM (lower 0))
          (lone .blank [("f", .replacing "a")]) = (.ok words, v) ∧
        exec (callTyped (performer 1) 0 "f" words .string) v = (.ok result, w') ∧
        w'.realms[0]? = some y ∧ y.lowered = [] ∧ y.frames = [] ∧
        ∀ h, y.table.count h = Realm.blank.table.count h := by
  let imports := [("f", Import.replacing "a")]
  have sound : Realm.blank.table.Sound (.object 0) := RefTable.create_sound .dense (.object 0)
  have room : Realm.blank.table.RoomFor 3 :=
    RefTable.create_roomFor .dense (.object 0) (by decide)
  obtain ⟨words, v, y, lowered, there, _, _, rest⟩ := settled_after_call 1 0 "f"
    [.string "a", .string "a"] .string (lone .blank imports) .blank (.object 0) rfl rfl sound rfl
    rfl
  -- what the arguments are lowered to
  let one := Realm.blank.lowerString "a"
  let two := one.2.lowerString "a"
  have first := exec_lowerString (lone .blank imports) 0 .blank rfl rfl "a"
  have second := exec_lowerString (lone one.2 imports) 0 one.2 rfl rfl "a"
  have both : exec ([Guest.Argument.string "a", .string "a"].mapM (lower 0)) (lone .blank imports) =
      (.ok [.ofHandle one.1, .ofHandle two.1], lone two.2 imports) := by
    simp only [List.mapM_cons, List.mapM_nil, lower, exec_bind, exec_pure, first, goOn_ok,
      withRealm_lone]
    rw [second]
    rfl
  cases lowered.symm.trans both
  obtain rfl : two.2 = y := Option.some.inj there
  obtain ⟨t, answer, z, recorded, modest, taken, gained, slot⟩ := recorded_replacing (performer 0)
    two.2.openFrame imports rfl "a" one.1 [.ofHandle two.1] List.mem_cons_self
  have ran : Ran (lone two.2.openFrame imports) (performer 1) 0 "f" _ t _ _ := .found rfl recorded
  obtain ⟨z', result, w', y, last, called, final, pending, frames, counts⟩ :=
    (rest _ _ ran.exec).2 t ran modest (taken ▸ room)
  obtain rfl : z = z' := Option.some.inj last
  refine ⟨_, lone two.2 imports, result, w', y, both, called, final, pending, frames, fun h => ?_⟩
  have empty : z.exception = none := slot
  have spent : spentOn .string (received (.ok (.ofHandle answer)) none) = [answer] := rfl
  have count := counts h
  rw [empty, spent, gained h, answer.count_cons, List.count_nil] at count
  have held := sound.rooted_le_count h
  omega

end Act

end Membrane
