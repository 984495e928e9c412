import Membrane.Proofs.Crossing.Passing
/-!
What is done with a guest value: a property is read or stored, or it is called, as a function, for a
method or as a constructor. However that ends, the texts made for the arguments are given back and
the result costs a reference if it is one. What is refused for its target or for an argument has done
nothing.
-/

set_option autoImplicit false

namespace Membrane

/-- A fault that says that a reference or a value is not what is needed. -/
def Fault.isRefusal : Fault → Bool
  | .invalidReference .. | .typeMismatch .. => true
  | _ => false

namespace RefTable

variable {g : Host.Value} {t : RefTable}

theorem isRefusal_of_get (h : Handle) (e : Fault) (failed : t.get h = .error e) :
    e.isRefusal = true := by
  rw [get_eq] at failed
  split at failed
  · cases failed
  · cases failed
    rfl

theorem isRefusal_of_sight (a : Guest.Value) (e : Fault) (failed : t.sight a = .error e) :
    e.isRefusal = true := by
  cases a with
  | undefined | null | bool | number | string => cases failed
  | object ref | function ref => exact isRefusal_of_get ref.handle e failed

theorem isRefusal_of_sights (args : List Guest.Value) (e : Fault)
    (failed : args.mapM t.sight = .error e) : e.isRefusal = true := by
  induction args with
  | nil => cases failed
  | cons a args ih =>
    rw [List.mapM_cons] at failed
    cases first : t.sight a with
    | error e' =>
      simp only [first, bind, Except.bind, Except.error.injEq] at failed
      exact isRefusal_of_sight a e (first.trans (congrArg _ failed))
    | ok v =>
      cases rest : args.mapM t.sight with
      | error e' =>
        simp only [first, rest, bind, Except.bind, Except.error.injEq] at failed
        exact ih (rest.trans (congrArg _ failed))
      | ok values =>
        simp only [first, rest, bind, Except.bind, pure, Except.pure, reduceCtorEq] at failed

theorem isRefusal_of_objectAt (typeName : Host.Value → String) (h : Handle) (e : Fault)
    (failed : t.objectAt typeName h = .error e) : e.isRefusal = true := by
  rw [objectAt] at failed
  split at failed
  · next e' found =>
    cases failed
    exact isRefusal_of_get h e found
  · cases failed
  · cases failed
    rfl

/-- What cannot be found is refused. -/
theorem isRefusal_of_callee? (typeName : Host.Value → String) (h : Handle)
    (args : List Guest.Value) (e : Fault) (failed : t.callee? typeName h args = .error e) :
    e.isRefusal = true := by
  rw [callee?] at failed
  cases found : t.objectAt typeName h with
  | error e' =>
    simp only [found, bind, Except.bind, Except.error.injEq] at failed
    exact isRefusal_of_objectAt typeName h e (found.trans (congrArg _ failed))
  | ok o =>
    cases all : args.mapM t.sight with
    | error e' =>
      simp only [found, all, bind, Except.bind, Except.error.injEq] at failed
      exact isRefusal_of_sights args e (all.trans (congrArg _ failed))
    | ok values => simp only [found, all, bind, Except.bind, pure, Except.pure, reduceCtorEq] at failed

end RefTable

/-- What is done with a guest value. -/
inductive Operation where
  | get (name : String)
  | set (name : String) (value : Guest.Value)
  /-- A call, of the value or of a method of it, or with it as the constructor. -/
  | call (how : Reflection) (args : List Guest.Value)

namespace Operation

open Act

def args : Operation → List Guest.Value
  | get _ => []
  | set _ value => [value]
  | call _ args => args

/-- Carries out an operation on a guest value. To store a property has nothing as its result. -/
def perform (p : Performer) (target : Guest.Value) : Operation → Act (Except Fault Guest.Value)
  | get name => getProperty target name
  | set name value => return (← putProperty target name value).map fun _ => .undefined
  | call how args => reflectGuest p target how args

/-- What an operation does to the object, given what the arguments stand for. -/
def deed (p : Performer) : Operation → Act.Deed
  | get name => fun o _ => return .ok (← property o name)
  | set name _ => fun o values => do
    values.forM (setProperty o name)
    return .ok .undefined
  | call how _ => fun o values => reflectObject p o how values

variable {r : RealmId}

/-- A value without a reference is refused for what it is. -/
theorem exec_perform_of_no_ref (p : Performer) (target : Guest.Value) (bare : target.ref? = none)
    (op : Operation) (w : World) :
    exec (op.perform p target) w =
      (.ok (.error (.valueMismatch "object" target.typeName)), w) := by
  have found : targetOf target = .error (.valueMismatch "object" target.typeName) := by
    rw [targetOf, bare]
  cases op with
  | get name => rw [perform, getProperty, found]; rfl
  | set name value => rw [perform, putProperty, found]; rfl
  | call how args => rw [perform, reflectGuest, found]; rfl

theorem exists_of_encoded (value : Guest.Value) (encoded : List (Raw × Option Handle)) (w u : World)
    (done : exec ([value].mapM (encodeArg r)) w = (.ok encoded, u)) :
    ∃ raw, encoded.map (·.1) = [raw] := by
  rw [List.mapM_cons] at done
  obtain ⟨one, _, _, rest⟩ := exec_bind_eq_ok _ _ _ _ _ done
  cases rest
  exact ⟨one.1, rfl⟩

/-- A stored property has nothing as its result. -/
theorem exec_afterwards_stored (made : List Handle) (result : Except Fault Unit) (v : World) :
    goOn (exec (afterwards r made result) v)
        (fun result => pure (result.map fun _ => Guest.Value.undefined)) =
      goOn (exec (afterwards r made (result.map fun _ => Raw.undefined)) v) fun
        | .error e => pure (.error e)
        | .ok raw => liftGuest r raw := by
  simp only [afterwards, exec_bind]
  rcases exec (releaseAll r made) v with ⟨halt | (e | _), v'⟩
  · rfl
  · rfl
  · cases result <;> rfl

/-- All operations go the same way, but for what they do to the object. -/
theorem exec_perform (p : Performer) (target : Guest.Value) (h : Handle)
    (home : target.ref? = some ⟨r, h⟩) (op : Operation) (w : World) :
    exec (op.perform p target) w = exec (operate r h (op.deed p) op.args) w := by
  have found : targetOf target = .ok ⟨r, h⟩ := by rw [targetOf, home]
  cases op with
  | get name =>
    rw [perform, getProperty, found]
    simp only [getRawProperty, operate, withEncoded, reflecting, args, deed, List.mapM_nil,
      exec_bind, exec_pure, goOn_ok, List.map_nil, List.filterMap_nil]
    rcases exec (objectAt r h) w with ⟨halt | (e | o), u⟩
    · rfl
    · rfl
    · simp only [goOn_ok, exec_bind, property, exec_get, exec_pure, liftAll, finish]
      rcases exec (lowerRaw r (u.heap.property o name)) u with ⟨halt | raw, v⟩ <;> rfl
  | set name value =>
    rw [perform, putProperty, found]
    simp only [operate, Operation.args, exec_bind]
    rcases done : exec ([value].mapM (encodeArg r)) w with ⟨halt | encoded, u⟩
    · simp only [withEncoded, exec_bind, done, goOn_error]
    · rw [exec_withEncoded [value] _ w u encoded done, exec_withEncoded [value] _ w u encoded done]
      obtain ⟨raw, one⟩ := exists_of_encoded value encoded w u done
      simp only [one, reflecting, setRawProperty, exec_bind]
      rcases exec (objectAt r h) u with ⟨halt | (e | o), v⟩
      · rfl
      · simp only [goOn_ok, exec_pure]
        exact exec_afterwards_stored _ (.error e) v
      · simp only [goOn_ok, exec_bind, liftAll]
        rcases exec (liftRaw r raw) v with ⟨halt | (e | a), v'⟩
        · rfl
        · simp only [goOn_ok, exec_pure]
          exact exec_afterwards_stored _ (.error e) v'
        · simp only [goOn_ok]
          exact exec_afterwards_stored _ (.ok ()) _
  | call how args =>
    rw [perform, reflectGuest, found]
    rfl

end Operation

/-- The handles that a result brings. -/
def brought : Except Fault Guest.Value → List Handle
  | .ok a => a.handles
  | .error _ => []

namespace RefTable

/-- A result is the copy of the value that was returned, or tells what was thrown. -/
def Answers (heap : Host.Heap) (r : RealmId) (t : RefTable) :
    Except Host.Value Host.Value → Except Fault Guest.Value → Prop
  | .ok v, .ok a => Copies heap r t a v
  | .error thrown, .error e => e = .hostException thrown
  | _, _ => False

end RefTable

namespace Act

open World RefTable

variable {r : RealmId} {g : Host.Value}

/-- A thrown value passes through the slot of the realm, which is empty afterwards. -/
theorem exec_finish_thrown (thrown : Host.Value) (v : World) (z : Realm)
    (present : v.realms[r]? = some z) :
    exec (finish r (.error thrown)) v =
      (.ok (.error (.hostException thrown)), v.withRealm r { z with exception := none }) := by
  have there := realm_withRealm v r z (z.throwValue thrown) present
  simp only [finish, setException, checkException, takeException, exec_bind,
    exec_onRealm v r z present, goOn_ok, exec_onRealm _ r _ there, withRealm_withRealm]
  rfl

theorem exec_concluded_error (made : List Handle) (e : Fault) (v : World) (z : Realm)
    (present : v.realms[r]? = some z) (owner : z.owner = v.here) (sound : z.table.Sound g)
    (enough : ∀ k, made.count k ≤ z.table.lent k) :
    exec (concluded r made (.error e)) v =
      (.ok (.error e),
        v.withRealm r { z with table := made.foldl RefTable.releaseQuietly z.table }) := by
  rw [concluded, exec_bind, exec_afterwards made _ v z present owner sound enough]
  rfl

/-- What was done is over: the texts made for it are given back, and the result brings a reference
if it is one. -/
theorem exec_concluded_finish (outcome : Except Host.Value Host.Value) (made : List Handle)
    (v : World) (z : Realm) (present : v.realms[r]? = some z) (owner : z.owner = v.here)
    (base : RefTable) (sound : z.table.Sound g) (room : z.table.RoomFor 1)
    (counts : ∀ k, z.table.lent k = base.lent k + made.count k) :
    ∃ result y, exec (do concluded r made (← finish r outcome)) v =
        (.ok result, v.withRealm r y) ∧
      y.owner = z.owner ∧ y.table.Sound g ∧
      (∀ k, y.table.lent k = base.lent k + (brought result).count k) ∧
      Answers v.heap r y.table outcome result := by
  have enough : ∀ k, made.count k ≤ z.table.lent k := fun k => by
    have all := counts k
    omega
  obtain ⟨closed, rest⟩ := sound.releaseAll made
  cases outcome with
  | error thrown =>
    have there := realm_withRealm v r z { z with exception := none } present
    refine ⟨.error (.hostException thrown), { z with
      exception := none, table := made.foldl RefTable.releaseQuietly z.table }, ?_, rfl, closed,
      ?_, rfl⟩
    · rw [exec_bind, exec_finish_thrown thrown v z present, goOn_ok,
        exec_concluded_error made _ _ _ there owner sound enough, withRealm_withRealm]
    · intro k
      have less := rest k
      have all := counts k
      simp only [brought, List.count_nil]
      omega
  | ok value =>
    obtain ⟨raw, t, lowered, encoding⟩ := exec_lowerRaw_encoding v z present owner sound room value
    -- the result is looked at from a table that never had the texts
    have texts : Gains g (made.foldl RefTable.releaseQuietly z.table) made z.table := by
      refine ⟨sound, fun k => ?_, fun k live => (sound.value?_releaseAll made k live).symm⟩
      have less := rest k
      have some := enough k
      omega
    have all := texts.trans encoding.gains closed
    have still : ∀ k, made.count k ≤ t.lent k := fun k => by
      rw [all.lent, List.count_append]
      omega
    have gained := all.releaseAll closed made raw.handle?.toList fun k => List.count_append
    have there := realm_withRealm v r z { z with table := t } present
    have freed := realm_withRealm v r z
      { z with table := made.foldl RefTable.releaseQuietly t } present
    have depicts : Depicts v.heap (made.foldl RefTable.releaseQuietly t) value raw :=
      encoding.toDepicts.of_same fun k carried =>
        all.sound.value?_releaseAll made k (gained.count_pos k (Option.mem_toList.mpr carried))
    obtain ⟨a, table, strings, frames, lifted, copies, gains, _⟩ :=
      exec_liftGuest_depicted _ _ freed owner _ closed v.heap value raw depicts []
        (by rw [List.append_nil]; exact gained)
    rw [List.append_nil] at gains
    refine ⟨.ok a, { z with table, lowered := strings, frames }, ?_, rfl, gains.sound, ?_, copies⟩
    · have encoded : exec (finish r (.ok value)) v =
          (.ok (.ok raw), v.withRealm r { z with table := t }) := by
        rw [finish, exec_bind, lowered]
        rfl
      rw [exec_bind, encoded, goOn_ok, concluded, exec_bind,
        exec_afterwards made _ _ _ there owner encoding.gains.sound still, withRealm_withRealm]
      exact lifted.trans (by rw [withRealm_withRealm])
    · intro k
      have less := rest k
      have before := counts k
      rw [gains.lent, brought]
      omega

/-- A table is sound and counts what another one does. -/
def CountsAs (g : Host.Value) (r : RealmId) (t : RefTable) (w : World) : Prop :=
  ∀ z, w.realms[r]? = some z → z.table.Sound g ∧ ∀ k, z.table.count k = t.count k

end Act

namespace Operation

open Act World RefTable

variable {r : RealmId} {g : Host.Value}

/-- Whether an operation runs code of the host. -/
def isCall : Operation → Bool
  | get _ | set _ _ => false
  | call _ _ => true

/-- The object that an operation is for and what its arguments stand for. -/
def callee? (heap : Host.Heap) (t : RefTable) (target : Guest.Value) (op : Operation) :
    Except Fault (ObjectId × List Host.Value) := do
  let ref ← targetOf target
  t.callee? heap.typeName ref.handle op.args

theorem deed_onCourse (depth : Nat) (op : Operation) (o : ObjectId) (values : List Host.Value) :
    OnCourse (op.deed (performer depth) o values) := by
  cases op with
  | get name => exact .bind (.property o name) fun _ => .pure _
  | set name value => exact .bind (.forM _ (Keeps.setProperty o name) values) fun _ => .pure _
  | call how args => exact Keeps.reflectObject (OnCourse.performer depth) o how values

theorem exec_setProperties (o : ObjectId) (name : String) (values : List Host.Value) (w : World) :
    ∃ v, exec (values.forM (setProperty o name)) w = (.ok (), v) ∧ v.realms = w.realms := by
  induction values generalizing w with
  | nil => exact ⟨w, rfl, rfl⟩
  | cons a values ih =>
    obtain ⟨v, done, same⟩ := ih (w.withProperty o name a)
    refine ⟨v, ?_, same⟩
    change exec (setProperty o name a >>= fun _ => values.forM (setProperty o name)) w = _
    rw [exec_bind]
    exact done

/-- To read or to store a property always comes to its end, and changes no realm. -/
theorem exec_deed_of_quiet (p : Performer) (op : Operation) (quiet : op.isCall = false)
    (o : ObjectId) (values : List Host.Value) (w : World) :
    ∃ outcome v, exec (op.deed p o values) w = (.ok outcome, v) ∧ v.realms = w.realms := by
  cases op with
  | get name => exact ⟨_, w, rfl, rfl⟩
  | set name value =>
    obtain ⟨v, done, same⟩ := exec_setProperties o name values w
    refine ⟨.ok .undefined, v, ?_, same⟩
    rw [deed, exec_bind, done]
    rfl
  | call how args => cases quiet

/-- Nothing but a call halts. -/
theorem isCall_of_halted (p : Performer) (op : Operation) (o : ObjectId)
    (values : List Host.Value) (w v : World) (halt : Halt)
    (ran : exec (op.deed p o values) w = (.error halt, v)) : op.isCall = true := by
  by_contra quiet
  obtain ⟨_, _, ends, _⟩ :=
    exec_deed_of_quiet p op (Bool.eq_false_iff.mpr quiet) o values w
  rw [ran] at ends
  cases ends

/-- The realm is still the thread's afterwards, and it has the references that it had if the code that
was called leaves them. -/
theorem realm_after_deed (depth : Nat) (op : Operation) (o : ObjectId) (values : List Host.Value)
    (w v : World) (outcome : Except Host.Value Host.Value) (r : RealmId) (x : Realm)
    (g : Host.Value) (present : w.realms[r]? = some x) (owner : x.owner = w.here)
    (sound : x.table.Sound g)
    (ran : exec (op.deed (performer depth) o values) w = (.ok outcome, v))
    (spared : op.isCall = true → CountsAs g r x.table v) :
    ∃ z, v.realms[r]? = some z ∧ z.owner = v.here ∧ z.table.Sound g ∧
      ∀ k, z.table.count k = x.table.count k := by
  have along := op.deed_onCourse depth o values w v outcome ran
  obtain ⟨_, z, last, course⟩ := along.course r x present
  refine ⟨z, last, course.frames.1.trans (owner.trans along.here.symm), ?_⟩
  cases called : op.isCall with
  | true => exact spared called z last
  | false =>
    obtain ⟨_, _, ends, same⟩ := exec_deed_of_quiet (performer depth) op called o values w
    rw [ran] at ends
    cases ends
    rw [same, present] at last
    cases last
    exact ⟨sound, fun _ => rfl⟩

/-- After an operation on a guest value every handle of its realm has the references that it had, and
one more if the result refers to it: whether it is a value, or something was thrown, or the target
or an argument was not what it should be, as long as the code that it calls leaves the references. In
the last case nothing was called, and nothing else has changed. -/
theorem refcounts_after_operation (depth : Nat) (op : Operation) (target : Guest.Value) (w : World)
    (r : RealmId) (x : Realm) (g : Host.Value) (present : w.realms[r]? = some x)
    (owner : x.owner = w.here) (sound : x.table.Sound g)
    (room : x.table.RoomFor (1 + op.args.length))
    (home : ∀ ref, target.ref? = some ref → ref.realm = r) :
    ∃ made t, Gains g x.table made t ∧
      match op.callee? w.heap t target with
      | .error e => e.isRefusal = true ∧ ∃ t', t'.Sound g ∧
          (∀ k, t'.count k = x.table.count k) ∧
          ∀ p, exec (op.perform p target) w =
            (.ok (.error e), w.withRealm r { x with table := t' })
      | .ok (o, values) =>
        match exec (op.deed (performer depth) o values) (w.withRealm r { x with table := t }) with
        | (.error halt, v) => op.isCall = true ∧
            exec (op.perform (performer depth) target) w = (.error halt, v)
        | (.ok outcome, v) => (op.isCall = true → CountsAs g r t v) →
            ∃ result y, exec (op.perform (performer depth) target) w =
                (.ok result, v.withRealm r y) ∧
              y.table.Sound g ∧
              (∀ k, y.table.count k = x.table.count k + (brought result).count k) ∧
              Answers v.heap r y.table outcome result := by
  cases aim : target.ref? with
  | none =>
    -- The target refers to nothing, so no argument is lowered.
    refine ⟨[], x.table, sound.gains_nothing, ?_⟩
    have bare : targetOf target = .error (.valueMismatch "object" target.typeName) := by
      rw [targetOf, aim]
    have refused : op.callee? w.heap x.table target =
        .error (.valueMismatch "object" target.typeName) := by
      rw [callee?, bare]
      rfl
    rw [refused]
    refine ⟨rfl, x.table, sound, fun _ => rfl, fun p => ?_⟩
    rw [exec_perform_of_no_ref p target aim op w, withRealm_self w r x present]
  | some ref =>
    obtain ⟨s, h⟩ := ref
    obtain rfl : s = r := home _ aim
    obtain ⟨_, made, t, prepared, left, done⟩ :=
      exec_operate h op.args w x present owner sound room
    refine ⟨made, t, prepared.toGains, ?_⟩
    have found : op.callee? w.heap t target = t.callee? w.heap.typeName h op.args := by
      rw [callee?, targetOf, aim]
      rfl
    have there := realm_withRealm w s x { x with table := t } present
    rw [found]
    have operated : ∀ p, exec (op.perform p target) w = _ := fun p =>
      (exec_perform p target h aim op w).trans (done (op.deed p))
    cases callee : t.callee? w.heap.typeName h op.args with
    | error e =>
      simp only [callee] at operated
      have enough : ∀ k, made.count k ≤ t.lent k := fun k => by
        rw [prepared.lent]
        omega
      -- What was lowered for the call that is refused is released again.
      have freed := prepared.toGains.releaseAll sound made [] fun _ => rfl
      refine ⟨isRefusal_of_callee? _ h op.args e callee, _, freed.sound, freed.count sound,
        fun p => ?_⟩
      rw [operated p, exec_concluded_error made e _ _ there owner prepared.sound enough,
        withRealm_withRealm]
    | ok pair =>
      obtain ⟨o, values⟩ := pair
      simp only [callee, exec_bind] at operated
      simp only
      rcases ran : exec (op.deed (performer depth) o values)
        (w.withRealm s { x with table := t }) with ⟨halt | outcome, v⟩
      · exact ⟨isCall_of_halted _ op o values _ v halt ran, by rw [operated, ran, goOn_error]⟩
      · intro spared
        obtain ⟨z, last, mine, kept, counts⟩ := realm_after_deed depth op o values _ v outcome s
          { x with table := t } g there owner prepared.sound ran spared
        have still : ∀ k, z.table.lent k = x.table.lent k + made.count k := fun k => by
          rw [← prepared.lent, lent, lent, counts]
        obtain ⟨result, y, ended, _, closed, rest, answers⟩ := exec_concluded_finish outcome made v z
          last mine x.table kept (left.of_le prepared.sound kept fun k => (counts k).le) still
        refine ⟨result, y, ?_, closed, fun k => ?_, answers⟩
        · rw [operated, ran, goOn_ok, ← ended, exec_bind]
        · have before := sound.count_eq_lent k
          have after := closed.count_eq_lent k
          have given := rest k
          omega

/-- A world whose global object has a function that gives back what it is called on. -/
def willing : World :=
  { World.lone .blank [] with
    heap := ⟨#[⟨none, .plain, [("f", .object 1)]⟩,
      ⟨none, .function ⟨[], fun this _ => return .ok this⟩, []⟩]⟩ }

/-- A method is called with the same text twice and the object itself, which is the result. -/
theorem refcounts_after_operation_on_self :
    let self : Guest.Value := .object ⟨0, .globalObject⟩
    let op := Operation.call (.method "f") [.string "a", .string "a", self]
    ∃ result, ∃ v : World, ∃ y : Realm, exec (op.perform (performer 1) self) willing =
        (.ok result, v.withRealm 0 y) ∧
      y.table.Sound (.object 0) ∧
      (∀ k, y.table.count k = Realm.blank.table.count k + (brought result).count k) ∧
      Answers v.heap 0 y.table (.ok (.object 0)) result := by
  intro self op
  have sound : Realm.blank.table.Sound (.object 0) := create_sound .dense (.object 0)
  have room : Realm.blank.table.RoomFor 4 := create_roomFor .dense (.object 0) (by decide)
  obtain ⟨made, t, gains, done⟩ := refcounts_after_operation 1 op self willing 0 .blank (.object 0)
    rfl rfl sound room (by rintro _ ⟨⟩; rfl)
  have global : t.get .globalObject = .ok (.object 0) :=
    gains.steady.get sound _ _ ((get_eq_ok_iff _ _).mpr sound.root)
  have found : op.callee? willing.heap t self =
      .ok (0, [.string "a", .string "a", .object 0]) := by
    have sighted : t.sight self = .ok (.object 0) := global
    change t.callee? willing.heap.typeName .globalObject op.args = _
    rw [RefTable.callee?, RefTable.objectAt, global]
    change ([Guest.Value.string "a", .string "a", self].mapM t.sight >>= _) = _
    simp only [List.mapM_cons, List.mapM_nil, sighted]
    rfl
  have ran : exec (op.deed (performer 1) 0 [.string "a", .string "a", .object 0])
      (willing.withRealm 0 { Realm.blank with table := t }) =
        (.ok (.ok (.object 0)), willing.withRealm 0 { Realm.blank with table := t }) := rfl
  simp only [found, ran] at done
  obtain ⟨result, y, ended⟩ := done fun _ z last => by
    cases last
    exact ⟨gains.sound, fun _ => rfl⟩
  exact ⟨result, _, y, ended⟩

end Operation

end Membrane
