import Membrane.World.Loop
/-!
How an action is carried out: its outcome and the world it leaves. What is written with `do` is
followed from one line to the next by the equations for `pure`, `bind` and the operations on the
world.
-/

set_option autoImplicit false

namespace Membrane.Act

variable {α β : Type}

/-- The outcome of an action and the world after it. -/
def exec (act : Act α) (w : World) : Except Halt α × World := act w

/-- What is left to do after an action, unless it was halted. -/
def goOn (result : Except Halt α × World) (rest : α → Act β) : Except Halt β × World :=
  match result with
  | (.ok a, w) => exec (rest a) w
  | (.error halt, w) => (.error halt, w)

@[simp] theorem goOn_ok (a : α) (w : World) (rest : α → Act β) :
    goOn (.ok a, w) rest = exec (rest a) w := rfl

@[simp] theorem goOn_error (halt : Halt) (w : World) (rest : α → Act β) :
    goOn (.error halt, w) rest = (.error halt, w) := rfl

@[simp] theorem exec_pure (a : α) (w : World) : exec (pure a) w = (.ok a, w) := rfl

@[simp] theorem exec_bind (act : Act α) (rest : α → Act β) (w : World) :
    exec (act >>= rest) w = goOn (exec act w) rest := by
  show ExceptT.bindCont rest (act w).1 (act w).2 = _
  unfold goOn exec
  rcases act w with ⟨halt | a, w'⟩ <;> rfl

@[simp] theorem exec_map (f : α → β) (act : Act α) (w : World) :
    exec (f <$> act) w = goOn (exec act w) fun a => pure (f a) := by
  rw [map_eq_pure_bind, exec_bind]

@[simp] theorem exec_throw (halt : Halt) (w : World) :
    exec (throw halt : Act α) w = (.error halt, w) := rfl

@[simp] theorem exec_misuse (m : Misuse) (w : World) :
    exec (misuse m : Act α) w = (.error (.misuse m), w) := rfl

@[simp] theorem exec_get (w : World) : exec (get : Act World) w = (.ok w, w) := rfl

@[simp] theorem exec_modify (f : World → World) (w : World) :
    exec (modify f) w = (.ok (), f w) := rfl

@[simp] theorem exec_modifyGet (f : World → α × World) (w : World) :
    exec (modifyGet f : Act α) w = (.ok (f w).1, (f w).2) := rfl

@[simp] theorem exec_ite (c : Prop) [Decidable c] (a b : Act α) (w : World) :
    exec (if c then a else b) w = if c then exec a w else exec b w := by
  split <;> rfl

theorem exec_tryCatch (act : Act α) (handler : Halt → Act α) (w : World) :
    exec (tryCatch act handler) w =
      match exec act w with
      | (.ok a, w') => (.ok a, w')
      | (.error halt, w') => exec (handler halt) w' := by
  show (ExceptT.tryCatch act handler) w = _
  unfold ExceptT.tryCatch exec
  rcases done : act w with ⟨halt | a, w'⟩
  · simp only [ExceptT.mk, bind, StateT.bind, done]
  · simp only [ExceptT.mk, bind, StateT.bind, done]
    rfl

@[simp] theorem exec_attempt (act : Act α) (w : World) :
    exec (attempt act) w = (.ok (exec act w).1, (exec act w).2) := by
  rw [attempt, exec_tryCatch, exec_bind]
  rcases exec act w with ⟨result | result, w'⟩ <;> rfl

/-- On another thread an action does what it does there; the thread that was running runs on. -/
theorem exec_asThread (thread : ThreadId) (act : Act α) (w : World) :
    exec (asThread thread act) w =
      ((exec act { w with here := thread }).1,
        { (exec act { w with here := thread }).2 with here := w.here }) := by
  simp only [asThread, exec_bind, exec_get, goOn_ok, exec_modify, exec_attempt]
  rcases exec act { w with here := thread } with ⟨result | result, w'⟩ <;> rfl

/-- Something that is there is found. -/
theorem exec_fetch (find : World → Option α) (w : World) (a : α) (present : find w = some a) :
    exec (fetch find) w = (.ok a, w) := by
  simp only [fetch, exec_bind, exec_get, goOn_ok, present, exec_pure]

/-- An action that comes to its end has passed through all of its lines. -/
theorem exec_bind_eq_ok (act : Act α) (rest : α → Act β) (w w'' : World) (b : β)
    (done : exec (act >>= rest) w = (.ok b, w'')) :
    ∃ a w', exec act w = (.ok a, w') ∧ exec (rest a) w' = (.ok b, w'') := by
  rw [exec_bind] at done
  rcases first : exec act w with ⟨halt | a, w'⟩
  · rw [first, goOn_error] at done
    cases done
  · rw [first, goOn_ok] at done
    exact ⟨a, w', rfl, done⟩

/-- An action that answers leaves the world that comes with its answer. -/
theorem exec_eq_of_toOption (act : Act α) (w : World) (a : α)
    (did : (exec act w).1.toOption = some a) : exec act w = (.ok a, (exec act w).2) := by
  rcases result : exec act w with ⟨halt | b, w'⟩
  · rw [result] at did
    cases did
  · rw [result] at did
    cases did
    rfl

theorem exec_fetch_eq_ok (find : World → Option α) (w w' : World) (a : α)
    (done : exec (fetch find) w = (.ok a, w')) : find w = some a ∧ w' = w := by
  rw [fetch, exec_bind, exec_get, goOn_ok] at done
  cases present : find w with
  | none =>
    rw [present] at done
    cases done
  | some b =>
    rw [present] at done
    cases done
    exact ⟨rfl, rfl⟩

/-- An action that looks for something has found it, and goes on in the same world. -/
theorem exec_fetch_bind_eq_ok (find : World → Option α) (rest : α → Act β) (w w' : World) (b : β)
    (done : exec (fetch find >>= rest) w = (.ok b, w')) :
    ∃ a, find w = some a ∧ exec (rest a) w = (.ok b, w') := by
  obtain ⟨a, _, found, goes⟩ := exec_bind_eq_ok _ _ _ _ _ done
  obtain ⟨present, rfl⟩ := exec_fetch_eq_ok _ _ _ _ found
  exact ⟨a, present, goes⟩

end Membrane.Act
