import Membrane.Host.Heap
/-!
What a heap holds after an object was made or a property was stored.
-/

set_option autoImplicit false

namespace Membrane.Host

namespace Object

theorem lookup_cons {α : Type} (n : String) (u : α) (rest : List (String × α)) (name : String) :
    ((n, u) :: rest).lookup name = if name = n then some u else rest.lookup name := by
  rw [List.lookup_cons]
  by_cases same : name = n
  · rw [if_pos same, same, beq_self_eq_true]
  · rw [if_neg same, beq_false_of_ne same]

/-- An entry that is put in order among others, in the place of one with its name, is found under its
name and leaves the others. -/
theorem lookup_inserted {α : Type} (insert : List (String × α) → List (String × α)) (name : String)
    (v : α) (nil : insert [] = [(name, v)])
    (cons : ∀ n u rest, insert ((n, u) :: rest) =
      if name < n then (name, v) :: (n, u) :: rest
      else if name = n then (name, v) :: rest
      else (n, u) :: insert rest)
    (entries : List (String × α)) (other : String) :
    (insert entries).lookup other = if other = name then some v else entries.lookup other := by
  induction entries with
  | nil =>
    rw [nil]
    exact lookup_cons name v [] other
  | cons entry rest ih =>
    obtain ⟨n, u⟩ := entry
    rw [cons]
    split
    · exact lookup_cons name v _ other
    · split
      · next here =>
        subst here
        rw [lookup_cons, lookup_cons]
        split <;> rfl
      · next apart =>
        rw [lookup_cons, lookup_cons, ih]
        by_cases first : other = n
        · rw [if_pos first, first, if_neg (Ne.symm apart), if_pos rfl]
        · rw [if_neg first, if_neg first]

theorem lookup_insertProperty (name : String) (v : Value) (properties : List (String × Value))
    (other : String) :
    (insertProperty name v properties).lookup other =
      if other = name then some v else properties.lookup other :=
  lookup_inserted (insertProperty name v) name v rfl (fun _ _ _ => rfl) properties other

/-- A property that was stored is read back, and the others are as before. -/
theorem get_set (o : Object) (name : String) (v : Value) (other : String) :
    (o.set name v).get other = if other = name then v else o.get other := by
  rw [get, set, lookup_insertProperty]
  split <;> rfl

end Object

namespace Heap

theorem get?_alloc (heap : Heap) (x : Object) (o : ObjectId) :
    (heap.alloc x).2.get? o = if o = heap.objects.size then some x else heap.get? o :=
  Array.getElem?_push

theorem get?_setProperty (heap : Heap) (o : ObjectId) (name : String) (v : Value) (i : ObjectId) :
    (heap.setProperty o name v).get? i =
      if o = i then (heap.get? i).map (·.set name v) else heap.get? i :=
  Array.getElem?_modify

/-- A property of an object that is there is read back once it is stored. -/
theorem property_setProperty (heap : Heap) (o : ObjectId) (name : String) (v : Value)
    (there : (heap.get? o).isSome) : (heap.setProperty o name v).property o name = v := by
  obtain ⟨x, found⟩ := Option.isSome_iff_exists.mp there
  rw [property, get?_setProperty, if_pos rfl, found]
  exact (x.get_set name v name).trans (if_pos rfl)

/-- Storing a property changes no kind, so the same objects can be called. -/
theorem isCallable_setProperty (heap : Heap) (o : ObjectId) (name : String) (v : Value)
    (i : ObjectId) : (heap.setProperty o name v).isCallable i = heap.isCallable i := by
  rw [isCallable, isCallable, get?_setProperty]
  split
  · rw [Option.map_map]
    rfl
  · rfl

end Heap

end Membrane.Host
