import Mathlib.Data.List.Basic

/-! # Lists changed at one place

What is left of a list's elements once the element at an index has been replaced or
taken out.
-/

namespace Places

variable {α : Type*} {list : List α} {index : Nat} {taken changed other : α}

/-- An element is found at some other index, or is the one at this index. -/
theorem eq_or_exists_ne (found : list[index]? = some taken) (member : other ∈ list) :
    other = taken ∨ ∃ place, place ≠ index ∧ list[place]? = some other := by
  obtain ⟨place, located⟩ := List.mem_iff_getElem?.mp member
  by_cases same : place = index
  · rw [same, found] at located
    exact .inl (Option.some.inj located).symm
  · exact .inr ⟨place, same, located⟩

theorem eq_or_mem_eraseIdx (found : list[index]? = some taken) (member : other ∈ list) :
    other = taken ∨ other ∈ list.eraseIdx index :=
  (eq_or_exists_ne found member).imp_right List.mem_eraseIdx_iff_getElem?.mpr

theorem eq_or_mem_set (changed : α) (found : list[index]? = some taken) (member : other ∈ list) :
    other = taken ∨ other ∈ list.set index changed := by
  rcases eq_or_exists_ne found member with same | ⟨place, another, located⟩
  · exact .inl same
  · refine .inr (List.mem_iff_getElem?.mpr ⟨place, ?_⟩)
    rw [List.getElem?_set_ne (Ne.symm another)]
    exact located

theorem mem_set_self (found : list[index]? = some taken) : changed ∈ list.set index changed :=
  List.mem_set (List.getElem?_eq_some_iff.mp found).1 changed

/-- The element stands between those before it and those after it. -/
theorem eq_around (found : list[index]? = some taken) :
    list = list.take index ++ taken :: list.drop (index + 1) := by
  obtain ⟨inside, rfl⟩ := List.getElem?_eq_some_iff.mp found
  rw [← List.drop_eq_getElem_cons inside, List.take_append_drop]

theorem set_eq_around (changed : α) (found : list[index]? = some taken) :
    list.set index changed = list.take index ++ changed :: list.drop (index + 1) := by
  rw [List.set_eq_take_append_cons_drop, if_pos (List.getElem?_eq_some_iff.mp found).1]

/-- What an element has in common with the one that replaces it. -/
theorem map_set {β : Type*} (view : α → β) (found : list[index]? = some taken)
    (same : view changed = view taken) : (list.set index changed).map view = list.map view := by
  rw [set_eq_around changed found, List.map_append, List.map_cons, same, ← List.map_cons,
    ← List.map_append, ← eq_around found]

theorem filter_set (test : α → Bool) (changed : α) (found : list[index]? = some taken) :
    (list.set index changed).filter test = (list.take index).filter test ++
      (if test changed then [changed] else []) ++ (list.drop (index + 1)).filter test := by
  rw [set_eq_around changed found, List.filter_append, List.filter_cons]
  split <;> simp

theorem filter_eraseIdx (test : α → Bool) (list : List α) (index : Nat) :
    (list.eraseIdx index).filter test =
      (list.take index).filter test ++ (list.drop (index + 1)).filter test := by
  rw [List.eraseIdx_eq_take_drop_succ, List.filter_append]

/-- What the filter passes, around the element. -/
theorem filter_eq_around (test : α → Bool) (found : list[index]? = some taken) :
    list.filter test = (list.take index).filter test ++
      (if test taken then [taken] else []) ++ (list.drop (index + 1)).filter test := by
  have same : list.set index taken = list := by
    obtain ⟨inside, rfl⟩ := List.getElem?_eq_some_iff.mp found
    exact List.set_getElem_self inside
  rw [← filter_set test taken found, same]

/-- An element that passes has those that pass before and after it around it. -/
theorem filter_eq_of_pos {test : α → Bool} (passes : test taken = true)
    (found : list[index]? = some taken) :
    list.filter test =
      (list.take index).filter test ++ taken :: (list.drop (index + 1)).filter test := by
  rw [filter_eq_around test found, if_pos passes, List.append_assoc, List.singleton_append]

end Places
