import Mathlib.Data.List.Find
import Mathlib.Data.List.Nodup

/-! # Rows told apart by a key

Where no two rows have one key, a test that only the row of one key can pass finds that row,
wherever among the others it is. A search among some of the rows answers like one among all of them
where no other row passes.
-/

namespace KeyedRows

variable {Row Key : Type*} {keyOf : Row → Key} {rows others : List Row} {test : Row → Bool}
  {key : Key} {row : Row}

/-- **The row found** is the one that passes. -/
theorem find?_eq_some_iff (unique : (rows.map keyOf).Nodup)
    (named : ∀ row, test row = true → keyOf row = key) :
    rows.find? test = some row ↔ row ∈ rows ∧ test row = true := by
  constructor
  · intro found
    exact ⟨List.mem_of_find?_eq_some found, List.find?_some found⟩
  · rintro ⟨member, passes⟩
    cases found : rows.find? test with
    | none => exact absurd passes (List.find?_eq_none.mp found row member)
    | some other =>
        have sameKey : keyOf other = keyOf row :=
          (named other (List.find?_some found)).trans (named row passes).symm
        rw [List.inj_on_of_nodup_map unique (List.mem_of_find?_eq_some found) member sameKey]

/-- The same rows in another order answer a search alike. -/
theorem find?_of_perm (unique : (rows.map keyOf).Nodup) (same : rows.Perm others)
    (named : ∀ row, test row = true → keyOf row = key) :
    rows.find? test = others.find? test := by
  have alsoUnique : (others.map keyOf).Nodup := (same.map keyOf).nodup_iff.mp unique
  apply Option.ext
  intro row
  rw [find?_eq_some_iff unique named, find?_eq_some_iff alsoUnique named, same.mem_iff]

variable {keep : Row → Bool}

/-- The row found is one that is named. -/
theorem of_find? {named : Row → Prop} [DecidablePred named] {test : Row → Bool} {row : Row}
    (found : rows.find? (fun row => named row && test row) = some row) : row ∈ rows ∧
    named row := by
  have passes := List.find?_some found
  exact ⟨List.mem_of_find?_eq_some found, of_decide_eq_true (Bool.and_eq_true_iff.mp passes).1⟩

theorem find?_filter (kept : ∀ row ∈ rows, test row = true → keep row = true) :
    (rows.filter keep).find? test = rows.find? test := by
  rw [List.find?_filter]
  refine List.find?_congr fun row member => ?_
  by_cases passes : test row = true
  · simp [passes, kept row member passes]
  · simp [passes]

theorem any_filter (kept : ∀ row ∈ rows, test row = true → keep row = true) :
    (rows.filter keep).any test = rows.any test := by
  rw [Bool.eq_iff_iff, List.any_eq_true, List.any_eq_true]
  constructor
  · rintro ⟨row, member, passes⟩
    exact ⟨row, List.mem_of_mem_filter member, passes⟩
  · rintro ⟨row, member, passes⟩
    exact ⟨row, List.mem_filter.mpr ⟨member, kept row member passes⟩, passes⟩

/-- Rows that are changed as before stay among those they were among. -/
theorem filter_map (keep : Row → Bool) (change : Row → Row) (rows : List Row)
    (same : ∀ row ∈ rows, keep (change row) = keep row) :
    (rows.map change).filter keep = (rows.filter keep).map change := by
  rw [List.filter_map]
  exact congrArg _ (List.filter_congr same)

theorem filter_concat (keep : Row → Bool) (rows : List Row) (row : Row) :
    (rows ++ [row]).filter keep =
      if keep row = true then rows.filter keep ++ [row] else rows.filter keep := by
  rw [List.filter_append, List.filter_singleton]
  by_cases kept : keep row = true
  · simp [kept]
  · simp [kept]

end KeyedRows
