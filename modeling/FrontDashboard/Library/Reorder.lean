import Mathlib.Data.List.Nodup
import Mathlib.Data.List.Perm.Subperm

/-! # Rows in a given order of their keys

A list of rows is put in the order in which a list of keys names them. The order is refused
unless it names as many keys as there are rows, none of them twice and none that is unknown.
-/

namespace Reorder

variable {Row Key : Type*} [DecidableEq Key] (keyOf : Row → Key)

/-- The last row with a key. -/
def findLast (rows : List Row) (key : Key) : Option Row :=
  rows.reverse.find? fun row => keyOf row = key

/-- The rows in the order of the keys, where that is an order of these rows. -/
def byKeys (rows : List Row) (keys : List Key) : Option (List Row) :=
  if keys.length ≠ rows.length then none
  else if ¬ keys.Nodup then none
  else keys.mapM (findLast keyOf rows)

variable {keyOf} {rows result : List Row} {keys : List Key} {key : Key} {row : Row}

theorem mem_of_findLast (found : findLast keyOf rows key = some row) :
    row ∈ rows ∧ keyOf row = key := by
  have member := List.mem_of_find?_eq_some found
  exact ⟨List.mem_reverse.mp member, by simpa using List.find?_some found⟩

theorem findLast_isSome (present : key ∈ rows.map keyOf) :
    (findLast keyOf rows key).isSome = true := by
  obtain ⟨row, member, named⟩ := List.mem_map.mp present
  rw [findLast, List.find?_isSome]
  exact ⟨row, List.mem_reverse.mpr member, decide_eq_true named⟩

theorem of_mapM_findLast (found : keys.mapM (findLast keyOf rows) = some result) :
    result.map keyOf = keys ∧ ∀ row ∈ result, row ∈ rows := by
  induction keys generalizing result with
  | nil =>
      cases found
      exact ⟨rfl, fun row member => absurd member List.not_mem_nil⟩
  | cons key rest ih =>
      rw [List.mapM_cons] at found
      obtain ⟨row, first, found⟩ := Option.bind_eq_some_iff.mp found
      obtain ⟨others, later, found⟩ := Option.bind_eq_some_iff.mp found
      cases found
      obtain ⟨sameKeys, old⟩ := ih later
      obtain ⟨member, named⟩ := mem_of_findLast first
      constructor
      · rw [List.map_cons, named, sameKeys]
      · intro other present
        rcases List.mem_cons.mp present with rfl | present
        · exact member
        · exact old other present

theorem mapM_findLast_isSome (present : ∀ key ∈ keys, key ∈ rows.map keyOf) :
    ∃ result, keys.mapM (findLast keyOf rows) = some result := by
  induction keys with
  | nil => exact ⟨[], rfl⟩
  | cons key rest ih =>
      obtain ⟨row, first⟩ := Option.isSome_iff_exists.mp
        (findLast_isSome (present key List.mem_cons_self))
      obtain ⟨others, later⟩ := ih fun other member => present other (List.mem_cons_of_mem _ member)
      exact ⟨row :: others, by simp [List.mapM_cons, first, later]⟩

/-- **What is put in order** are the same rows, in the order of the keys. -/
theorem byKeys_eq_some (ordered : byKeys keyOf rows keys = some result) :
    result.map keyOf = keys ∧ result.Perm rows := by
  unfold byKeys at ordered
  split_ifs at ordered with length distinct
  obtain ⟨sameKeys, old⟩ := of_mapM_findLast ordered
  refine ⟨sameKeys, ?_⟩
  have nodup : result.Nodup := by
    apply List.Nodup.of_map keyOf
    rw [sameKeys]
    exact distinct
  apply (List.subperm_of_subset nodup old).perm_of_length_le
  have sameLength : result.length = keys.length := by
    rw [← sameKeys, List.length_map]
  omega

theorem getD_byKeys_perm (keys : List Key) (rows : List Row) :
    ((byKeys keyOf rows keys).getD rows).Perm rows := by
  cases ordered : byKeys keyOf rows keys with
  | none => exact .refl _
  | some result => exact (byKeys_eq_some ordered).2

/-- **An order of the rows' keys** is not refused. -/
theorem byKeys_of_perm (distinct : keys.Nodup) (same : keys.Perm (rows.map keyOf)) :
    ∃ result, byKeys keyOf rows keys = some result := by
  have length : keys.length = rows.length := by
    rw [same.length_eq, List.length_map]
  rw [byKeys, if_neg (not_not.mpr length), if_neg (not_not.mpr distinct)]
  exact mapM_findLast_isSome fun key member => same.mem_iff.mp member

omit [DecidableEq Key] in
/-- Rows of one table are in the same order when their keys are. -/
theorem eq_of_keys {first second : List Row} (unique : (rows.map keyOf).Nodup)
    (fromRows : ∀ row ∈ first, row ∈ rows) (alsoFrom : ∀ row ∈ second, row ∈ rows)
    (same : first.map keyOf = second.map keyOf) : first = second := by
  induction first generalizing second with
  | nil => exact (List.map_eq_nil_iff.mp same.symm).symm
  | cons row rest ih =>
      cases second with
      | nil => cases same
      | cons other others =>
          obtain ⟨sameKey, sameRest⟩ := List.cons.inj same
          rw [List.inj_on_of_nodup_map unique (fromRows row List.mem_cons_self)
            (alsoFrom other List.mem_cons_self) sameKey]
          rw [ih (fun row member => fromRows row (List.mem_cons_of_mem _ member))
            (fun row member => alsoFrom row (List.mem_cons_of_mem _ member)) sameRest]

end Reorder
