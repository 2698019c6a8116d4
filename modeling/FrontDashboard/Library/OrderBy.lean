import FrontDashboard.Library.Reorder
import Mathlib.Data.List.Chain
import Mathlib.Data.List.Pairwise
import Mathlib.Data.List.Sort

/-! # The rows of an ordered query

What `ORDER BY` may answer: the rows of a table, arranged so that none follows
a row its keys put before it. Rows with equal keys may come either way, so a
table has one answer only when its keys tell any two rows apart.
-/

variable {α : Type*} (before : α → α → Prop)

structure OrderedBy (rows answer : List α) : Prop where
  perm : answer.Perm rows
  ordered : answer.Pairwise fun row later => ¬ before later row

namespace OrderedBy

variable {before} {rows answer : List α}

/-- Rows whose keys increase strictly are the only answer. -/
theorem unique {increasing : List α} (asymm : ∀ row other, before row other → ¬ before other row)
    (strictly : increasing.Pairwise before) (same : increasing.Perm rows)
    (answers : OrderedBy before rows answer) : answer = increasing := by
  have weakly : increasing.Pairwise fun row later => ¬ before later row :=
    strictly.imp fun earlier => asymm _ _ earlier
  have told : increasing.Pairwise fun row other => before row other ∨ before other row :=
    strictly.imp Or.inl
  apply List.Perm.eq_of_pairwise _ answers.ordered weakly (answers.perm.trans same.symm)
  intro row other first second notBefore notAfter
  have present : row ∈ increasing := same.mem_iff.mpr (answers.perm.mem_iff.mp first)
  by_contra different
  have symm : Std.Symm fun row other => before row other ∨ before other row :=
    ⟨fun _ _ => Or.symm⟩
  rcases told.forall present second different with earlier | later
  · exact notAfter earlier
  · exact notBefore later

/-- Keys that put one row before another, and that before a third, put the first before the
third. -/
theorem before_trans (asymm : ∀ row other, before row other → ¬ before other row)
    (between : ∀ row middle other, before row other → before row middle ∨ before middle other)
    {row middle other : α} (first : before row middle) (second : before middle other) :
    before row other :=
  (between row other middle first).resolve_right (asymm _ _ second)

/-- **A table with one answer** has keys that tell any two of its rows apart. -/
theorem strictly {Key : Type*} {key : α → Key} (unique : (rows.map key).Nodup)
    (asymm : ∀ row other, before row other → ¬ before other row)
    (between : ∀ row middle other, before row other → before row middle ∨ before middle other)
    (answers : OrderedBy before rows answer)
    (only : ∀ other, OrderedBy before rows other → other.map key = answer.map key) :
    answer.Pairwise before := by
  have trans : IsTrans α before := ⟨fun _ _ _ => before_trans asymm between⟩
  refine List.IsChain.pairwise (List.isChain_iff_forall_rel_of_append_cons_cons.mpr ?_)
  intro row next front back same
  by_contra notBefore
  have ordered := answers.ordered
  rw [same, List.pairwise_append, List.pairwise_cons, List.pairwise_cons] at ordered
  obtain ⟨inFront, ⟨afterRow, afterNext, inBack⟩, across⟩ := ordered
  have swapped : OrderedBy before rows (front ++ next :: row :: back) := by
    constructor
    · refine List.Perm.trans ?_ answers.perm
      rw [same]
      exact (List.Perm.swap row next back).append_left front
    · rw [List.pairwise_append, List.pairwise_cons, List.pairwise_cons]
      refine ⟨inFront, ⟨?_, ?_, inBack⟩, ?_⟩
      · intro later member
        rcases List.mem_cons.mp member with rfl | member
        · exact notBefore
        · exact afterNext later member
      · exact fun later member => afterRow later (List.mem_cons_of_mem next member)
      · intro earlier member later afterwards
        exact across earlier member later ((List.Perm.swap row next back).mem_iff.mp afterwards)
  have sameKeys := only _ swapped
  rw [same, List.map_append, List.map_append, List.append_cancel_left_eq] at sameKeys
  have distinct := (answers.perm.map key).nodup_iff.mpr unique
  rw [same, List.map_append, List.nodup_append] at distinct
  exact (List.nodup_cons.mp distinct.2.1).1 (by simp [List.cons.inj sameKeys |>.1])

/-- **A new row** is listed last, and nowhere else, exactly when the keys put each of the
others before it. -/
theorem append_iff {Key : Type*} {key : α → Key} {row : α} {others : List α}
    (same : others.Perm (rows ++ [row])) (unique : (others.map key).Nodup)
    (asymm : ∀ row other, before row other → ¬ before other row)
    (answers : OrderedBy before rows answer) (strictly : answer.Pairwise before) :
    (∃ longer, OrderedBy before others longer ∧ longer.Pairwise before ∧
        longer.map key = (answer ++ [row]).map key) ↔
      ∀ other ∈ rows, before other row := by
  have together : (answer ++ [row]).Perm others :=
    (answers.perm.append_right [row]).trans same.symm
  constructor
  · rintro ⟨longer, answers', strictly', sameKeys⟩ other member
    obtain rfl : longer = answer ++ [row] := by
      refine Reorder.eq_of_keys unique ?_ ?_ sameKeys
      · exact fun row member => answers'.perm.subset member
      · exact fun row member => together.subset member
    have last := (List.pairwise_append.mp strictly').2.2
    exact last other (answers.perm.symm.subset member) row List.mem_cons_self
  · intro last
    have strictly' : (answer ++ [row]).Pairwise before := by
      refine List.pairwise_append.mpr ⟨strictly, List.pairwise_singleton _ _, ?_⟩
      intro other member new isNew
      rw [List.mem_singleton.mp isNew]
      exact last other (answers.perm.subset member)
    refine ⟨answer ++ [row], ⟨together, ?_⟩, strictly', rfl⟩
    exact strictly'.imp fun earlier => asymm _ _ earlier

/-- Rows that are left out leave the rest as they were. -/
theorem filter (answers : OrderedBy before rows answer) (keeps : α → Bool) :
    OrderedBy before (rows.filter keeps) (answer.filter keeps) :=
  ⟨answers.perm.filter keeps, answers.ordered.filter keeps⟩

/-- A change that leaves the keys alone leaves the order alone. -/
theorem map (answers : OrderedBy before rows answer) {change : α → α}
    (keeps : ∀ row other, before (change row) (change other) → before row other) :
    OrderedBy before (rows.map change) (answer.map change) := by
  apply OrderedBy.mk (answers.perm.map change)
  rw [List.pairwise_map]
  exact answers.ordered.imp fun notBefore moved => notBefore (keeps _ _ moved)

section Insertion

variable [DecidableRel before]

/-- A new row goes before the first that its keys put after it. -/
theorem insert (asymm : ∀ row other, before row other → ¬ before other row)
    (between : ∀ row middle other, before row other → before row middle ∨ before middle other)
    (row : α) (answers : OrderedBy before rows answer) :
    OrderedBy before (row :: rows) (answer.orderedInsert before row) := by
  apply OrderedBy.mk ((List.perm_orderedInsert before row answer).trans (answers.perm.cons row))
  have ordered := answers.ordered
  clear answers
  induction answer with
  | nil => simp
  | cons head tail ih =>
      obtain ⟨first, rest⟩ := List.pairwise_cons.mp ordered
      by_cases earlier : before row head
      · rw [List.orderedInsert_cons_of_le before tail earlier]
        apply List.pairwise_cons.mpr ⟨_, ordered⟩
        intro later member
        rcases List.mem_cons.mp member with rfl | member
        · exact asymm _ _ earlier
        · intro before
          rcases between _ head _ before with first' | second
          · exact first later member first'
          · exact asymm _ _ earlier second
      · rw [List.orderedInsert_of_not_le before tail earlier]
        apply List.pairwise_cons.mpr ⟨_, ih rest⟩
        intro later member
        rcases (List.mem_orderedInsert before).mp member with rfl | member
        · exact earlier
        · exact first later member

/-- Inserting the rows one by one answers the query. -/
theorem insertionSort (asymm : ∀ row other, before row other → ¬ before other row)
    (between : ∀ row middle other, before row other → before row middle ∨ before middle other)
    (rows : List α) : OrderedBy before rows (rows.insertionSort before) := by
  induction rows with
  | nil => exact ⟨.nil, .nil⟩
  | cons row rest ih => exact ih.insert asymm between row

end Insertion

/-- A row that no row follows is inserted at the end. -/
theorem orderedInsert_eq_append [DecidableRel before] {row : α}
    (last : ∀ other ∈ answer, ¬ before row other) :
    answer.orderedInsert before row = answer ++ [row] := by
  induction answer with
  | nil => rfl
  | cons head tail ih =>
      rw [List.orderedInsert_of_not_le before tail (last head (List.mem_cons_self ..)), ih]
      · rfl
      · exact fun other member => last other (List.mem_cons_of_mem _ member)

end OrderedBy
