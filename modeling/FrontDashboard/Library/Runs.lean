import Mathlib.Data.List.SplitBy

/-! # Runs

A list falls apart into its runs, in each of which every element joins the one before. An
element that is appended lengthens the last run or begins one of its own.
-/

namespace Runs

variable {α κ : Type*} {joins : α → α → Bool}

/-- An element that joins nothing begins a run. -/
theorem splitBy_concat_of_apart {elements : List α} {newest : α}
    (apart : ∀ previous ∈ elements.getLast?, joins previous newest = false) :
    (elements ++ [newest]).splitBy joins = elements.splitBy joins ++ [[newest]] :=
  List.splitBy_append_cons [] apart

/-- An element that joins the last one lengthens its run. -/
theorem splitBy_concat_of_joins {elements : List α} {earlier : List (List α)} {run : List α}
    {newest : α} (split : elements.splitBy joins = earlier ++ [run])
    (joined : ∀ previous ∈ run.getLast?, joins previous newest = true) :
    (elements ++ [newest]).splitBy joins = earlier ++ [run ++ [newest]] := by
  obtain ⟨whole, full, chained, apart⟩ := List.splitBy_eq_iff.mp split
  rw [List.splitBy_eq_iff]
  refine ⟨?_, ?_, ?_, ?_⟩
  · simp [whole]
  · simpa using fun inside => full (List.mem_append_left _ inside)
  · intro part member
    rcases List.mem_append.mp member with before | last
    · exact chained part (List.mem_append_left _ before)
    · obtain rfl := List.mem_singleton.mp last
      rw [List.isChain_append]
      refine ⟨chained run (by simp), List.isChain_singleton _, ?_⟩
      intro previous found next same
      obtain rfl : newest = next := by simpa using same
      exact joined previous found
  · rw [List.isChain_append] at apart ⊢
    refine ⟨apart.1, List.isChain_singleton _, ?_⟩
    intro before found after same
    obtain rfl : run ++ [newest] = after := by simpa using same
    obtain ⟨some_, others, separate⟩ := apart.2.2 before found run (by simp)
    exact ⟨some_, by simp, by rwa [List.head_append_of_ne_nil others]⟩

/-- Elements that join agree on their key, so that a run has one. -/
theorem key_eq_of_chain (key : α → κ)
    (agree : ∀ previous next, joins previous next = true → key next = key previous)
    {first : α} {rest : List α}
    (chained : (first :: rest).IsChain fun previous next => joins previous next = true) :
    ∀ member ∈ first :: rest, key member = key first := by
  induction rest generalizing first with
  | nil => simp
  | cons second rest ih =>
      obtain ⟨joined, later⟩ := List.isChain_cons_cons.mp chained
      intro member inside
      rcases List.mem_cons.mp inside with rfl | after
      · rfl
      · exact (ih later member after).trans (agree first second joined)

/-- Neighbours that satisfy two relations satisfy both at once. -/
theorem isChain_and {first second : α → α → Prop} {elements : List α}
    (one : elements.IsChain first) (other : elements.IsChain second) :
    elements.IsChain fun previous next => first previous next ∧ second previous next := by
  rw [List.isChain_iff_forall_rel_of_append_cons_cons] at one other ⊢
  exact fun _ _ _ _ same => ⟨one same, other same⟩

end Runs
