import Mathlib.Data.List.Basic

/-! # Sweeps that nobody notices

A sweep removes rows between the steps of a system. Nobody notices it when every step
answers the same on the swept state, and leaves a state that differs by swept rows only.
-/

namespace Sweep

section Rows

variable {Row : Type*} {keep select : Row → Bool} {rows : List Row}

/-- A search that selects only rows that are kept finds the same row. -/
theorem find?_filter (spares : ∀ row ∈ rows, select row = true → keep row = true) :
    (rows.filter keep).find? select = rows.find? select := by
  induction rows with
  | nil => rfl
  | cons row rest ih =>
      have others := ih fun other member => spares other (List.mem_cons_of_mem row member)
      by_cases kept : keep row = true
      · rw [List.filter_cons_of_pos kept]
        simp only [List.find?_cons, others]
      · have passed : select row = false := by
          rw [Bool.eq_false_iff]
          exact fun selected => kept (spares row List.mem_cons_self selected)
        rw [List.filter_cons_of_neg kept, others, List.find?_cons, passed]

/-- A later sweep makes an earlier one superfluous, also where the rows changed in between,
as long as it keeps no row that was gone. -/
theorem filter_map_filter {earlier : Row → Bool} {change : Row → Row}
    (returns : ∀ row ∈ rows, keep (change row) = true → earlier row = true) :
    ((rows.filter earlier).map change).filter keep = (rows.map change).filter keep := by
  induction rows with
  | nil => rfl
  | cons row rest ih =>
      have others := ih fun other member => returns other (List.mem_cons_of_mem row member)
      by_cases kept : earlier row = true
      · rw [List.filter_cons_of_pos kept]
        simp only [List.map_cons, List.filter_cons, others]
      · have gone : ¬ keep (change row) = true :=
          fun back => kept (returns row List.mem_cons_self back)
        rw [List.filter_cons_of_neg kept, List.map_cons, List.filter_cons_of_neg gone, others]

theorem filter_filter_of_imp {earlier : Row → Bool}
    (stricter : ∀ row, keep row = true → earlier row = true) :
    (rows.filter earlier).filter keep = rows.filter keep := by
  have swept := @filter_map_filter _ keep rows earlier id fun row _ => stricter row
  rwa [List.map_id, List.map_id] at swept

end Rows

section Runs

variable {State Input Output : Type*} (step : State → Input → Output × State)
  (sweep : State → State)

/-- The answers to a list of inputs, with sweeps where there is none. -/
def outputs : State → List (Option Input) → List Output
  | _, [] => []
  | state, none :: rest => outputs (sweep state) rest
  | state, some input :: rest => (step state input).1 :: outputs (step state input).2 rest

/-- The sweep is not noticed by one step, nor by those after it. -/
structure Unnoticed : Prop where
  twice : ∀ state, sweep (sweep state) = sweep state
  answer : ∀ state input, (step (sweep state) input).1 = (step state input).1
  next : ∀ state input, sweep (step (sweep state) input).2 = sweep (step state input).2

variable {step sweep}

/-- States that differ by swept rows answer alike, with the sweeps and without. -/
theorem Unnoticed.outputs_eq (unnoticed : Unnoticed step sweep) {state other : State}
    (alike : sweep state = sweep other) (inputs : List (Option Input)) :
    outputs step sweep state inputs = outputs step sweep other (inputs.filter Option.isSome) := by
  induction inputs generalizing state other with
  | nil => rfl
  | cons entry rest ih =>
      cases entry with
      | none => exact ih ((unnoticed.twice state).trans alike)
      | some input =>
          have same : (step state input).1 = (step other input).1 := by
            rw [← unnoticed.answer state, ← unnoticed.answer other, alike]
          have further : sweep (step state input).2 = sweep (step other input).2 := by
            rw [← unnoticed.next state, ← unnoticed.next other, alike]
          simp only [outputs, List.filter_cons, Option.isSome_some, if_true, same, ih further]

/-- **Sweeps go unnoticed** wherever they stand in a run. -/
theorem Unnoticed.outputs_filter (unnoticed : Unnoticed step sweep) (state : State)
    (inputs : List (Option Input)) :
    outputs step sweep state inputs = outputs step sweep state (inputs.filter Option.isSome) :=
  unnoticed.outputs_eq rfl inputs

end Runs

end Sweep
