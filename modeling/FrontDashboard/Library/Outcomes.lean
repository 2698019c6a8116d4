import Mathlib.Data.List.Basic

/-! # Computations that may fail

When a sequence of steps succeeds, and when a list of them does.
-/

namespace Outcomes

variable {ε α β : Type}

/-- Two steps succeed when the first does and the second does on its result. -/
theorem bind_eq_ok {first : Except ε α} {next : α → Except ε β} {result : β} :
    (first >>= next) = .ok result ↔ ∃ value, first = .ok value ∧ next value = .ok result := by
  cases first with
  | error error =>
      constructor
      · intro failed
        cases failed
      · rintro ⟨value, ok, _⟩
        cases ok
  | ok value =>
      constructor
      · exact fun succeeded => ⟨value, rfl, succeeded⟩
      · rintro ⟨same, ok, succeeded⟩
        cases ok
        exact succeeded

theorem map_eq_ok {change : α → β} {outcome : Except ε α} {result : β} :
    outcome.map change = .ok result ↔ ∃ value, outcome = .ok value ∧ change value = result := by
  cases outcome with
  | error error => simp [Except.map]
  | ok value => simp [Except.map]

theorem toOption_eq_some {outcome : Except ε α} {value : α} :
    outcome.toOption = some value ↔ outcome = .ok value := by
  cases outcome with
  | error error =>
      constructor
      · intro found
        cases found
      · intro ok
        cases ok
  | ok result =>
      constructor
      · intro found
        rw [Option.some.inj found]
      · intro ok
        cases ok
        rfl

/-- What is seen of the result shows that there is one. -/
theorem exists_of_toOption_map {outcome : Except ε α} {view : α → β} {seen : β}
    (shows : outcome.toOption.map view = some seen) :
    ∃ value, outcome = .ok value ∧ view value = seen := by
  cases outcome with
  | error error => cases shows
  | ok value => exact ⟨value, rfl, Option.some.inj shows⟩

/-- A list of computations that all succeed succeeds, with their results. -/
theorem exists_mapM {f : α → Except ε β} {items : List α}
    (succeeds : ∀ item ∈ items, ∃ result, f item = .ok result) :
    ∃ results, items.mapM f = .ok results ∧
      ∀ result, result ∈ results ↔ ∃ item ∈ items, f item = .ok result := by
  induction items with
  | nil => exact ⟨[], rfl, by simp⟩
  | cons head tail ih =>
      obtain ⟨first, ran⟩ := succeeds head List.mem_cons_self
      obtain ⟨rest, continued, same⟩ := ih fun item member =>
        succeeds item (List.mem_cons_of_mem _ member)
      refine ⟨first :: rest, by rw [List.mapM_cons, ran, continued]; rfl, ?_⟩
      intro result
      simp only [List.mem_cons, same, exists_eq_or_imp, ran, Except.ok.injEq, eq_comm (a := result)]

end Outcomes
