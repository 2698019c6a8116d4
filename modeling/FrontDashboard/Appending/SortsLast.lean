import FrontDashboard.Appending.Ensured

/-! # When an appended row sorts strictly last

The next order is one past the largest, but for a largest of zero, which counts as none:
`(max or -1) + 1` is zero then. Until a reorder every row of a parent has order zero.
-/

namespace FrontDashboard.Appending

open ReadCommitted
open Calendar (HttpError)
open Lists.Page (appendOrder)

/-! ## The next order -/

variable {seen : List Nat}

theorem appendOrder_eq_zero (zero : ∀ order ∈ seen, order = 0) : appendOrder seen = 0 := by
  unfold appendOrder
  split
  · rename_i order largest
    have positive := zero _ (List.max?_mem largest)
    omega
  · rfl

theorem lt_appendOrder_iff (positive : ∃ order ∈ seen, 0 < order) {order : Nat} :
    order < appendOrder seen ↔ ∃ above ∈ seen, order ≤ above := by
  obtain ⟨some_, present, above⟩ := positive
  obtain ⟨largest, found⟩ : ∃ largest, seen.max? = some largest :=
    Option.isSome_iff_exists.mp (List.isSome_max?_of_mem present)
  obtain ⟨member, bound⟩ := List.max?_eq_some_iff.mp found
  have next : appendOrder seen = largest + 1 := by
    unfold appendOrder
    rw [found]
    cases largest with
    | zero => exact absurd (bound some_ present) (by omega)
    | succ order => rfl
  rw [next, Nat.lt_succ_iff]
  constructor
  · exact fun least => ⟨largest, member, least⟩
  · exact fun ⟨other, inside, least⟩ => least.trans (bound other inside)

/-! ## The rows of a run -/

/-- The row is past every other row of its parent. -/
def Appended.StrictlyLast (entry : Appended) : Prop :=
  ∀ order ∈ entry.others, order < entry.order

/-- The row has no other beside it, or the orders it was drawn from are not all zero and,
where rows were moved meanwhile, none beside it is past all of these. -/
def Appended.Clear (entry : Appended) : Prop :=
  entry.others = [] ∨ (∃ order ∈ entry.seen, 0 < order) ∧
    (entry.disturbed = true → ∀ order ∈ entry.others, ∃ above ∈ entry.seen, order ≤ above)

instance (entry : Appended) : Decidable entry.StrictlyLast :=
  inferInstanceAs (Decidable (∀ order ∈ entry.others, order < entry.order))

/-- Rows beside an undisturbed one were among those that its order was drawn from. -/
theorem Appended.Recorded.covered {entry : Appended} (recorded : entry.Recorded)
    (clear : entry.disturbed = true → ∀ order ∈ entry.others, ∃ above ∈ entry.seen, order ≤ above) :
    ∀ order ∈ entry.others, ∃ above ∈ entry.seen, order ≤ above := by
  cases moved : entry.disturbed with
  | true => exact clear moved
  | false => exact fun order beside => ⟨order, recorded.among moved beside, le_rfl⟩

theorem Appended.Recorded.strictlyLast_iff {entry : Appended} (recorded : entry.Recorded) :
    entry.StrictlyLast ↔ entry.Clear := by
  unfold StrictlyLast Clear
  rw [recorded.drawn]
  by_cases positive : ∃ order ∈ entry.seen, 0 < order
  · simp only [lt_appendOrder_iff positive]
    refine ⟨fun past => .inr ⟨positive, fun _ => past⟩, fun clear => ?_⟩
    rcases clear with none_ | ⟨_, moved⟩
    · simp [none_]
    · exact recorded.covered moved
  · have zero : ∀ order ∈ entry.seen, order = 0 := fun order member =>
      Nat.eq_zero_of_not_pos fun above => positive ⟨order, member, above⟩
    rw [appendOrder_eq_zero zero]
    refine ⟨fun past => .inl ?_, fun clear => ?_⟩
    · exact List.eq_nil_iff_forall_not_mem.mpr fun order beside =>
        Nat.not_lt_zero order (past order beside)
    · rcases clear with none_ | ⟨above, _⟩
      · simp [none_]
      · exact absurd above positive

variable {settings : Settings}

/-- **When an appended row sorts strictly last.** In whatever way the requests of any history
run among each other, it does exactly when the way is clear; items are never moved while
one is appended. -/
theorem strictlyLast_iff_clear {state : State Tables Write Lock HttpError Response}
    (reached : (service settings).system.Reachable state) {entry : Appended}
    (appended : entry ∈ state.database.appended) :
    (entry.StrictlyLast ↔ entry.Clear) ∧
      ∀ list, entry.parent = .list list → entry.disturbed = false := by
  have recorded : entry.Recorded :=
    Service.invariant_of_reachable (verified settings) reached entry appended
  exact ⟨recorded.strictlyLast_iff, recorded.locked⟩

/-! ## Histories -/

/-- The quotas of the defaults. -/
def usual : Settings := ⟨1000, 200, 25000, 5000, 100⟩

def empty : State Tables Write Lock HttpError Response :=
  ⟨⟨[], fun _ => [], [], [], [], fun _ => 0, []⟩, fun _ => none, fun _ => none⟩

theorem empty_initial : (service usual).system.Initial empty :=
  ⟨rfl, fun _ => rfl, fun _ => rfl⟩

/-- A dashboard, and two lists that are created on it. -/
def twoLists : List (Action Request Event HttpError) :=
  .occur (.dashboards [⟨1, 7, [], 0, none⟩]) ::
    (runs 1 (.createList 7 1 .todo 10) 10 ++ runs 2 (.createList 7 1 .todo 11) 10)

/-- The two lists in a new order, and a third. -/
def threeLists : List (Action Request Event HttpError) :=
  twoLists ++ runs 3 (.reorderLists 7 ⟨1, [11, 10], by decide, by decide, by decide⟩) 9 ++
    runs 4 (.createList 7 1 .todo 12) 10

/-- After a reorder a list is appended past the others. -/
theorem strictlyLast_after_reorder :
    ∃ state, (service usual).system.Reachable state ∧
      ∃ entry ∈ state.database.appended, entry = ⟨.dashboard 1, 2, [1, 0], [1, 0], false⟩ ∧
        entry.StrictlyLast := by
  obtain ⟨state, reached, third⟩ := TransitionSystem.exists_reachable_of_run empty_initial
    threeLists
    (fun state => decide (⟨.dashboard 1, 2, [1, 0], [1, 0], false⟩ ∈ state.database.appended))
    (by decide +kernel)
  have appended := of_decide_eq_true third
  refine ⟨state, reached, _, appended, rfl, (strictlyLast_iff_clear reached appended).1.mpr ?_⟩
  exact .inr ⟨⟨1, by simp, Nat.one_pos⟩, nofun⟩

/-- Two items of the first list. -/
def twoItems : List (Action Request Event HttpError) :=
  runs 3 (.createItem 7 10 20) 10 ++ runs 4 (.createItem 7 10 21) 10

/-- The second list of a dashboard and the second item of a list tie with the first. -/
theorem second_row_ties :
    (∃ state, (service usual).system.Reachable state ∧
      ⟨.dashboard 1, 0, [0], [0], false⟩ ∈ state.database.appended ∧
        ⟨.list 10, 0, [0], [0], false⟩ ∈ state.database.appended) ∧
      ¬ ∀ state, (service usual).system.Reachable state →
        ∀ entry ∈ state.database.appended, entry.StrictlyLast := by
  obtain ⟨state, reached, ties⟩ := TransitionSystem.exists_reachable_of_run empty_initial
    (twoLists ++ twoItems)
    (fun state => decide (⟨.dashboard 1, 0, [0], [0], false⟩ ∈ state.database.appended ∧
      ⟨.list 10, 0, [0], [0], false⟩ ∈ state.database.appended))
    (by decide +kernel)
  obtain ⟨list, item⟩ := of_decide_eq_true ties
  refine ⟨⟨state, reached, list, item⟩, fun always => ?_⟩
  exact Nat.lt_irrefl 0 (always state reached _ item 0 (List.mem_singleton_self 0))

/-- A list restored between the maximum and the commit ties with the new one. -/
example : ((service usual).system.run (fun _ _ => True) empty
    (threeLists ++ runs 5 (.deleteList 7 12 0) 8 ++ runs 6 (.createList 7 1 .todo 13) 6 ++
      runs 7 (.restoreList 7 12) 8 ++ List.replicate 4 (.advance 6))).any (fun state =>
        decide (⟨.dashboard 1, 2, [1, 0], [1, 0, 2], true⟩ ∈ state.database.appended)) = true := by
  decide +kernel

end FrontDashboard.Appending
