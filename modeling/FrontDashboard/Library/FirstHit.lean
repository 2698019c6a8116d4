import Mathlib.Data.List.Pairwise
import Mathlib.Order.Defs.PartialOrder

/-! # The first hit in a sorted list

A search that goes through its candidates in order finds the least of those that
pass, so the outcome is determined by the order and the set of the candidates.
-/

namespace List

variable {α β : Type} {candidates : List α} {attempt : α → Option β} {outcome : β}

/-- **The first hit** comes before every other hit. -/
theorem findSome?_first {before : α → α → Prop}
    (reflexive : ∀ candidate, before candidate candidate)
    (sorted : candidates.Pairwise before) (found : candidates.findSome? attempt = some outcome) :
    ∃ candidate ∈ candidates, attempt candidate = some outcome ∧
      ∀ other ∈ candidates, attempt other ≠ none → before candidate other := by
  induction candidates with
  | nil => cases found
  | cons head tail ih =>
      obtain ⟨headFirst, tailSorted⟩ := List.pairwise_cons.mp sorted
      rw [List.findSome?_cons] at found
      split at found
      next hit =>
        refine ⟨head, List.mem_cons_self, hit.trans found, fun other member _ => ?_⟩
        rcases List.mem_cons.mp member with rfl | later
        · exact reflexive other
        · exact headFirst other later
      next miss =>
        obtain ⟨candidate, member, same, first⟩ := ih tailSorted found
        refine ⟨candidate, List.mem_cons_of_mem head member, same, fun other among hit => ?_⟩
        rcases List.mem_cons.mp among with rfl | later
        · exact absurd miss hit
        · exact first other later hit

section PartialOrder

variable [PartialOrder α]

/-- The search among sorted candidates, as a least hit. -/
theorem findSome?_eq_some_iff_least (sorted : candidates.Pairwise (· ≤ ·)) :
    candidates.findSome? attempt = some outcome ↔
      ∃ candidate ∈ candidates, attempt candidate = some outcome ∧
        ∀ other ∈ candidates, attempt other ≠ none → candidate ≤ other := by
  constructor
  · exact findSome?_first le_refl sorted
  · rintro ⟨candidate, member, hit, least⟩
    cases found : candidates.findSome? attempt with
    | none =>
        rw [List.findSome?_eq_none_iff] at found
        rw [found candidate member] at hit
        cases hit
    | some other =>
        obtain ⟨first, among, same, firstLeast⟩ := findSome?_first le_refl sorted found
        have firstBelow := firstLeast candidate member (by simp [hit])
        have candidateBelow := least first among (by simp [same])
        rw [← same, ← hit, le_antisymm firstBelow candidateBelow]

/-- **The same candidates in order** give the same outcome, repeated or not. -/
theorem findSome?_eq_of_mem_iff {others : List α} (sorted : candidates.Pairwise (· ≤ ·))
    (alsoSorted : others.Pairwise (· ≤ ·))
    (same : ∀ candidate, candidate ∈ candidates ↔ candidate ∈ others) :
    candidates.findSome? attempt = others.findSome? attempt := by
  apply Option.ext
  intro found
  rw [findSome?_eq_some_iff_least sorted, findSome?_eq_some_iff_least alsoSorted]
  simp only [same]

end PartialOrder

end List
