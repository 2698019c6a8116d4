import Mathlib.Data.List.Nodup

/-! # The order of two elements of a list

Two lists without repetitions are equal when they have the same members and no
two of these stand in opposite orders.
-/

/-- One element comes before another. -/
def Precedes {α : Type*} (list : List α) (first second : α) : Prop :=
  [first, second].Sublist list

namespace Precedes

variable {α : Type*} {list larger : List α} {first second last : α}

theorem mem_left (before : Precedes list first second) : first ∈ list :=
  before.subset List.mem_cons_self

theorem mem_right (before : Precedes list first second) : second ∈ list :=
  before.subset (List.mem_cons_of_mem _ List.mem_cons_self)

theorem of_sublist (before : Precedes list first second) (within : list.Sublist larger) :
    Precedes larger first second :=
  before.trans within

/-- No two elements of a list without repetitions stand in both orders. -/
theorem not_converse (nodup : list.Nodup) (before : Precedes list first second) :
    ¬ Precedes list second first := by
  induction list with
  | nil => cases before
  | cons head rest ih =>
      obtain ⟨absent, nodupRest⟩ := List.nodup_cons.mp nodup
      intro after
      rcases List.cons_sublist_cons'.mp before with inRest | ⟨rfl, tail⟩
      · rcases List.cons_sublist_cons'.mp after with inRest' | ⟨rfl, tail⟩
        · exact ih nodupRest inRest inRest'
        · exact absent (mem_right inRest)
      · rcases List.cons_sublist_cons'.mp after with inRest' | ⟨rfl, -⟩
        · exact absent (mem_right inRest')
        · exact absent (List.singleton_sublist.mp tail)

/-- What precedes an appended element was in the list. -/
theorem of_append_singleton (before : Precedes (list ++ [last]) first second) :
    Precedes list first second ∨ first ∈ list ∧ second = last := by
  obtain ⟨front, back, split, inFront, inBack⟩ := List.sublist_append_iff.mp before
  cases back with
  | nil =>
      rw [List.append_nil] at split
      rw [← split] at inFront
      exact .inl inFront
  | cons only rest =>
      obtain ⟨rfl, ended⟩ : only = last ∧ rest = [] := by
        have bounded := inBack.length_le
        simp only [List.length_cons, List.length_nil] at bounded
        have none : rest = [] := List.eq_nil_of_length_eq_zero (by omega)
        subst none
        exact ⟨List.mem_singleton.mp (List.singleton_sublist.mp inBack), rfl⟩
      subst ended
      have pair : [first] ++ [second] = front ++ [only] := split
      obtain ⟨rfl, same⟩ := List.append_inj' pair rfl
      exact .inr ⟨List.singleton_sublist.mp inFront, (List.cons.inj same).1⟩

/-- Inserting an element changes the order of no two others. -/
theorem of_inserted [DecidableEq α] {front back : List α} {inserted : α}
    (before : Precedes (front ++ inserted :: back) first second)
    (notFirst : first ≠ inserted) (notSecond : second ≠ inserted) :
    Precedes (front ++ back) first second := by
  have kept := before.filter fun element => decide (element ≠ inserted)
  have whole : [first, second].filter (fun element => decide (element ≠ inserted)) =
      [first, second] := by simp [notFirst, notSecond]
  have without : (front ++ inserted :: back).filter (fun element => decide (element ≠ inserted)) =
      (front ++ back).filter fun element => decide (element ≠ inserted) := by
    simp [List.filter_append]
  rw [whole, without] at kept
  exact kept.trans List.filter_sublist

/-- **Lists that disagree in nothing are equal.** -/
theorem eq_of_agree {other : List α} (nodup : list.Nodup) (nodup' : other.Nodup)
    (same : ∀ element, element ∈ list ↔ element ∈ other)
    (agree : ∀ first second, Precedes list first second → ¬ Precedes other second first) :
    list = other := by
  induction list generalizing other with
  | nil =>
      refine (List.eq_nil_iff_forall_not_mem.mpr fun element member => ?_).symm
      exact List.not_mem_nil ((same element).mpr member)
  | cons head rest ih =>
      cases other with
      | nil => exact absurd ((same head).mp List.mem_cons_self) List.not_mem_nil
      | cons head' rest' =>
          obtain ⟨absent, nodupRest⟩ := List.nodup_cons.mp nodup
          obtain ⟨absent', nodupRest'⟩ := List.nodup_cons.mp nodup'
          have heads : head = head' := by
            by_contra differ
            have inRest' : head ∈ rest' :=
              (List.mem_cons.mp ((same head).mp List.mem_cons_self)).resolve_left differ
            have inRest : head' ∈ rest :=
              (List.mem_cons.mp ((same head').mpr List.mem_cons_self)).resolve_left
                (Ne.symm differ)
            exact agree head head' ((List.singleton_sublist.mpr inRest).cons_cons head)
              ((List.singleton_sublist.mpr inRest').cons_cons head')
          subst heads
          have rests : ∀ element, element ∈ rest ↔ element ∈ rest' := by
            intro element
            by_cases isHead : element = head
            · rw [isHead]
              exact iff_of_false absent absent'
            · have whole := same element
              rw [List.mem_cons, List.mem_cons] at whole
              simpa only [isHead, false_or] using whole
          rw [ih nodupRest nodupRest' rests fun first second before after =>
            agree first second (before.cons head) (after.cons head)]

end Precedes
