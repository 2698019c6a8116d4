import Mathlib.Data.List.Sort

/-! # Lists in descending order of a key

Sorting a list newest first, the pages cut from it, and when a list of some of its
elements is a prefix of it.
-/

namespace NewestFirst

variable {α : Type*} (key : α → Nat)

/-- Each element's key is greater than those of the elements after it. -/
def Descending (list : List α) : Prop := list.Pairwise fun first second => key second < key first

instance (list : List α) : Decidable (Descending key list) :=
  inferInstanceAs (Decidable (list.Pairwise fun first second => key second < key first))

/-- The list in the order of its keys, the greatest first. -/
def sort (list : List α) : List α := list.insertionSort fun first second => key second ≤ key first

variable {key}

@[simp] theorem mem_sort {list : List α} {element : α} :
    element ∈ sort key list ↔ element ∈ list :=
  List.mem_insertionSort _

theorem descending_sort {list : List α} (distinct : (list.map key).Nodup) :
    Descending key (sort key list) := by
  have total : Std.Total fun first second : α => key second ≤ key first :=
    ⟨fun first second => Nat.le_total (key second) (key first)⟩
  have trans : IsTrans α fun first second => key second ≤ key first :=
    ⟨fun _ _ _ before after => Nat.le_trans after before⟩
  have ordered := List.pairwise_insertionSort
    (fun first second : α => key second ≤ key first) list
  have apart : (sort key list).Pairwise fun first second => key first ≠ key second :=
    List.pairwise_map.mp
      (((List.perm_insertionSort _ list).map key).nodup_iff.mpr distinct)
  refine (ordered.and apart).imp ?_
  intro first second both
  exact Nat.lt_of_le_of_ne both.1 (Ne.symm both.2)

theorem Descending.sublist {part list : List α} (descending : Descending key list)
    (sub : part.Sublist list) : Descending key part :=
  List.Pairwise.sublist sub descending

/-- The last element has the least key. -/
theorem Descending.last_le {list : List α} (descending : Descending key list) {last : α}
    (ends : last ∈ list.getLast?) {element : α} (member : element ∈ list) :
    key last ≤ key element := by
  induction list with
  | nil => cases member
  | cons head rest ih =>
      obtain ⟨below, restDescends⟩ := List.pairwise_cons.mp descending
      cases rest with
      | nil =>
          have only : head = last := Option.some.inj ends
          rw [← only, List.mem_singleton.mp member]
      | cons next others =>
          rw [Option.mem_def, List.getLast?_cons_cons] at ends
          rcases List.mem_cons.mp member with same | later
          · have smaller := below last (List.mem_of_getLast? ends)
            rw [same]
            omega
          · exact ih restDescends ends later

/-- **Prefixes** of a descending list are its descending parts that lack nothing newer
than what they have. -/
theorem isPrefix_of_closed {part whole : List α} (ordered : Descending key part)
    (descending : Descending key whole) (sub : ∀ element ∈ part, element ∈ whole)
    (closed : ∀ element ∈ whole, ∀ other ∈ part, key other < key element → element ∈ part) :
    part <+: whole := by
  induction whole generalizing part with
  | nil =>
      cases part with
      | nil => exact List.prefix_rfl
      | cons head rest => cases sub head List.mem_cons_self
  | cons newest older ih =>
      cases part with
      | nil => exact List.nil_prefix
      | cons head rest =>
          obtain ⟨below, restOrdered⟩ := List.pairwise_cons.mp ordered
          obtain ⟨above, olderDescends⟩ := List.pairwise_cons.mp descending
          have same : head = newest := by
            rcases List.mem_cons.mp (sub head List.mem_cons_self) with same | later
            · exact same
            · have newer := above head later
              have inside := closed newest List.mem_cons_self head List.mem_cons_self newer
              rcases List.mem_cons.mp inside with same | behind
              · exact same.symm
              · have older := below newest behind
                omega
          subst same
          refine (List.cons_prefix_cons).mpr ⟨rfl, ih restOrdered olderDescends ?_ ?_⟩
          · intro element member
            rcases List.mem_cons.mp (sub element (List.mem_cons_of_mem _ member)) with same | later
            · have older := below element member
              rw [same] at older
              exact absurd older (Nat.lt_irrefl _)
            · exact later
          · intro element member other inside newer
            rcases List.mem_cons.mp (closed element (List.mem_cons_of_mem _ member) other
              (List.mem_cons_of_mem _ inside) newer) with same | kept
            · have older := above element member
              rw [same] at older
              exact absurd older (Nat.lt_irrefl _)
            · exact kept

/-- A page lacks only what is older than all of it, and is not empty then. -/
theorem mem_take_or_older {list : List α} (descending : Descending key list) {count : Nat}
    (positive : 0 < count) {element : α} (member : element ∈ list) :
    element ∈ list.take count ∨
      list.take count ≠ [] ∧ ∀ other ∈ list.take count, key element < key other := by
  rw [← List.take_append_drop count list] at member descending
  rcases List.mem_append.mp member with taken | left
  · exact .inl taken
  · refine .inr ⟨?_, fun other taken => (List.pairwise_append.mp descending).2.2 _ taken _ left⟩
    intro empty
    rcases List.take_eq_nil_iff.mp empty with none | nothing
    · omega
    · rw [nothing, List.drop_nil] at left
      cases left

end NewestFirst
