import Mathlib.Data.List.Sort
import Mathlib.Order.OrderIsoNat
import Mathlib.Order.WithBot

/-! # Keyset paging

Rows listed by their place, the highest first, in pages that each begin below the
last row of the page before. Between the pages the rows may change.
-/

namespace Keyset

/-- Where a walk through the pages stands: at the top, below a place, or at the
bottom when it is over. -/
abbrev Stand (Place : Type*) := WithBot (WithTop Place)

variable {Row Place : Type*}

/-- A page asked for without a cursor begins at the top. -/
def Stand.asked : Option Place → Stand Place
  | none => ((⊤ : WithTop Place) : WithBot (WithTop Place))
  | some place => ((place : WithTop Place) : WithBot (WithTop Place))

/-- A page answered without a cursor leaves nothing. -/
def Stand.left : Option Place → Stand Place
  | none => ⊥
  | some place => ((place : WithTop Place) : WithBot (WithTop Place))

variable [LinearOrder Place] (place : Row → Place)

/-- The rows by their places, the highest first. -/
def listing (rows : List Row) : List Row :=
  rows.insertionSort fun first second => place second ≤ place first

/-- The row is still to come. -/
def Ahead (stand : Stand Place) (row : Row) : Prop :=
  ((place row : WithTop Place) : WithBot (WithTop Place)) < stand

def below (cursor : Option Place) (row : Row) : Bool :=
  cursor.all fun bound => decide (place row < bound)

/-- What a fetch finds: one row more than the page holds, if there is one. -/
def found (size : Nat) (cursor : Option Place) (rows : List Row) : List Row :=
  (listing place (rows.filter (below place cursor))).take (size + 1)

def page (size : Nat) (found : List Row) : List Row := found.take size

/-- The place of the last row of the page, when a row was found beyond the page. -/
def next (size : Nat) (found : List Row) : Option Place :=
  if size < found.length then (page size found).getLast?.map place else none

variable {place} {size : Nat} {cursor : Option Place} {rows : List Row} {row : Row}

theorem ahead_asked : Ahead place (Stand.asked cursor) row ↔ below place cursor row = true := by
  cases cursor with
  | none =>
      have reached : Ahead place (Stand.asked none) row :=
        WithBot.coe_lt_coe.mpr (WithTop.coe_lt_top _)
      exact iff_of_true reached rfl
  | some bound => simp [Ahead, Stand.asked, below]

theorem ahead_left :
    Ahead place (Stand.left cursor) row ↔ ∃ bound ∈ cursor, place row < bound := by
  cases cursor with
  | none => simp [Ahead, Stand.left]
  | some bound => simp [Ahead, Stand.left]

/-- A row that comes down stays ahead. -/
theorem Ahead.of_le {stand : Stand Place} {lower : Row} (ahead : Ahead place stand row)
    (le : place lower ≤ place row) : Ahead place stand lower :=
  lt_of_le_of_lt (WithBot.coe_le_coe.mpr (WithTop.coe_le_coe.mpr le)) ahead

section Listing

@[simp] theorem mem_listing : row ∈ listing place rows ↔ row ∈ rows :=
  List.mem_insertionSort _

theorem listing_perm : (listing place rows).Perm rows :=
  List.perm_insertionSort _ rows

theorem listing_descends :
    (listing place rows).Pairwise fun first second => place second ≤ place first := by
  have total : Std.Total fun first second : Row => place second ≤ place first :=
    ⟨fun first second => le_total (place second) (place first)⟩
  have trans : IsTrans Row fun first second => place second ≤ place first :=
    ⟨fun _ _ _ before after => le_trans after before⟩
  exact List.pairwise_insertionSort (fun first second : Row => place second ≤ place first) rows

/-- Rows with a place each descend strictly. -/
theorem listing_strict (distinct : (rows.map place).Nodup) :
    (listing place rows).Pairwise fun first second => place second < place first := by
  have apart : (listing place rows).Pairwise fun first second => place first ≠ place second :=
    List.pairwise_map.mp ((listing_perm.map place).nodup_iff.mpr distinct)
  refine (listing_descends.and apart).imp ?_
  intro first second both
  exact lt_of_le_of_ne both.1 (Ne.symm both.2)

end Listing

section Fetch

theorem mem_rows_of_mem_found (member : row ∈ found place size cursor rows) :
    row ∈ rows ∧ Ahead place (Stand.asked cursor) row := by
  have listed := mem_listing.mp (List.mem_of_mem_take member)
  obtain ⟨present, comes⟩ := List.mem_filter.mp listed
  exact ⟨present, ahead_asked.mpr comes⟩

theorem mem_found_of_mem_page {found : List Row} (member : row ∈ page size found) :
    row ∈ found :=
  List.mem_of_mem_take member

/-- A page holds no row twice. -/
theorem page_nodup {Key : Type*} {key : Row → Key} (distinct : (rows.map key).Nodup) :
    ((page size (found place size cursor rows)).map key).Nodup := by
  have sorted : ((listing place (rows.filter (below place cursor))).map key).Nodup :=
    (listing_perm.map key).nodup_iff.mpr (distinct.sublist (List.filter_sublist.map key))
  exact sorted.sublist (((List.take_sublist _ _).trans (List.take_sublist _ _)).map key)

omit [LinearOrder Place] in
/-- The cursor is the place of a row of the page. -/
theorem exists_of_next {found : List Row} {bound : Place}
    (answered : bound ∈ next place size found) :
    ∃ last ∈ (page size found).getLast?, place last = bound := by
  rw [next, Option.mem_def, Option.ite_none_right_eq_some] at answered
  exact Option.map_eq_some_iff.mp answered.2

/-- Of a list that descends, a row is among the first or lies below the last of them. -/
theorem mem_page_or_lt {list : List Row} (positive : 0 < size)
    (strict : list.Pairwise fun first second => place second < place first) (listed : row ∈ list) :
    row ∈ page size (list.take (size + 1)) ∨
      ∃ bound ∈ next place size (list.take (size + 1)), place row < bound := by
  have first : page size (list.take (size + 1)) = list.take size := by
    rw [page, List.take_take, Nat.min_eq_left (Nat.le_succ size)]
  rw [next, first]
  rw [← List.take_append_drop size list] at listed strict
  rcases List.mem_append.mp listed with taken | later
  · exact .inl taken
  · have longer : size < list.length := by
      by_contra short
      rw [List.drop_eq_nil_of_le (Nat.le_of_not_lt short)] at later
      cases later
    have beyond : size < (list.take (size + 1)).length := by
      rw [List.length_take]
      exact lt_min (Nat.lt_succ_self size) longer
    have nonempty : list.take size ≠ [] := by
      intro empty
      rcases List.take_eq_nil_iff.mp empty with none | nothing
      · exact absurd none (Nat.ne_of_gt positive)
      · rw [nothing] at longer
        exact absurd longer (Nat.not_lt_zero _)
    refine .inr ⟨place ((list.take size).getLast nonempty), ?_, ?_⟩
    · rw [if_pos beyond, List.getLast?_eq_getLast_of_ne_nil nonempty]
      rfl
    · exact (List.pairwise_append.mp strict).2.2 _ (List.getLast_mem nonempty) _ later

/-- **Completeness of a page.** A row ahead is on the page or ahead of the next one. -/
theorem mem_page_or_ahead (positive : 0 < size) (distinct : (rows.map place).Nodup)
    (present : row ∈ rows) (ahead : Ahead place (Stand.asked cursor) row) :
    row ∈ page size (found place size cursor rows) ∨
      Ahead place (Stand.left (next place size (found place size cursor rows))) row := by
  have listed : row ∈ listing place (rows.filter (below place cursor)) :=
    mem_listing.mpr (List.mem_filter.mpr ⟨present, ahead_asked.mp ahead⟩)
  have strict := listing_strict (distinct.sublist
    ((List.filter_sublist (p := below place cursor)).map place))
  rw [ahead_left]
  exact mem_page_or_lt positive strict listed

/-- What the page holds is not ahead of the next one. -/
theorem not_ahead_of_mem_page (member : row ∈ page size (found place size cursor rows)) :
    ¬ Ahead place (Stand.left (next place size (found place size cursor rows))) row := by
  intro ahead
  obtain ⟨bound, answered, below⟩ := ahead_left.mp ahead
  obtain ⟨last, ends, rfl⟩ := exists_of_next answered
  have descends : (page size (found place size cursor rows)).Pairwise
      fun first second => place second ≤ place first :=
    listing_descends.sublist ((List.take_sublist _ _).trans (List.take_sublist _ _))
  generalize page size (found place size cursor rows) = list at member ends descends
  obtain ⟨front, rfl⟩ := List.getLast?_eq_some_iff.mp ends
  rcases List.mem_append.mp member with earlier | same
  · have above := (List.pairwise_append.mp descends).2.2 _ earlier last (List.mem_singleton_self _)
    exact absurd below (not_lt_of_ge above)
  · rw [List.mem_singleton.mp same] at below
    exact lt_irrefl _ below

/-- **Every page** ends below where it began. -/
theorem left_lt_asked :
    Stand.left (next place size (found place size cursor rows)) < Stand.asked cursor := by
  cases answered : next place size (found place size cursor rows) with
  | none =>
      cases cursor with
      | none => exact WithBot.bot_lt_coe _
      | some bound => exact WithBot.bot_lt_coe _
  | some bound =>
      obtain ⟨last, ends, rfl⟩ := exists_of_next (Option.mem_def.mpr answered)
      exact (mem_rows_of_mem_found (mem_found_of_mem_page (List.mem_of_getLast? ends))).2

end Fetch

/-- **No endless walk.** A stand that never rises is moved finitely often. -/
theorem eventually_still [WellFoundedLT Place] {stands : ℕ → Stand Place}
    (falls : ∀ time, stands (time + 1) ≤ stands time) :
    ∃ last, ∀ time, last ≤ time → stands time = stands last := by
  have antitone : Antitone stands := antitone_nat_of_succ_le falls
  obtain ⟨last, still⟩ := WellFoundedGT.monotone_chain_condition
    (α := (Stand Place)ᵒᵈ) ⟨fun time => OrderDual.toDual (stands time), antitone⟩
  exact ⟨last, fun time later => (congrArg OrderDual.ofDual (still time later)).symm⟩

end Keyset
