import FrontDashboard.Boards.Grid
import FrontDashboard.Library.FreeSlot

/-! # The free slot of the server and of the client

Both scan the edges of what is placed, the server without repetitions. Each finds the
first free place of the grid in reading order, so they find the same one.
-/

namespace FrontDashboard.Boards

open Box

namespace DashboardGrid

/-- `firstFreeSlot`, on the client. -/
def firstFreeSlot (placed : Layout) (w h cols rows : Int) : Option (Int × Int) :=
  let candidateRows := (0 :: placed.map fun other => other.y + other.h).insertionSort (· ≤ ·)
  let candidateCols := (0 :: placed.map fun other => other.x + other.w).insertionSort (· ≤ ·)
  candidateRows.findSome? fun y =>
    if y + h > rows then none
    else candidateCols.findSome? fun x =>
      if x + w > cols then none
      else
        let clear := placed.all fun other =>
          decide (x ≥ other.x + other.w) || decide (other.x ≥ x + w) ||
            decide (y ≥ other.y + other.h) || decide (other.y ≥ y + h)
        if clear then some (x, y) else none

end DashboardGrid

/-- The test of a candidate: it fits and is clear of what is placed. -/
def seats (layout : Layout) (w h cols rows x y : Int) : Bool :=
  decide (y + h ≤ rows) &&
    decide (x + w ≤ cols ∧ ∀ item ∈ layout, ¬ (Box.mk x y w h).Overlaps item.toBox)

variable {layout : Layout} {w h cols rows : Int}

theorem firstFreeSlot_eq_scan (layout : Layout) (w h : Int) :
    firstFreeSlot layout w h =
      scan (sortedSet (0 :: layout.map fun item => item.x + item.w))
        (sortedSet (0 :: layout.map fun item => item.y + item.h))
        (seats layout w h gridColumns gridRows) := by
  unfold firstFreeSlot scan
  dsimp only
  congr 1
  funext y
  by_cases tooLow : y + h > gridRows
  · have misses (x : Int) : seats layout w h gridColumns gridRows x y = false := by
      simp [seats, not_le.mpr tooLow]
    simp [tooLow, misses]
  · simp [tooLow, seats, not_lt.mp tooLow]

namespace DashboardGrid

theorem clear_eq (placed : Layout) (x y w h : Int) :
    (placed.all fun other =>
      decide (x ≥ other.x + other.w) || decide (other.x ≥ x + w) ||
        decide (y ≥ other.y + other.h) || decide (other.y ≥ y + h)) =
      decide (∀ item ∈ placed, ¬ (Box.mk x y w h).Overlaps item.toBox) := by
  rw [Bool.eq_iff_iff, List.all_eq_true, decide_eq_true_eq]
  refine forall₂_congr fun other _ => ?_
  simp only [Bool.or_eq_true, decide_eq_true_eq, Overlaps]
  omega

theorem firstFreeSlot_eq_scan (placed : Layout) (w h cols rows : Int) :
    firstFreeSlot placed w h cols rows =
      scan ((0 :: placed.map fun other => other.x + other.w).insertionSort (· ≤ ·))
        ((0 :: placed.map fun other => other.y + other.h).insertionSort (· ≤ ·))
        (seats placed w h cols rows) := by
  unfold firstFreeSlot scan
  simp only [clear_eq]
  congr 1
  funext y
  rw [List.find?_eq_findSome?_guard, List.map_findSome?]
  by_cases tooLow : y + h > rows
  · have misses (x : Int) : seats placed w h cols rows x y = false := by
      simp [seats, not_le.mpr tooLow]
    rw [if_pos tooLow, eq_comm, List.findSome?_eq_none_iff]
    simp [misses]
  · rw [if_neg tooLow]
    congr 1
    funext x
    by_cases tooWide : x + w > cols
    · simp [tooWide, seats, not_le.mpr tooWide]
    · simp [tooWide, seats, not_lt.mp tooWide, not_lt.mp tooLow, Option.guard]

end DashboardGrid

theorem pairwise_sortedSet (values : List Int) : (sortedSet values).Pairwise (· ≤ ·) :=
  List.pairwise_insertionSort (· ≤ ·) values.dedup

/-- **The client and the server agree** on every layout and size. -/
theorem firstFreeSlot_agree (layout : Layout) (w h : Int) :
    DashboardGrid.firstFreeSlot layout w h gridColumns gridRows = firstFreeSlot layout w h := by
  rw [firstFreeSlot_eq_scan, DashboardGrid.firstFreeSlot_eq_scan]
  apply scan_eq_of_mem_iff (List.pairwise_insertionSort _ _) (pairwise_sortedSet _)
    (List.pairwise_insertionSort _ _) (pairwise_sortedSet _)
  · intro x
    rw [mem_sortedSet, List.mem_insertionSort]
  · intro y
    rw [mem_sortedSet, List.mem_insertionSort]

/-- The scan of the client tests the edges of what is placed, where none lies outside. -/
theorem DashboardGrid.edgeScan
    (inside : ∀ item ∈ layout, 0 ≤ item.x + item.w ∧ 0 ≤ item.y + item.h)
    (wide : 0 < w) (high : 0 < h) :
    EdgeScan cols rows (layout.map LayoutItem.toBox) w h
      ((0 :: layout.map fun other => other.x + other.w).insertionSort (· ≤ ·))
      ((0 :: layout.map fun other => other.y + other.h).insertionSort (· ≤ ·))
      (seats layout w h cols rows) := by
  have columns (x : Int) :
      x ∈ (0 :: layout.map fun other => other.x + other.w).insertionSort (· ≤ ·) ↔
        x = 0 ∨ ∃ other ∈ layout.map LayoutItem.toBox, x = other.x + other.w := by
    simp [List.mem_insertionSort, eq_comm]
  have rowEdges (y : Int) :
      y ∈ (0 :: layout.map fun other => other.y + other.h).insertionSort (· ≤ ·) ↔
        y = 0 ∨ ∃ other ∈ layout.map LayoutItem.toBox, y = other.y + other.h := by
    simp [List.mem_insertionSort, eq_comm]
  refine ⟨List.pairwise_insertionSort _ _, List.pairwise_insertionSort _ _, columns, rowEdges,
    fun x inColumns y inRows => ?_⟩
  have left : 0 ≤ x := by
    rcases (columns x).mp inColumns with rfl | ⟨box, member, rfl⟩
    · exact le_refl 0
    · obtain ⟨item, among, rfl⟩ := List.mem_map.mp member
      exact (inside item among).1
  have top : 0 ≤ y := by
    rcases (rowEdges y).mp inRows with rfl | ⟨box, member, rfl⟩
    · exact le_refl 0
    · obtain ⟨item, among, rfl⟩ := List.mem_map.mp member
      exact (inside item among).2
  simp only [seats, Bool.and_eq_true, decide_eq_true_eq]
  constructor
  · rintro ⟨bottom, right, clear⟩
    exact ⟨⟨left, top, wide, high, right, bottom⟩, List.forall_mem_map.mpr clear⟩
  · intro free
    exact ⟨free.bottom, free.right,
      fun item member => free.clear item.toBox (List.mem_map_of_mem member)⟩

/-- Boxes on the grid have no edge outside of it. -/
theorem edges_nonneg (fits : ∀ item ∈ layout, item.toBox.Fits cols rows) :
    ∀ item ∈ layout, 0 ≤ item.x + item.w ∧ 0 ≤ item.y + item.h := by
  intro item member
  obtain ⟨left, top, wide, high, -, -⟩ := fits item member
  omega

/-- **The first free slot** is the first free place of the grid in reading order. -/
theorem firstFreeSlot_eq_some_iff (fits : ∀ item ∈ layout, item.toBox.Fits gridColumns gridRows)
    (wide : 0 < w) (high : 0 < h) {x y : Int} :
    firstFreeSlot layout w h = some (x, y) ↔
      Topmost gridColumns gridRows (layout.map LayoutItem.toBox) ⟨x, y, w, h⟩ := by
  rw [← firstFreeSlot_agree, DashboardGrid.firstFreeSlot_eq_scan]
  exact (DashboardGrid.edgeScan (edges_nonneg fits) wide high).eq_some_iff

/-- **There is none** exactly when no place of the grid is free. -/
theorem firstFreeSlot_eq_none_iff (fits : ∀ item ∈ layout, item.toBox.Fits gridColumns gridRows)
    (wide : 0 < w) (high : 0 < h) :
    firstFreeSlot layout w h = none ↔
      ∀ x y, ¬ Free gridColumns gridRows (layout.map LayoutItem.toBox) ⟨x, y, w, h⟩ := by
  rw [← firstFreeSlot_agree, DashboardGrid.firstFreeSlot_eq_scan]
  exact (DashboardGrid.edgeScan (edges_nonneg fits) wide high).eq_none_iff

/-- **The free-slot search is exact**, and the client chooses as the server does. -/
theorem firstFreeSlot_exact (layout : Layout)
    (fits : ∀ item ∈ layout, item.toBox.Fits gridColumns gridRows) (w h : Int)
    (wide : 0 < w) (high : 0 < h) :
    (∀ x y, firstFreeSlot layout w h = some (x, y) ↔
      Topmost gridColumns gridRows (layout.map LayoutItem.toBox) ⟨x, y, w, h⟩) ∧
    (firstFreeSlot layout w h = none ↔
      ∀ x y, ¬ Free gridColumns gridRows (layout.map LayoutItem.toBox) ⟨x, y, w, h⟩) ∧
    DashboardGrid.firstFreeSlot layout w h gridColumns gridRows = firstFreeSlot layout w h :=
  ⟨fun _ _ => firstFreeSlot_eq_some_iff fits wide high,
    firstFreeSlot_eq_none_iff fits wide high, firstFreeSlot_agree layout w h⟩

/-- Beside a widget of the left half there is room from its right edge on. -/
theorem firstFreeSlot_exact_beside :
    firstFreeSlot [⟨⟨0, 0, 12, 24⟩, "a"⟩] 12 8 = some (12, 0) ∧
      Topmost gridColumns gridRows [⟨0, 0, 12, 24⟩] ⟨12, 0, 12, 8⟩ := by
  have search := firstFreeSlot_exact [⟨⟨0, 0, 12, 24⟩, "a"⟩]
    (by intro item member; rw [List.mem_singleton.mp member]; constructor <;> decide) 12 8
    (by decide) (by decide)
  have found : firstFreeSlot [⟨⟨0, 0, 12, 24⟩, "a"⟩] 12 8 = some (12, 0) := by decide +kernel
  exact ⟨found, (search.1 12 0).mp found⟩

end FrontDashboard.Boards
