import FrontDashboard.Library.Box
import FrontDashboard.Library.FirstHit
import Mathlib.Algebra.Order.Ring.Int
import Mathlib.Data.Int.LeastGreatest

/-! # The first free slot of a grid

A box that fits among others and overlaps none is free. The topmost of the free
places of a size, and among these the leftmost, lies flush against an edge on either
axis. A scan of the edges in order finds it.
-/

namespace Box

variable {columns rows : Int} {boxes : List Box} {box : Box}

/-- The box fits and is clear of the others. -/
structure Free (columns rows : Int) (boxes : List Box) (box : Box) : Prop
    extends Fits columns rows box where
  clear : ∀ other ∈ boxes, ¬ box.Overlaps other

/-- The box is free, and no free place of its size comes earlier, row by row. -/
structure Topmost (columns rows : Int) (boxes : List Box) (box : Box) : Prop
    extends Free columns rows boxes box where
  first : ∀ x y, Free columns rows boxes ⟨x, y, box.w, box.h⟩ →
    box.y < y ∨ box.y = y ∧ box.x ≤ x

/-- A free place is free for every smaller size. -/
theorem Free.shrink (free : Free columns rows boxes box) {w h : Int} (wide : 1 ≤ w) (high : 1 ≤ h)
    (narrower : w ≤ box.w) (lower : h ≤ box.h) :
    Free columns rows boxes ⟨box.x, box.y, w, h⟩ := by
  have right := free.right
  have bottom := free.bottom
  refine ⟨⟨free.left, free.top, wide, high, by dsimp only; omega, by dsimp only; omega⟩,
    fun other member overlap => ?_⟩
  have apart := free.clear other member
  obtain ⟨fromLeft, fromRight, fromTop, fromBottom⟩ := overlap
  dsimp only at fromLeft fromRight fromTop fromBottom
  apply apart
  refine ⟨fromLeft, ?_, fromTop, ?_⟩ <;> omega

/-- Where there is a free place there is a first one. -/
theorem Free.exists_topmost (free : Free columns rows boxes box) :
    ∃ x y, Topmost columns rows boxes ⟨x, y, box.w, box.h⟩ := by
  obtain ⟨y, ⟨x, atRow⟩, higher⟩ := Int.exists_least_of_bdd
    (P := fun y => ∃ x, Free columns rows boxes ⟨x, y, box.w, box.h⟩)
    ⟨0, fun y offered => offered.choose_spec.top⟩ ⟨box.y, box.x, free⟩
  obtain ⟨x, first, closer⟩ := Int.exists_least_of_bdd
    (P := fun x => Free columns rows boxes ⟨x, y, box.w, box.h⟩)
    ⟨0, fun x offered => offered.left⟩ ⟨x, atRow⟩
  refine ⟨x, y, first, fun x' y' other => ?_⟩
  rcases (higher y' ⟨x', other⟩).lt_or_eq with above | same
  · exact Or.inl above
  · exact Or.inr ⟨same, closer x' (same ▸ other)⟩

namespace Topmost

/-- The first free place is the only one. -/
theorem unique {x y x' y' w h : Int} (topmost : Topmost columns rows boxes ⟨x, y, w, h⟩)
    (other : Topmost columns rows boxes ⟨x', y', w, h⟩) : x = x' ∧ y = y' := by
  have before := topmost.first x' y' other.toFree
  have after := other.first x y topmost.toFree
  dsimp only at before after
  omega

/-- The first free place hangs from the top or from a box above it: one row higher it
would overlap. -/
theorem bottom_edge (topmost : Topmost columns rows boxes box) :
    box.y = 0 ∨ ∃ other ∈ boxes, box.y = other.y + other.h := by
  by_contra! floating
  obtain ⟨below, noEdge⟩ := floating
  have nonneg := topmost.top
  have lower := topmost.bottom
  have higher : Free columns rows boxes ⟨box.x, box.y - 1, box.w, box.h⟩ := by
    refine ⟨⟨topmost.left, by dsimp only; omega, topmost.wide, topmost.high, topmost.right,
      by dsimp only; omega⟩, fun other member overlap => ?_⟩
    have apart := topmost.clear other member
    have edge := noEdge other member
    obtain ⟨left, right, top, bottom⟩ := overlap
    dsimp only at left right top bottom
    apply apart
    refine ⟨left, right, ?_, ?_⟩ <;> omega
  have first := topmost.first _ _ higher
  omega

/-- The first free place stands against the left side or against a box on its left. -/
theorem right_edge (topmost : Topmost columns rows boxes box) :
    box.x = 0 ∨ ∃ other ∈ boxes, box.x = other.x + other.w := by
  by_contra! floating
  obtain ⟨right, noEdge⟩ := floating
  have nonneg := topmost.left
  have inside := topmost.right
  have closer : Free columns rows boxes ⟨box.x - 1, box.y, box.w, box.h⟩ := by
    refine ⟨⟨by dsimp only; omega, topmost.top, topmost.wide, topmost.high,
      by dsimp only; omega, topmost.bottom⟩, fun other member overlap => ?_⟩
    have apart := topmost.clear other member
    have edge := noEdge other member
    obtain ⟨left, right, top, bottom⟩ := overlap
    dsimp only at left right top bottom
    apply apart
    refine ⟨?_, ?_, top, bottom⟩ <;> omega
  have first := topmost.first _ _ closer
  omega

end Topmost

/-! ## The scan -/

/-- The first row, and in it the first column, that passes. -/
def scan (columnEdges rowEdges : List Int) (passes : Int → Int → Bool) : Option (Int × Int) :=
  rowEdges.findSome? fun y => (columnEdges.find? fun x => passes x y).map fun x => (x, y)

variable {w h x y : Int} {columnEdges rowEdges : List Int} {passes : Int → Int → Bool}

/-- What a scan finds passes, in the first row where any column does. -/
theorem scan_first (columnsSorted : columnEdges.Pairwise (· ≤ ·))
    (rowsSorted : rowEdges.Pairwise (· ≤ ·))
    (found : scan columnEdges rowEdges passes = some (x, y)) :
    (x ∈ columnEdges ∧ y ∈ rowEdges ∧ passes x y = true) ∧
      ∀ x' ∈ columnEdges, ∀ y' ∈ rowEdges, passes x' y' = true → y < y' ∨ y = y' ∧ x ≤ x' := by
  obtain ⟨row, inRows, sought, higher⟩ := List.findSome?_first le_refl rowsSorted found
  obtain ⟨column, hit, same⟩ := Option.map_eq_some_iff.mp sought
  cases same
  rw [List.find?_eq_findSome?_guard] at hit
  obtain ⟨column, inColumns, guarded, closer⟩ := List.findSome?_first le_refl columnsSorted hit
  obtain ⟨rfl, passed⟩ := Option.guard_eq_some_iff.mp guarded
  refine ⟨⟨inColumns, inRows, passed⟩, fun x' among y' listed other => ?_⟩
  have above : y ≤ y' := by
    apply higher y' listed
    rw [Ne, Option.map_eq_none_iff, List.find?_eq_none]
    exact fun misses => misses x' among other
  rcases above.lt_or_eq with lower | rfl
  · exact Or.inl lower
  · refine Or.inr ⟨rfl, closer x' among ?_⟩
    rw [Ne, Option.guard_eq_none_iff]
    simp [other]

theorem scan_eq_none_iff :
    scan columnEdges rowEdges passes = none ↔
      ∀ x ∈ columnEdges, ∀ y ∈ rowEdges, passes x y = false := by
  simp only [scan, List.findSome?_eq_none_iff, Option.map_eq_none_iff, List.find?_eq_none,
    Bool.not_eq_true]
  exact ⟨fun none x among y listed => none y listed x among,
    fun none y listed x among => none x among y listed⟩

/-- **Edges that repeat** change nothing for a scan in order. -/
theorem scan_eq_of_mem_iff {columnEdges' rowEdges' : List Int}
    (columnsSorted : columnEdges.Pairwise (· ≤ ·)) (columnsSorted' : columnEdges'.Pairwise (· ≤ ·))
    (rowsSorted : rowEdges.Pairwise (· ≤ ·)) (rowsSorted' : rowEdges'.Pairwise (· ≤ ·))
    (sameColumns : ∀ x, x ∈ columnEdges ↔ x ∈ columnEdges')
    (sameRows : ∀ y, y ∈ rowEdges ↔ y ∈ rowEdges') :
    scan columnEdges rowEdges passes = scan columnEdges' rowEdges' passes := by
  have columns (y : Int) :
      columnEdges.find? (fun x => passes x y) = columnEdges'.find? fun x => passes x y := by
    rw [List.find?_eq_findSome?_guard, List.find?_eq_findSome?_guard]
    exact List.findSome?_eq_of_mem_iff columnsSorted columnsSorted' sameColumns
  simp only [scan, columns]
  exact List.findSome?_eq_of_mem_iff rowsSorted rowsSorted' sameRows

/-- The candidates of a scan for a free place: the edges in order, each tested for a box
of the size. -/
structure EdgeScan (columns rows : Int) (boxes : List Box) (w h : Int)
    (columnEdges rowEdges : List Int) (passes : Int → Int → Bool) : Prop where
  columnsSorted : columnEdges.Pairwise (· ≤ ·)
  rowsSorted : rowEdges.Pairwise (· ≤ ·)
  mem_columns : ∀ x, x ∈ columnEdges ↔ x = 0 ∨ ∃ other ∈ boxes, x = other.x + other.w
  mem_rows : ∀ y, y ∈ rowEdges ↔ y = 0 ∨ ∃ other ∈ boxes, y = other.y + other.h
  passes_iff : ∀ x ∈ columnEdges, ∀ y ∈ rowEdges,
    (passes x y = true ↔ Free columns rows boxes ⟨x, y, w, h⟩)

namespace EdgeScan

/-- A first free place is among the candidates, and passes. -/
theorem passes_topmost (edges : EdgeScan columns rows boxes w h columnEdges rowEdges passes)
    (topmost : Topmost columns rows boxes ⟨x, y, w, h⟩) :
    x ∈ columnEdges ∧ y ∈ rowEdges ∧ passes x y = true := by
  have inColumns := (edges.mem_columns x).mpr topmost.right_edge
  have inRows := (edges.mem_rows y).mpr topmost.bottom_edge
  exact ⟨inColumns, inRows, (edges.passes_iff x inColumns y inRows).mpr topmost.toFree⟩

/-- **The scan is exact**: it finds the first free place of the size. -/
theorem eq_some_iff (edges : EdgeScan columns rows boxes w h columnEdges rowEdges passes) :
    scan columnEdges rowEdges passes = some (x, y) ↔
      Topmost columns rows boxes ⟨x, y, w, h⟩ := by
  have finds (x y : Int) (found : scan columnEdges rowEdges passes = some (x, y)) :
      Topmost columns rows boxes ⟨x, y, w, h⟩ := by
    obtain ⟨⟨inColumns, inRows, passed⟩, earliest⟩ :=
      scan_first edges.columnsSorted edges.rowsSorted found
    have free := (edges.passes_iff x inColumns y inRows).mp passed
    obtain ⟨x', y', topmost⟩ := free.exists_topmost
    obtain ⟨among, listed, passed'⟩ := edges.passes_topmost topmost
    have notLater := earliest x' among y' listed passed'
    have notEarlier := topmost.first x y free
    dsimp only at notEarlier
    have sameColumn : x = x' := by omega
    have sameRow : y = y' := by omega
    rw [sameColumn, sameRow]
    exact topmost
  constructor
  · exact finds x y
  · intro topmost
    obtain ⟨inColumns, inRows, passed⟩ := edges.passes_topmost topmost
    cases found : scan columnEdges rowEdges passes with
    | none =>
        rw [scan_eq_none_iff.mp found x inColumns y inRows] at passed
        cases passed
    | some place =>
        obtain ⟨sameColumn, sameRow⟩ := (finds place.1 place.2 found).unique topmost
        rw [← sameColumn, ← sameRow]

/-- **The scan fails** exactly when no place is free. -/
theorem eq_none_iff (edges : EdgeScan columns rows boxes w h columnEdges rowEdges passes) :
    scan columnEdges rowEdges passes = none ↔ ∀ x y, ¬ Free columns rows boxes ⟨x, y, w, h⟩ := by
  constructor
  · intro nothing x y free
    obtain ⟨x', y', topmost⟩ := free.exists_topmost
    rw [edges.eq_some_iff.mpr topmost] at nothing
    cases nothing
  · intro taken
    rw [scan_eq_none_iff]
    intro x inColumns y inRows
    by_contra passed
    rw [Bool.not_eq_false] at passed
    exact taken x y ((edges.passes_iff x inColumns y inRows).mp passed)

end EdgeScan

end Box
