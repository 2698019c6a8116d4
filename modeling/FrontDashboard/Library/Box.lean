import Mathlib.Algebra.BigOperators.Group.List.Basic
import Mathlib.Algebra.Order.Ring.Int
import Mathlib.Data.Finset.Card
import Mathlib.Data.Finset.Prod
import Mathlib.Data.List.Pairwise
import Mathlib.Data.Set.BooleanAlgebra
import Mathlib.Order.CompletePartialOrder

/-! # Boxes on a grid

A box covers the cells of its columns and rows. Boxes that pass the overlap test
share no cell, and a list of boxes is packed when each fits the grid and no two
share one. Packed boxes have as many cells as their areas add up to.
-/

structure Box where
  x : Int
  y : Int
  w : Int
  h : Int
  deriving DecidableEq

namespace Box

/-- The cells of a box. -/
def cells (box : Box) : Set (Int × Int) :=
  {cell | (box.x ≤ cell.1 ∧ cell.1 < box.x + box.w) ∧ box.y ≤ cell.2 ∧ cell.2 < box.y + box.h}

/-- The overlap test, by the edges. -/
def Overlaps (box other : Box) : Prop :=
  box.x < other.x + other.w ∧ other.x < box.x + box.w ∧
    box.y < other.y + other.h ∧ other.y < box.y + box.h

instance : DecidableRel Overlaps := fun box other =>
  inferInstanceAs (Decidable (box.x < other.x + other.w ∧ other.x < box.x + box.w ∧
    box.y < other.y + other.h ∧ other.y < box.y + box.h))

/-- The box has cells, all of them on the grid. -/
structure Fits (columns rows : Int) (box : Box) : Prop where
  left : 0 ≤ box.x
  top : 0 ≤ box.y
  wide : 1 ≤ box.w
  high : 1 ≤ box.h
  right : box.x + box.w ≤ columns
  bottom : box.y + box.h ≤ rows

theorem Overlaps.symm {box other : Box} (overlap : box.Overlaps other) : other.Overlaps box :=
  ⟨overlap.2.1, overlap.1, overlap.2.2.2, overlap.2.2.1⟩

/-- Boxes that do not overlap share no cell. -/
theorem disjoint_cells {box other : Box} (apart : ¬ box.Overlaps other) :
    Disjoint box.cells other.cells := by
  rw [Set.disjoint_left]
  intro cell ⟨⟨left, right⟩, top, bottom⟩ ⟨⟨left', right'⟩, top', bottom'⟩
  apply apart
  unfold Overlaps
  omega

/-- Each box fits and no two share a cell. -/
structure Packed (columns rows : Int) (boxes : List Box) : Prop where
  fits : ∀ box ∈ boxes, box.Fits columns rows
  apart : boxes.Pairwise fun box other => ¬ box.Overlaps other

namespace Packed

variable {columns rows : Int} {boxes : List Box}

theorem nil : Packed columns rows [] := ⟨by simp, .nil⟩

/-- Boxes that go leave the others packed. -/
theorem sublist {fewer : List Box} (packed : Packed columns rows boxes)
    (within : List.Sublist fewer boxes) : Packed columns rows fewer :=
  ⟨fun box member => packed.fits box (within.mem member), packed.apart.sublist within⟩

/-- The order of the boxes does not matter. -/
theorem perm {others : List Box} (packed : Packed columns rows boxes) (same : boxes.Perm others) :
    Packed columns rows others :=
  ⟨fun box member => packed.fits box (same.mem_iff.mpr member),
    packed.apart.perm same fun apart overlap => apart overlap.symm⟩

/-- A box that fits and overlaps none is added. -/
theorem concat {box : Box} (packed : Packed columns rows boxes) (fits : box.Fits columns rows)
    (free : ∀ other ∈ boxes, ¬ other.Overlaps box) : Packed columns rows (boxes ++ [box]) := by
  constructor
  · intro other member
    rcases List.mem_append.mp member with old | new
    · exact packed.fits other old
    · rw [List.mem_singleton.mp new]
      exact fits
  · rw [List.pairwise_append]
    exact ⟨packed.apart, List.pairwise_singleton _ _, by simpa using free⟩

end Packed

/-! ## Areas -/

/-- How many cells a box has. -/
def area (box : Box) : Int := box.w * box.h

/-- The cells of a box, to be counted. -/
def tiles (box : Box) : Finset (Int × Int) :=
  (Finset.range box.w.toNat ×ˢ Finset.range box.h.toNat).image fun cell =>
    (box.x + cell.1, box.y + cell.2)

/-- The cells that some box covers. -/
def covered : List Box → Finset (Int × Int)
  | [] => ∅
  | box :: rest => box.tiles ∪ covered rest

end Box
