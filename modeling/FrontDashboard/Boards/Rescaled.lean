import FrontDashboard.Boards.Rescale
import Mathlib.Data.List.Perm.Basic

/-! # What the rescale makes of a layout

While a cell of the grid is free the entry in turn finds a place, smaller if need be. When
earlier entries have filled the grid it is put in the corner all the same, on an entry
that is there. So the write path takes the result exactly when no entry finds the grid
full.
-/

namespace FrontDashboard.Boards.Rescale

open Box

variable {columns rows w h x y : Int} {placed : List Box}

/-! ## The scan -/

section Fits

variable (fits : ∀ box ∈ placed, box.Fits columns rows) (wide : 0 < w) (high : 0 < h)

include fits wide high

end Fits

/-! ## An entry in its turn -/

/-- Some cell of the grid is free. -/
def HasRoom (columns rows : Int) (placed : List Box) : Prop :=
  ∃ x y, Free columns rows placed ⟨x, y, 1, 1⟩

section Turn

variable (fits : ∀ box ∈ placed, box.Fits columns rows)

include fits

end Turn

/-- A size that the grid holds. -/
structure Holds (columns rows : Int) (box : Box) : Prop where
  wide : 1 ≤ box.w
  high : 1 ≤ box.h
  narrow : box.w ≤ columns
  low : box.h ≤ rows

section Place

variable {box : Box} (fits : ∀ box ∈ placed, box.Fits columns rows)
  (holds : Holds columns rows box)

include fits holds

end Place

/-! ## All entries in turn -/

/-- No entry finds the grid full. -/
def Roomy (columns rows : Int) : List Box → List (LayoutItem × Nat) → Prop
  | _, [] => True
  | placed, (item, _) :: rest =>
      HasRoom columns rows placed ∧
        Roomy columns rows (placed ++ [place placed columns rows item.toBox]) rest

variable {entries : List (LayoutItem × Nat)}

/-- Far from the largest float. -/
def Moderate (value : Int) : Prop := |(value : ℚ)| ≤ 2 ^ 1000

/-- Values of moderate size are scaled without overflow. -/
theorem scale_float_isSome {value : Int} {factor : ℚ} (moderate : Moderate value)
    (small : |factor| ≤ 36) : ((Factor.float factor).scale value).isSome = true := by
  unfold Moderate at moderate
  have large : (2 : ℚ) ^ 1023 = 2 ^ 1000 * 8388608 := by
    rw [show (1023 : Nat) = 1000 + 23 from rfl, pow_add]
    norm_num only
  have one : (1 : ℚ) ≤ 2 ^ 1000 := one_le_pow₀ (by norm_num)
  generalize (2 : ℚ) ^ 1000 = limit at moderate large one
  have converts : |(value : ℚ)| < 2 ^ 1023 := by
    rw [large]
    linarith only [moderate, one]
  obtain ⟨converted, isConverted, size⟩ := Binary64.round_of_abs_lt converts
  have bound : |converted| ≤ 2 * limit := by
    have larger : max |(value : ℚ)| 1 ≤ limit := max_le moderate one
    linarith only [size, larger, moderate, one]
  have multiplies : |converted * factor| < 2 ^ 1023 := by
    rw [large, abs_mul]
    have product := mul_le_mul bound small (abs_nonneg factor) (by linarith only [one])
    linarith only [product, one]
  obtain ⟨product, isProduct, -⟩ := Binary64.round_of_abs_lt multiplies
  rw [Factor.scale, isConverted, Option.bind_some, isProduct]
  rfl

/-- The factor for rows is the one asked for, or a small float. -/
theorem vertical_small (layout : Layout) :
    ∃ factor, vertical 2 gridRows layout = some factor ∧
      (factor = .int 2 ∨ ∃ quotient, factor = .float quotient ∧ |quotient| ≤ 36) := by
  unfold vertical
  split
  next => exact ⟨.int 2, rfl, Or.inl rfl⟩
  next nonzero =>
    have atLeast : (1 : ℚ) ≤ |(extent layout : ℚ)| := by
      exact_mod_cast Int.one_le_abs nonzero
    have size : |((gridRows : ℚ) / extent layout)| ≤ 24 := by
      rw [abs_div, div_le_iff₀ (by linarith),
        show |(gridRows : ℚ)| = 24 from by norm_num [gridRows]]
      linarith
    have limit : (24 : ℚ) < 2 ^ 1023 :=
      calc (24 : ℚ) < 2 ^ 5 := by norm_num
        _ ≤ 2 ^ 1023 := pow_le_pow_right₀ (by norm_num) (by norm_num)
    have moderate := size.trans_lt limit
    obtain ⟨quotient, isQuotient, bound⟩ := Binary64.round_of_abs_lt moderate
    have small : |quotient| ≤ 36 := by
      have larger : max |((gridRows : ℚ) / extent layout)| 1 ≤ 24 := max_le size (by norm_num)
      linarith
    rw [isQuotient, Option.map_some]
    refine ⟨_, rfl, ?_⟩
    split
    · exact Or.inr ⟨quotient, rfl, small⟩
    · exact Or.inl rfl

/-- **A layout whose rows and heights are moderate** is scaled. -/
theorem exists_scale_of_moderate {layout : Layout}
    (moderate : ∀ item ∈ layout, Moderate item.y ∧ Moderate item.h) :
    ∃ scaled, scale layout 2 gridColumns gridRows = some scaled := by
  obtain ⟨factor, isFactor, kind⟩ := vertical_small layout
  have scales {value : Int} (small : Moderate value) : ∃ result,
    factor.scale value = some result := by
    rcases kind with rfl | ⟨quotient, rfl, bound⟩
    · exact ⟨_, rfl⟩
    · exact Option.isSome_iff_exists.mp (scale_float_isSome small bound)
  rw [scale, isFactor, Option.bind_some]
  clear isFactor kind
  induction layout with
  | nil => exact ⟨[], List.mapM_nil⟩
  | cons item rest ih =>
      obtain ⟨others, othersRan⟩ :=
        ih fun other later => moderate other (List.mem_cons_of_mem item later)
      obtain ⟨y, isY⟩ := scales (moderate item List.mem_cons_self).1
      obtain ⟨h, isH⟩ := scales (moderate item List.mem_cons_self).2
      rw [List.mapM_cons, othersRan, scaleItem, isY, Option.bind_some, isH]
      exact ⟨_, rfl⟩

end FrontDashboard.Boards.Rescale
