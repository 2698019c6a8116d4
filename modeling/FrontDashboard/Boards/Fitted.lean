import FrontDashboard.Boards.FreeSlot

/-! # Shrinking a widget to fit

The sizes from the minimum up to the default are tried in order of their areas, so the
first that fits is the largest that does. The minimum fits wherever a larger size does.
-/

namespace FrontDashboard.Boards

open Box

variable {layout : Layout} {w h : Int} {minimum : Int × Int}

/-- How far a size is from the shape that was asked for. -/
def distortion (shape : ℚ) (size : Int × Int) : ℚ := |(size.1 : ℚ) / size.2 - shape|

theorem triedFirst_iff {shape : ℚ} {size other : Int × Int} :
    triedFirst shape size other = true ↔
      other.1 * other.2 < size.1 * size.2 ∨
        size.1 * size.2 = other.1 * other.2 ∧ distortion shape size ≤ distortion shape other := by
  simp only [triedFirst, distortion, Bool.or_eq_true, Bool.and_eq_true, decide_eq_true_eq]

theorem triedFirst_refl (shape : ℚ) (size : Int × Int) : triedFirst shape size size = true :=
  triedFirst_iff.mpr (Or.inr ⟨rfl, le_rfl⟩)

theorem triedFirst_total (shape : ℚ) (size other : Int × Int) :
    triedFirst shape size other = true ∨ triedFirst shape other size = true := by
  rw [triedFirst_iff, triedFirst_iff]
  rcases lt_trichotomy (size.1 * size.2) (other.1 * other.2) with smaller | same | larger
  · exact Or.inr (Or.inl smaller)
  · rcases le_total (distortion shape size) (distortion shape other) with closer | farther
    · exact Or.inl (Or.inr ⟨same, closer⟩)
    · exact Or.inr (Or.inr ⟨same.symm, farther⟩)
  · exact Or.inl (Or.inl larger)

theorem triedFirst_trans {shape : ℚ} {size other third : Int × Int}
    (before : triedFirst shape size other = true) (after : triedFirst shape other third = true) :
    triedFirst shape size third = true := by
  rw [triedFirst_iff] at before after ⊢
  rcases before with larger | ⟨same, closer⟩
  · rcases after with larger' | ⟨same', -⟩
    · exact Or.inl (larger'.trans larger)
    · exact Or.inl (same' ▸ larger)
  · rcases after with larger' | ⟨same', closer'⟩
    · exact Or.inl (same ▸ larger')
    · exact Or.inr ⟨same.trans same', closer.trans closer'⟩

theorem mem_span {low high value : Int} : value ∈ span low high ↔ low ≤ value ∧ value ≤ high := by
  simp only [span, List.mem_map, List.mem_range]
  constructor
  · rintro ⟨step, below, rfl⟩
    omega
  · intro ⟨above, below⟩
    exact ⟨(value - low).toNat, by omega, by omega⟩

/-- A size from the minimum up to the default. -/
def Between (minimum : Int × Int) (w h : Int) (size : Int × Int) : Prop :=
  (minimum.1 ≤ size.1 ∧ size.1 ≤ w) ∧ minimum.2 ≤ size.2 ∧ size.2 ≤ h

/-- The sizes that `_fit_widget` tries, in order. -/
def candidates (minimum : Int × Int) (w h : Int) : List (Int × Int) :=
  ((span minimum.1 w).flatMap fun width =>
    (span minimum.2 h).map fun height => (width, height)).insertionSort
      fun size other => triedFirst ((w : ℚ) / h) size other = true

theorem mem_candidates {size : Int × Int} :
    size ∈ candidates minimum w h ↔ Between minimum w h size := by
  obtain ⟨width, height⟩ := size
  simp [candidates, List.mem_insertionSort, mem_span, Between]

theorem pairwise_candidates (minimum : Int × Int) (w h : Int) :
    (candidates minimum w h).Pairwise fun size other =>
      triedFirst ((w : ℚ) / h) size other = true := by
  have : Std.Total fun size other : Int × Int => triedFirst ((w : ℚ) / h) size other = true :=
    ⟨triedFirst_total _⟩
  have : IsTrans (Int × Int) fun size other => triedFirst ((w : ℚ) / h) size other = true :=
    ⟨fun _ _ _ => triedFirst_trans⟩
  exact List.pairwise_insertionSort _ _

/-- What is fitted is the free slot of a candidate, and no candidate before it has one. -/
theorem fitWidget_eq_some {box : Box} (fitted : fitWidget layout w h minimum = some box) :
    Between minimum w h (box.w, box.h) ∧ firstFreeSlot layout box.w box.h = some (box.x, box.y) ∧
      ∀ size, Between minimum w h size → firstFreeSlot layout size.1 size.2 ≠ none →
        triedFirst ((w : ℚ) / h) (box.w, box.h) size = true := by
  obtain ⟨size, listed, seated, first⟩ :=
    List.findSome?_first (triedFirst_refl _) (pairwise_candidates minimum w h) fitted
  obtain ⟨slot, found, rfl⟩ := Option.map_eq_some_iff.mp seated
  refine ⟨mem_candidates.mp listed, found, fun other between seats => ?_⟩
  apply first other (mem_candidates.mpr between)
  rw [Ne, Option.map_eq_none_iff]
  exact seats

theorem fitWidget_eq_none_iff :
    fitWidget layout w h minimum = none ↔
      ∀ size, Between minimum w h size → firstFreeSlot layout size.1 size.2 = none := by
  change (candidates minimum w h).findSome? _ = none ↔ _
  simp only [List.findSome?_eq_none_iff, Option.map_eq_none_iff, mem_candidates]

/-- No other size up to the default has the area of the default. -/
theorem eq_default {width height : Int} (wide : 0 < width) (high : 0 < height)
    (narrower : width ≤ w) (lower : height ≤ h) (large : w * h ≤ width * height) :
    width = w ∧ height = h := by
  have sameWidth : width = w := by
    by_contra different
    have fewer := Int.mul_lt_mul_of_pos_right (narrower.lt_of_ne different) high
    have atMost := Int.mul_le_mul_of_nonneg_left lower (wide.le.trans narrower)
    omega
  subst sameWidth
  refine ⟨rfl, ?_⟩
  by_contra different
  have fewer := Int.mul_lt_mul_of_pos_left (lower.lt_of_ne different) wide
  omega

section Seated

variable (fits : ∀ item ∈ layout, item.toBox.Fits gridColumns gridRows)

include fits

/-- The search misses no free box. -/
theorem firstFreeSlot_ne_none {box : Box}
    (free : Free gridColumns gridRows (layout.map LayoutItem.toBox) box) :
    firstFreeSlot layout box.w box.h ≠ none := by
  intro nothing
  exact (firstFreeSlot_eq_none_iff fits free.wide free.high).mp nothing box.x box.y free

/-- **No free box between the sizes** is larger than the one that is fitted. -/
theorem area_le_of_fitWidget {box other : Box}
    (fitted : fitWidget layout w h minimum = some box)
    (free : Free gridColumns gridRows (layout.map LayoutItem.toBox) other)
    (between : Between minimum w h (other.w, other.h)) :
    other.w * other.h ≤ box.w * box.h := by
  obtain ⟨-, -, first⟩ := fitWidget_eq_some fitted
  have before := first (other.w, other.h) between (firstFreeSlot_ne_none fits free)
  rcases triedFirst_iff.mp before with larger | ⟨same, -⟩
  · exact larger.le
  · exact same.ge

/-- **Nothing is fitted** exactly when the minimum fits nowhere. -/
theorem fitWidget_eq_none_iff_minimum (wide : 0 < minimum.1) (high : 0 < minimum.2)
    (notWider : minimum.1 ≤ w) (notHigher : minimum.2 ≤ h) :
    fitWidget layout w h minimum = none ↔
      ∀ x y, ¬ Free gridColumns gridRows (layout.map LayoutItem.toBox)
        ⟨x, y, minimum.1, minimum.2⟩ := by
  rw [fitWidget_eq_none_iff]
  constructor
  · intro nowhere
    have between : Between minimum w h minimum := ⟨⟨le_refl _, notWider⟩, le_refl _, notHigher⟩
    exact (firstFreeSlot_eq_none_iff fits wide high).mp (nowhere minimum between)
  · intro taken size between
    obtain ⟨⟨wider, -⟩, higher, -⟩ := between
    rw [firstFreeSlot_eq_none_iff fits (wide.trans_le wider) (high.trans_le higher)]
    intro x y free
    exact taken x y (free.shrink wide high wider higher)

/-- **Shrinking to fit is optimal.** What is fitted is free and between the sizes, no free
box between them is larger, it is of the default size whenever that fits, and there is
none only if the minimum fits nowhere. -/
theorem fitWidget_optimal (wide : 0 < minimum.1) (high : 0 < minimum.2)
    (notWider : minimum.1 ≤ w) (notHigher : minimum.2 ≤ h) :
    (∀ box, fitWidget layout w h minimum = some box →
      Free gridColumns gridRows (layout.map LayoutItem.toBox) box ∧
      Between minimum w h (box.w, box.h) ∧
      (∀ other, Free gridColumns gridRows (layout.map LayoutItem.toBox) other →
        Between minimum w h (other.w, other.h) → other.w * other.h ≤ box.w * box.h) ∧
      ∀ x y, Free gridColumns gridRows (layout.map LayoutItem.toBox) ⟨x, y, w, h⟩ →
        box.w = w ∧ box.h = h) ∧
    (fitWidget layout w h minimum = none ↔
      ∀ x y, ¬ Free gridColumns gridRows (layout.map LayoutItem.toBox)
        ⟨x, y, minimum.1, minimum.2⟩) := by
  refine ⟨fun box fitted => ?_, fitWidget_eq_none_iff_minimum fits wide high notWider notHigher⟩
  obtain ⟨between, found, -⟩ := fitWidget_eq_some fitted
  have positive : 0 < box.w ∧ 0 < box.h :=
    ⟨wide.trans_le between.1.1, high.trans_le between.2.1⟩
  have free := ((firstFreeSlot_eq_some_iff fits positive.1 positive.2).mp found).toFree
  refine ⟨free, between, fun other => area_le_of_fitWidget fits fitted, fun x y offered => ?_⟩
  apply eq_default positive.1 positive.2 between.1.2 between.2.2
  apply area_le_of_fitWidget fits fitted offered
  exact ⟨⟨notWider, le_refl w⟩, notHigher, le_refl h⟩

end Seated

/-- A gap of six rows takes a calendar of six rows, and nothing larger would fit. -/
theorem fitWidget_optimal_gap :
    fitWidget [⟨⟨0, 0, 24, 18⟩, "a"⟩] 12 8 (4, 4) = some ⟨0, 18, 12, 6⟩ ∧
      ∀ other, Free gridColumns gridRows [⟨0, 0, 24, 18⟩] other →
        Between (4, 4) 12 8 (other.w, other.h) → other.w * other.h ≤ 72 := by
  have fits : ∀ item ∈ [LayoutItem.mk ⟨0, 0, 24, 18⟩ "a"],
      item.toBox.Fits gridColumns gridRows := by
    intro item member
    rw [List.mem_singleton.mp member]
    constructor <;> decide
  have fitted : fitWidget [⟨⟨0, 0, 24, 18⟩, "a"⟩] 12 8 (4, 4) = some ⟨0, 18, 12, 6⟩ := by
    decide +kernel
  have search := @fitWidget_optimal _ 12 8 (4, 4) fits (by decide) (by decide)
    (by decide) (by decide)
  exact ⟨fitted, (search.1 _ fitted).2.2.1⟩

end FrontDashboard.Boards
