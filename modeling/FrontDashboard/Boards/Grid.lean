import FrontDashboard.Library.Box
import Mathlib.Algebra.Order.Ring.Rat
import Mathlib.Data.List.Dedup
import Mathlib.Data.List.Sort

/-! # The grid of a dashboard

The entries of a layout, where the server seats a new widget among them, and what it
accepts of a layout that a client sends.
-/

namespace FrontDashboard.Boards

/-- `GRID_COLUMNS` and `GRID_ROWS`. -/
def gridColumns : Int := 24
def gridRows : Int := 24

/-- An entry of a layout. Its id is a text, of a widget or not. -/
structure LayoutItem extends Box where
  i : String
  deriving DecidableEq

abbrev Layout := List LayoutItem

inductive WidgetType
  | clock
  | calendar
  | list
  | agenda
  deriving DecidableEq

/-- `minimum_widget_size`, also of a type that is not known. -/
def minimumWidgetSize : Option WidgetType → Int × Int
  | some .calendar => (8, 8)
  | _ => (4, 4)

/-- `_default_widget_size`. -/
def defaultWidgetSize : WidgetType → Int × Int
  | .calendar => (12, 8)
  | _ => (4, 6)

/-! ## Placement -/

/-- `sorted` of a set. -/
def sortedSet (values : List Int) : List Int := values.dedup.insertionSort (· ≤ ·)

/-- `_first_free_slot`. -/
def firstFreeSlot (layout : Layout) (w h : Int) : Option (Int × Int) :=
  let rows := sortedSet (0 :: layout.map fun item => item.y + item.h)
  let columns := sortedSet (0 :: layout.map fun item => item.x + item.w)
  rows.findSome? fun y =>
    if y + h > gridRows then none
    else (columns.find? fun x =>
      x + w ≤ gridColumns ∧ ∀ item ∈ layout, ¬ (Box.mk x y w h).Overlaps item.toBox).map fun x =>
        (x, y)

/-- The integers from `low` up to `high`. -/
def span (low high : Int) : List Int :=
  (List.range (high + 1 - low).toNat).map fun step : Nat => low + step

/-- Whether a size is tried no later than another: a larger area first, then the closer to
the shape that was asked for. -/
def triedFirst (shape : ℚ) (size other : Int × Int) : Bool :=
  let area := size.1 * size.2
  let otherArea := other.1 * other.2
  otherArea < area ||
    area = otherArea && |(size.1 : ℚ) / size.2 - shape| ≤ |(other.1 : ℚ) / other.2 - shape|

/-- `_fit_widget`. -/
def fitWidget (layout : Layout) (w h : Int) (minimum : Int × Int) : Option Box :=
  let candidates := ((span minimum.1 w).flatMap fun width =>
    (span minimum.2 h).map fun height => (width, height)).insertionSort fun size other =>
    triedFirst ((w : ℚ) / h) size other = true
  candidates.findSome? fun size =>
    (firstFreeSlot layout size.1 size.2).map fun slot => ⟨slot.1, slot.2, size.1, size.2⟩

/-! ## Validation -/

/-- `repr` of a text without quotes. -/
def quoted (text : String) : String := "'" ++ text ++ "'"

/-- What is wrong with an entry, given those before it. -/
def impossible (placed : Layout) (item : LayoutItem) : Option String :=
  if item.x < 0 ∨ item.y < 0 ∨ item.w < 1 ∨ item.h < 1 then
    some ("Layout item " ++ quoted item.i ++ " has out-of-range coordinates")
  else if item.x + item.w > gridColumns ∨ item.y + item.h > gridRows then
    some ("Layout item " ++ quoted item.i ++ " does not fit a 24x24 grid")
  else if item.i ∈ placed.map LayoutItem.i then some ("Duplicate layout item " ++ quoted item.i)
  else (placed.find? fun other => item.toBox.Overlaps other.toBox).map fun other =>
    "Layout items " ++ quoted other.i ++ " and " ++ quoted item.i ++ " overlap"

/-- `_reject_impossible_grids`: the entries that are placed, or why not. -/
def rejectImpossibleGrids : Layout → Layout → Except String Layout
  | placed, [] => .ok placed
  | placed, item :: rest =>
      match impossible placed item with
      | some reason => .error reason
      | none => rejectImpossibleGrids (placed ++ [item]) rest

/-! ## Well-formed layouts -/

/-- The entries are packed on the grid under ids of their own. -/
structure WellFormed (layout : Layout) : Prop where
  packed : Box.Packed gridColumns gridRows (layout.map LayoutItem.toBox)
  unique : (layout.map LayoutItem.i).Nodup

namespace WellFormed

variable {layout : Layout}

theorem nil : WellFormed [] := ⟨.nil, .nil⟩

theorem filter (formed : WellFormed layout) (keeps : LayoutItem → Bool) :
    WellFormed (layout.filter keeps) :=
  ⟨formed.packed.sublist (List.filter_sublist.map _),
    formed.unique.sublist (List.filter_sublist.map _)⟩

theorem concat {item : LayoutItem} (formed : WellFormed layout)
    (fits : item.toBox.Fits gridColumns gridRows)
    (free : ∀ other ∈ layout, ¬ other.toBox.Overlaps item.toBox)
    (fresh : item.i ∉ layout.map LayoutItem.i) : WellFormed (layout ++ [item]) := by
  constructor
  · rw [List.map_append]
    exact formed.packed.concat fits (List.forall_mem_map.mpr free)
  · rw [List.map_append, List.map_singleton, ← List.concat_eq_append]
    exact List.Nodup.concat fresh formed.unique

/-- No two entries share a cell. -/
theorem disjoint (formed : WellFormed layout) :
    layout.Pairwise fun item other => Disjoint item.cells other.cells := by
  have apart := formed.packed.apart
  rw [List.pairwise_map] at apart
  exact apart.imp Box.disjoint_cells

theorem fits (formed : WellFormed layout) {item : LayoutItem} (member : item ∈ layout) :
    item.toBox.Fits gridColumns gridRows :=
  formed.packed.fits _ (List.mem_map_of_mem member)

end WellFormed

theorem mem_sortedSet {values : List Int} {value : Int} :
    value ∈ sortedSet values ↔ value ∈ values := by
  rw [sortedSet, List.mem_insertionSort, List.mem_dedup]

/-- **A free slot is free**, and on the grid where the layout is. -/
theorem firstFreeSlot_sound {layout : Layout} (formed : WellFormed layout) {w h x y : Int}
    (wide : 1 ≤ w) (high : 1 ≤ h) (found : firstFreeSlot layout w h = some (x, y)) :
    (Box.mk x y w h).Fits gridColumns gridRows ∧
      ∀ item ∈ layout, ¬ item.toBox.Overlaps ⟨x, y, w, h⟩ := by
  obtain ⟨row, inRows, seated⟩ := List.exists_of_findSome?_eq_some found
  split_ifs at seated with tooLow
  obtain ⟨column, sought, same⟩ := Option.map_eq_some_iff.mp seated
  cases same
  have fits := List.find?_some sought
  rw [decide_eq_true_eq] at fits
  obtain ⟨right, free⟩ := fits
  have inColumns := mem_sortedSet.mp (List.mem_of_find?_eq_some sought)
  have alsoInRows := mem_sortedSet.mp inRows
  have left : 0 ≤ x := by
    rcases List.mem_cons.mp inColumns with rfl | edge
    · rfl
    · obtain ⟨item, member, rfl⟩ := List.mem_map.mp edge
      exact add_nonneg (formed.fits member).left (zero_le_one.trans (formed.fits member).wide)
  have top : 0 ≤ y := by
    rcases List.mem_cons.mp alsoInRows with rfl | edge
    · rfl
    · obtain ⟨item, member, rfl⟩ := List.mem_map.mp edge
      exact add_nonneg (formed.fits member).top (zero_le_one.trans (formed.fits member).high)
  exact ⟨⟨left, top, wide, high, right, not_lt.mp tooLow⟩,
    fun item member overlap => free item member overlap.symm⟩

theorem le_of_mem_span {low high value : Int} (member : value ∈ span low high) : low ≤ value := by
  obtain ⟨step, _, rfl⟩ := List.mem_map.mp member
  exact Int.le_add_of_nonneg_right (Int.natCast_nonneg step)

/-- **A widget that is fitted** lies on the grid and overlaps no other. -/
theorem fitWidget_sound {layout : Layout} (formed : WellFormed layout) {w h : Int}
    {minimum : Int × Int} (wide : 1 ≤ minimum.1) (high : 1 ≤ minimum.2) {box : Box}
    (fitted : fitWidget layout w h minimum = some box) :
    box.Fits gridColumns gridRows ∧ ∀ item ∈ layout, ¬ item.toBox.Overlaps box := by
  obtain ⟨size, listed, seated⟩ := List.exists_of_findSome?_eq_some fitted
  obtain ⟨slot, found, rfl⟩ := Option.map_eq_some_iff.mp seated
  rw [List.mem_insertionSort, List.mem_flatMap] at listed
  obtain ⟨width, inWidths, listed⟩ := listed
  obtain ⟨height, inHeights, rfl⟩ := List.mem_map.mp listed
  exact firstFreeSlot_sound formed (wide.trans (le_of_mem_span inWidths))
    (high.trans (le_of_mem_span inHeights)) found

/-- An entry that nothing is wrong with can be placed. -/
theorem concat_of_possible {placed : Layout} {item : LayoutItem} (formed : WellFormed placed)
    (possible : impossible placed item = none) : WellFormed (placed ++ [item]) := by
  unfold impossible at possible
  split_ifs at possible with outOfRange outside duplicate
  rw [Option.map_eq_none_iff, List.find?_eq_none] at possible
  have fits : item.toBox.Fits gridColumns gridRows := by
    constructor <;> omega
  apply formed.concat fits _ duplicate
  intro other member overlap
  exact possible other member (decide_eq_true overlap.symm)

/-- **What is accepted is well formed**, and is what was sent. -/
theorem rejectImpossibleGrids_eq_ok {placed layout accepted : Layout} (formed : WellFormed placed)
    (ran : rejectImpossibleGrids placed layout = .ok accepted) :
    accepted = placed ++ layout ∧ WellFormed accepted := by
  induction layout generalizing placed with
  | nil =>
      cases ran
      exact ⟨(List.append_nil _).symm, formed⟩
  | cons item rest ih =>
      rw [rejectImpossibleGrids] at ran
      split at ran
      next => cases ran
      next possible =>
        obtain ⟨same, accepted⟩ := ih (concat_of_possible formed possible) ran
        rw [same, List.append_assoc]
        exact ⟨rfl, by rwa [same, List.append_assoc] at accepted⟩

/-- The write path takes the layout. -/
def Accepted (layout : Layout) : Prop := rejectImpossibleGrids [] layout = .ok layout

instance (layout : Layout) : Decidable (Accepted layout) :=
  match ran : rejectImpossibleGrids [] layout with
  | .ok accepted =>
      if same : accepted = layout then isTrue (by rw [Accepted, ran, same])
      else isFalse fun accepts => same (Except.ok.inj (ran.symm.trans accepts))
  | .error _ => isFalse fun accepts => nomatch ran.symm.trans accepts

variable {layout placed : Layout} {item : LayoutItem}

/-- An entry that can be placed next to others is not impossible. -/
theorem impossible_eq_none (fits : item.toBox.Fits gridColumns gridRows)
    (fresh : item.i ∉ placed.map LayoutItem.i)
    (free : ∀ other ∈ placed, ¬ item.toBox.Overlaps other.toBox) :
    impossible placed item = none := by
  have left := fits.left
  have top := fits.top
  have wide := fits.wide
  have high := fits.high
  have right := fits.right
  have bottom := fits.bottom
  unfold impossible
  rw [if_neg (by omega), if_neg (by omega), if_neg fresh, Option.map_eq_none_iff,
    List.find?_eq_none]
  simpa using free

theorem rejectImpossibleGrids_of_wellFormed (formed : WellFormed (placed ++ layout)) :
    rejectImpossibleGrids placed layout = .ok (placed ++ layout) := by
  induction layout generalizing placed with
  | nil => rw [rejectImpossibleGrids, List.append_nil]
  | cons item rest ih =>
      have possible : impossible placed item = none := by
        have unique := formed.unique
        have apart := formed.packed.apart
        rw [List.map_append, List.nodup_append'] at unique
        rw [List.map_append, List.pairwise_append] at apart
        apply impossible_eq_none (formed.fits (by simp))
        · intro known
          exact unique.2.2 known (by simp)
        · intro other member overlap
          exact apart.2.2 _ (List.mem_map_of_mem member) item.toBox (by simp) overlap.symm
      rw [rejectImpossibleGrids, possible]
      dsimp only
      rw [ih (by rwa [List.append_assoc, List.singleton_append]), List.append_assoc,
        List.singleton_append]

/-- **The write path takes** exactly the well-formed layouts. -/
theorem accepted_iff : Accepted layout ↔ WellFormed layout := by
  constructor
  · intro accepted
    exact (rejectImpossibleGrids_eq_ok .nil accepted).2
  · exact @rejectImpossibleGrids_of_wellFormed layout []

/-- Two entries of a well-formed layout that overlap are one. -/
theorem WellFormed.eq_of_overlaps (formed : WellFormed layout) {other : LayoutItem}
    (member : item ∈ layout) (among : other ∈ layout)
    (overlap : item.toBox.Overlaps other.toBox) : item = other := by
  by_contra different
  have : Std.Symm fun item other : LayoutItem => ¬ item.toBox.Overlaps other.toBox :=
    ⟨fun _ _ apart overlap => apart overlap.symm⟩
  exact (List.pairwise_map.mp formed.packed.apart).forall member among different overlap

end FrontDashboard.Boards
