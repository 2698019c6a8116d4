import FrontDashboard.Boards.FreeSlot
import FrontDashboard.Library.Binary64

/-! # Re-expressing a stored layout on the bounded grid

Every entry is scaled, by the full factor across and by what fits down, and the entries
are then seated one after the other from the top. An entry keeps its column and rises to
what lies above, or goes to the first free place that holds it, or gives up area until
one does. The layouts here hold integers in every entry.
-/

namespace FrontDashboard.Boards.Rescale

open Box

/-! ## Scaling -/

/-- The factor for rows: the integer that was asked for, or a float. -/
inductive Factor
  | int (value : Int)
  | float (value : ℚ)
  deriving DecidableEq

/-- `int` of a float. -/
def truncate (q : ℚ) : Int := if 0 ≤ q then ⌊q⌋ else ⌈q⌉

/-- `int(value * factor)`, which an integer or a product too large for a float has none
of: the conversion raises. -/
def Factor.scale (value : Int) : Factor → Option Int
  | .int factor => some (value * factor)
  | .float factor => (Binary64.round value).bind fun converted =>
      (Binary64.round (converted * factor)).map truncate

def extent (layout : Layout) : Int := (layout.map fun item => item.y + item.h).max?.getD 0

/-- The smaller of the factor and what the rows allow. -/
def vertical (factor rows : Int) (layout : Layout) : Option Factor :=
  if extent layout = 0 then some (.int factor)
  else (Binary64.round ((rows : ℚ) / extent layout)).map fun quotient : ℚ =>
    if quotient < factor then .float quotient else .int factor

def scaleItem (factor columns rows : Int) (vertical : Factor) (item : LayoutItem) :
    Option LayoutItem :=
  (vertical.scale item.y).bind fun y =>
    (vertical.scale item.h).map fun h =>
      ⟨⟨min (item.x * factor) (columns - 1), y,
        max 1 (min (item.w * factor) columns), max 1 (min h rows)⟩, item.i⟩

/-- The scaled entries, or none where a conversion raises. -/
def scale (layout : Layout) (factor columns rows : Int) : Option Layout :=
  (vertical factor rows layout).bind fun vertical =>
    layout.mapM (scaleItem factor columns rows vertical)

/-! ## Seating -/

/-- `_seat`. -/
def seat (placed : List Box) (w h columns rows : Int) : Option (Int × Int) :=
  let candidateRows := sortedSet (0 :: placed.map fun box => box.y + box.h)
  let candidateCols := sortedSet (0 :: placed.map fun box => box.x + box.w)
  candidateRows.findSome? fun y =>
    if y + h > rows then none
    else candidateCols.findSome? fun x =>
      if x + w > columns then none
      else if placed.all fun box => decide (x ≥ box.x + box.w) || decide (box.x ≥ x + w) ||
          decide (y ≥ box.y + box.h) || decide (box.y ≥ y + h) then some (x, y)
      else none

/-- One row or column less of a size. -/
def smaller (w h : Int) : Int × Int := if h ≥ w then (w, h - 1) else (w - 1, h)

/-- The loop that gives up area. A turn takes a row or a column away, so as many turns as
the size has of both are enough. -/
def shrink (placed : List Box) (columns rows : Int) : Nat → Int → Int → Box
  | 0, w, h => ⟨0, 0, w, h⟩
  | turns + 1, w, h =>
      if w > 1 ∨ h > 1 then
        match seat placed (smaller w h).1 (smaller w h).2 columns rows with
        | some (x, y) => ⟨x, y, (smaller w h).1, (smaller w h).2⟩
        | none => shrink placed columns rows turns (smaller w h).1 (smaller w h).2
      else ⟨0, 0, w, h⟩

/-- The lowest edge above a span of columns. -/
def top (placed : List Box) (x w : Int) : Int :=
  ((placed.filter fun box => x < box.x + box.w ∧ box.x < x + w).map fun box =>
    box.y + box.h).max?.getD 0

/-- Where an entry is seated among those before it. -/
def place (placed : List Box) (columns rows : Int) (box : Box) : Box :=
  let x := max 0 (min box.x (columns - box.w))
  let resting := top placed x box.w
  if resting + box.h ≤ rows then ⟨x, resting, box.w, box.h⟩
  else
    match seat placed box.w box.h columns rows with
    | some (x, y) => ⟨x, y, box.w, box.h⟩
    | none => shrink placed columns rows (box.w + box.h).toNat box.w box.h

/-- The entries in the order they are seated in, each with its index in the layout. -/
def byRow (entry other : LayoutItem × Nat) : Prop :=
  entry.1.y < other.1.y ∨ entry.1.y = other.1.y ∧ entry.1.x ≤ other.1.x

instance : DecidableRel byRow := fun entry other =>
  inferInstanceAs (Decidable (entry.1.y < other.1.y ∨
    entry.1.y = other.1.y ∧ entry.1.x ≤ other.1.x))

def inTurn (scaled : Layout) : List (LayoutItem × Nat) := scaled.zipIdx.insertionSort byRow

/-- The entries are changed where they are, so each is back at its index. -/
def inPlace (seated : List (LayoutItem × Nat)) : Layout :=
  (seated.insertionSort fun entry other => entry.2 ≤ other.2).map Prod.fst

end FrontDashboard.Boards.Rescale
