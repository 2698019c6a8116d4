import FrontDashboard.Boards.FreeSlot
import Mathlib.Data.List.Perm.Basic

/-! # The bounded compactor

The grid library settles a layout upward and knows no last row. The bounded compactor
takes a settlement that fits, or one packed anew around the widget that is dragged, and
else goes back to the layout that last fitted.
-/

namespace FrontDashboard.Boards

open Box

namespace DashboardGrid

/-- `compact` of the grid library, which is not part of the program. -/
abbrev VerticalCompactor := Layout → Int → Layout

/-- The id and the size of an entry. -/
def sized (item : LayoutItem) : String × Int × Int := (item.i, item.w, item.h)

/-- The library moves the entries, and neither loses one nor changes a size. -/
def Preserves (vertical : VerticalCompactor) : Prop :=
  ∀ layout cols, ((vertical layout cols).map sized).Perm (layout.map sized)

def sameOccupants (a b : Layout) : Bool :=
  if a.length ≠ b.length then false
  else b.all fun item => decide (item.i ∈ a.map LayoutItem.i)

def isAdoptable (layout : Layout) (cols rows : Int) : Bool :=
  let inBounds := layout.all fun item =>
    decide (item.x + item.w ≤ cols) && decide (item.y + item.h ≤ rows) && decide (item.x ≥ 0) &&
      decide (item.y ≥ 0)
  if !inBounds then false
  else layout.zipIdx.all fun entry => layout.zipIdx.all fun other =>
    entry.2 == other.2 || decide (entry.1.x ≥ other.1.x + other.1.w) ||
      decide (other.1.x ≥ entry.1.x + entry.1.w) || decide (entry.1.y ≥ other.1.y + other.1.h) ||
      decide (other.1.y ≥ entry.1.y + entry.1.h)

/-- The comparison of both repacks: by rows, then by columns. -/
def readsBefore (a b : LayoutItem) : Prop := a.y < b.y ∨ a.y = b.y ∧ a.x ≤ b.x

instance : DecidableRel readsBefore := fun a b =>
  inferInstanceAs (Decidable (a.y < b.y ∨ a.y = b.y ∧ a.x ≤ b.x))

/-- `repack`, which always seats: in a corner at the bottom where nothing is free. -/
def repack (layout : Layout) (cols rows : Int) : Layout :=
  (layout.insertionSort readsBefore).foldl (fun placed item =>
    let w := min item.w cols
    let h := min item.h rows
    let seat := (firstFreeSlot placed w h cols rows).getD (0, max 0 (rows - h))
    placed ++ [⟨⟨seat.1, seat.2, w, h⟩, item.i⟩]) []

/-- One turn of `repackAround`. -/
def reseat (cols rows : Int) (placed : Layout) (item : LayoutItem) : Option Layout :=
  (firstFreeSlot placed item.w item.h cols rows).map fun slot =>
    placed ++ [⟨⟨slot.1, slot.2, item.w, item.h⟩, item.i⟩]

def repackAround (layout : Layout) (cols rows : Int) (pinned : String) : Option Layout :=
  match layout.find? fun item => item.i = pinned with
  | none => none
  | some pin =>
      if isAdoptable [pin] cols rows then
        ((layout.filter fun other => other.i ≠ pinned).insertionSort readsBefore).foldlM
          (reseat cols rows) [pin]
      else none

/-- The settlement of a layout and whether it fits. -/
def settle (vertical : VerticalCompactor) (layout : Layout) (cols rows : Int) : Layout × Bool :=
  let settled := vertical layout cols
  (settled, isAdoptable settled cols rows)

/-- The settlement and what the grid would take for it. -/
def resolve (vertical : VerticalCompactor) (layout : Layout) (cols rows : Int)
    (pinned : Option String) : Layout × Option Layout :=
  let (settled, fits) := settle vertical layout cols rows
  if fits then (settled, some settled)
  else (settled, pinned.bind fun pinned => repackAround settled cols rows pinned)

/-- What `useBoundedCompactor` remembers. -/
structure Refs where
  lastFitting : Option Layout
  moving : Option String

def beginGesture (rows : Int) (refs : Refs) (layout : Layout) (item : Option String) : Refs :=
  ⟨if isAdoptable layout gridColumns rows then some layout else refs.lastFitting, item⟩

def endGesture (refs : Refs) : Refs := { refs with moving := none }

def accepts (vertical : VerticalCompactor) (rows : Int) (refs : Refs) (layout : Layout)
    (cols : Int) : Bool :=
  (resolve vertical layout cols rows refs.moving).2.isSome

def compact (vertical : VerticalCompactor) (rows : Int) (refs : Refs) (layout : Layout)
    (cols : Int) : Layout × Refs :=
  let (settled, taken) := resolve vertical layout cols rows refs.moving
  match taken with
  | some taken => (taken, { refs with lastFitting := some taken })
  | none =>
      let repacked := repack settled cols rows
      match refs.lastFitting with
      | some previous =>
          if sameOccupants previous settled then (previous, refs)
          else (repacked, { refs with lastFitting := some repacked })
      | none => (repacked, { refs with lastFitting := some repacked })

/-! ## Adoptable layouts -/

variable {layout placed : Layout} {cols rows : Int}

/-- In bounds, and clear of each other. -/
structure Adoptable (cols rows : Int) (layout : Layout) : Prop where
  inBounds : ∀ item ∈ layout,
    0 ≤ item.x ∧ 0 ≤ item.y ∧ item.x + item.w ≤ cols ∧ item.y + item.h ≤ rows
  apart : layout.Pairwise fun item other => ¬ item.toBox.Overlaps other.toBox

/-- **The check of the client** compares each entry with every other. -/
theorem isAdoptable_iff : isAdoptable layout cols rows = true ↔ Adoptable cols rows layout := by
  have clear (item other : LayoutItem) :
      (decide (item.x ≥ other.x + other.w) || decide (other.x ≥ item.x + item.w) ||
        decide (item.y ≥ other.y + other.h) || decide (other.y ≥ item.y + item.h)) = true ↔
        ¬ item.toBox.Overlaps other.toBox := by
    simp only [Bool.or_eq_true, decide_eq_true_eq, Overlaps]
    omega
  have inside : (layout.all fun item =>
      decide (item.x + item.w ≤ cols) && decide (item.y + item.h ≤ rows) &&
        decide (item.x ≥ 0) && decide (item.y ≥ 0)) = true ↔
      ∀ item ∈ layout, 0 ≤ item.x ∧ 0 ≤ item.y ∧ item.x + item.w ≤ cols ∧
        item.y + item.h ≤ rows := by
    rw [List.all_eq_true]
    refine forall₂_congr fun item _ => ?_
    simp only [Bool.and_eq_true, decide_eq_true_eq]
    omega
  unfold isAdoptable
  simp only [Bool.or_assoc, Bool.not_eq_true'] at clear ⊢
  constructor
  · intro adoptable
    split at adoptable
    next => cases adoptable
    next bounded =>
      refine ⟨inside.mp (by simpa [and_assoc] using bounded), List.pairwise_iff_getElem.mpr ?_⟩
      intro i j iBound jBound before
      have listed (index : Nat) (bound : index < layout.length) :
          (layout[index], index) ∈ layout.zipIdx := by
        simp [List.mem_zipIdx_iff_getElem?, bound]
      have against := List.all_eq_true.mp adoptable _ (listed i iBound)
      have both := List.all_eq_true.mp against _ (listed j jBound)
      rw [Bool.or_eq_true, beq_iff_eq] at both
      exact (clear _ _).mp (both.resolve_left before.ne)
  · rintro ⟨bounded, apart⟩
    rw [if_neg (by simpa [and_assoc] using inside.mpr bounded)]
    rw [List.all_eq_true]
    intro entry inLayout
    rw [List.all_eq_true]
    intro other among
    rw [Bool.or_eq_true, beq_iff_eq, clear]
    rw [List.mem_zipIdx_iff_getElem?] at inLayout among
    obtain ⟨iBound, atI⟩ := List.getElem?_eq_some_iff.mp inLayout
    obtain ⟨jBound, atJ⟩ := List.getElem?_eq_some_iff.mp among
    rw [List.pairwise_iff_getElem] at apart
    rcases lt_trichotomy entry.2 other.2 with before | same | after
    · exact Or.inr (atI ▸ atJ ▸ apart _ _ iBound jBound before)
    · exact Or.inl same
    · refine Or.inr fun overlap => ?_
      exact apart _ _ jBound iBound after (atI.symm ▸ atJ.symm ▸ overlap.symm)

theorem Adoptable.of_packed (packed : Packed cols rows (layout.map LayoutItem.toBox)) :
    Adoptable cols rows layout := by
  refine ⟨fun item member => ?_, List.pairwise_map.mp packed.apart⟩
  have fits := packed.fits _ (List.mem_map_of_mem member)
  exact ⟨fits.left, fits.top, fits.right, fits.bottom⟩

/-- Every entry has cells. -/
def Sized (layout : Layout) : Prop := ∀ item ∈ layout, 0 < item.w ∧ 0 < item.h

theorem Adoptable.packed (adoptable : Adoptable cols rows layout) (positive : Sized layout) :
    Packed cols rows (layout.map LayoutItem.toBox) := by
  refine ⟨List.forall_mem_map.mpr fun item member => ?_, List.pairwise_map.mpr adoptable.apart⟩
  obtain ⟨left, top, right, bottom⟩ := adoptable.inBounds item member
  obtain ⟨wide, high⟩ := positive item member
  exact ⟨left, top, wide, high, right, bottom⟩

/-! ## Repacking around a widget -/

/-- A turn seats its entry clear of those before it, and keeps its size. -/
theorem reseat_eq_some {item : LayoutItem} {seated : Layout}
    (packed : Packed cols rows (placed.map LayoutItem.toBox)) (wide : 0 < item.w)
    (high : 0 < item.h) (turned : reseat cols rows placed item = some seated) :
    Packed cols rows (seated.map LayoutItem.toBox) ∧ placed ⊆ seated ∧
      seated.map sized = placed.map sized ++ [sized item] := by
  obtain ⟨slot, found, rfl⟩ := Option.map_eq_some_iff.mp turned
  have fits : ∀ other ∈ placed, other.toBox.Fits cols rows :=
    List.forall_mem_map.mp packed.fits
  rw [firstFreeSlot_eq_scan] at found
  have free := ((edgeScan (edges_nonneg fits) wide high).eq_some_iff.mp found).toFree
  refine ⟨?_, List.subset_append_left _ _, by simp [sized]⟩
  rw [List.map_append]
  exact packed.concat free.toFits fun other member overlap => free.clear other member overlap.symm

/-- **All turns** together: what is seated stays clear, at the sizes it has. -/
theorem foldlM_reseat_eq_some {rest : Layout} {seated : Layout}
    (packed : Packed cols rows (placed.map LayoutItem.toBox)) (positive : Sized rest)
    (turned : rest.foldlM (reseat cols rows) placed = some seated) :
    Packed cols rows (seated.map LayoutItem.toBox) ∧ placed ⊆ seated ∧
      seated.map sized = placed.map sized ++ rest.map sized := by
  induction rest generalizing placed with
  | nil =>
      cases turned
      exact ⟨packed, List.Subset.refl _, (List.append_nil _).symm⟩
  | cons item rest ih =>
      rw [List.foldlM_cons, Option.bind_eq_bind, Option.bind_eq_some_iff] at turned
      obtain ⟨next, first, later⟩ := turned
      obtain ⟨wide, high⟩ := positive item List.mem_cons_self
      obtain ⟨nextPacked, keeps, nextSized⟩ := reseat_eq_some packed wide high first
      obtain ⟨seatedPacked, keeps', seatedSized⟩ :=
        ih nextPacked (fun other member => positive other (List.mem_cons_of_mem _ member)) later
      refine ⟨seatedPacked, List.Subset.trans keeps keeps', ?_⟩
      rw [seatedSized, nextSized, List.append_assoc, List.singleton_append, List.map_cons]

/-- An entry and the others of a list under ids of their own are the list. -/
theorem perm_cons_filter {pin : LayoutItem} (unique : (layout.map LayoutItem.i).Nodup)
    (member : pin ∈ layout) :
    layout.Perm (pin :: layout.filter fun other => other.i ≠ pin.i) := by
  induction layout with
  | nil => cases member
  | cons head tail ih =>
      rw [List.map_cons, List.nodup_cons] at unique
      rcases List.mem_cons.mp member with rfl | later
      · have others : tail.filter (fun other => other.i ≠ pin.i) = tail := by
          rw [List.filter_eq_self]
          intro other among
          have fresh : other.i ≠ pin.i := fun same =>
            unique.1 (same ▸ List.mem_map_of_mem among)
          exact decide_eq_true fresh
        rw [List.filter_cons_of_neg (by simp), others]
      · have fresh : head.i ≠ pin.i := fun same =>
          unique.1 (same ▸ List.mem_map_of_mem later)
        rw [List.filter_cons_of_pos (by simpa using fresh)]
        exact ((ih unique.2 later).cons head).trans (List.Perm.swap _ _ _)

/-- **A repacking around a widget** leaves it where it is, keeps every size and fits. -/
theorem repackAround_eq_some {pinned : String} {repacked : Layout}
    (unique : (layout.map LayoutItem.i).Nodup) (positive : Sized layout)
    (ran : repackAround layout cols rows pinned = some repacked) :
    Packed cols rows (repacked.map LayoutItem.toBox) ∧
      (repacked.map sized).Perm (layout.map sized) ∧
      ∃ pin ∈ layout, pin.i = pinned ∧ pin ∈ repacked := by
  rw [repackAround] at ran
  split at ran
  next => cases ran
  next pin sought =>
    split_ifs at ran with fits
    have member := List.mem_of_find?_eq_some sought
    have named := List.find?_some sought
    rw [decide_eq_true_eq] at named
    subst named
    have single : Packed cols rows ([pin].map LayoutItem.toBox) := by
      apply (isAdoptable_iff.mp fits).packed
      intro item among
      exact List.mem_singleton.mp among ▸ positive pin member
    have others : Sized ((layout.filter fun other => other.i ≠ pin.i).insertionSort
      readsBefore) := by
      intro item among
      exact positive item (List.mem_of_mem_filter (List.mem_insertionSort _ |>.mp among))
    obtain ⟨packed, keeps, same⟩ := foldlM_reseat_eq_some single others ran
    refine ⟨packed, ?_, pin, member, rfl, keeps List.mem_cons_self⟩
    rw [same]
    exact ((List.perm_insertionSort _ _).map sized).cons (sized pin) |>.trans
      ((perm_cons_filter unique member).map sized).symm

/-! ## A gesture -/

/-- A layout over the widgets of another: an entry of some size for each. -/
structure SameWidgets (start layout : Layout) : Prop where
  ids : (layout.map LayoutItem.i).Perm (start.map LayoutItem.i)
  positive : Sized layout

/-- The compactor remembers a layout over the widgets that fits. -/
def Remembers (rows : Int) (start : Layout) (refs : Refs) : Prop :=
  ∃ kept, refs.lastFitting = some kept ∧ SameWidgets start kept ∧ Adoptable gridColumns rows kept

theorem ids_perm {a b : Layout} (same : (a.map sized).Perm (b.map sized)) :
    (a.map LayoutItem.i).Perm (b.map LayoutItem.i) := by
  have ids := same.map Prod.fst
  rwa [List.map_map, List.map_map] at ids

theorem sized_of_perm {a b : Layout} (same : (a.map sized).Perm (b.map sized))
    (positive : Sized b) : Sized a := by
  intro item member
  obtain ⟨other, among, equal⟩ := List.mem_map.mp (same.mem_iff.mp (List.mem_map_of_mem member))
  obtain ⟨-, wide, high⟩ : other.i = item.i ∧ other.w = item.w ∧ other.h = item.h := by
    simpa [sized] using equal
  exact wide ▸ high ▸ positive other among

theorem SameWidgets.of_perm {start a b : Layout} (covers : SameWidgets start b)
    (same : (a.map sized).Perm (b.map sized)) : SameWidgets start a :=
  ⟨(ids_perm same).trans covers.ids, sized_of_perm same covers.positive⟩

theorem sameOccupants_of_perm {a b : Layout}
    (same : (a.map LayoutItem.i).Perm (b.map LayoutItem.i)) : sameOccupants a b = true := by
  have long := same.length_eq
  rw [List.length_map, List.length_map] at long
  rw [sameOccupants, if_neg (not_not.mpr long), List.all_eq_true]
  intro item member
  exact decide_eq_true (same.mem_iff.mpr (List.mem_map_of_mem member))

variable {vertical : VerticalCompactor} {start : Layout} {refs : Refs} {pinned : Option String}

/-- What a settlement that was packed anew keeps of it: the sizes, and where the dragged
widget is. -/
def RepackedAround (pinned : Option String) (settled repacked : Layout) : Prop :=
  (repacked.map sized).Perm (settled.map sized) ∧
    ∃ pin ∈ settled, some pin.i = pinned ∧ pin ∈ repacked

theorem resolve_eq (layout : Layout) :
    resolve vertical layout cols rows pinned =
      (vertical layout cols,
        if isAdoptable (vertical layout cols) cols rows then some (vertical layout cols)
        else pinned.bind fun pinned => repackAround (vertical layout cols) cols rows pinned) := by
  cases fits : isAdoptable (vertical layout cols) cols rows <;> simp [resolve, settle, fits]

/-- **What the grid takes** is the settlement or a repacking of it, and fits. -/
theorem resolve_taken {taken : Layout} (preserves : Preserves vertical)
    (unique : (layout.map LayoutItem.i).Nodup) (positive : Sized layout)
    (resolved : (resolve vertical layout cols rows pinned).2 = some taken) :
    Adoptable cols rows taken ∧ (taken.map sized).Perm (layout.map sized) ∧
      (taken = vertical layout cols ∨ RepackedAround pinned (vertical layout cols) taken) := by
  have kept := preserves layout cols
  rw [resolve_eq] at resolved
  dsimp only at resolved
  split at resolved
  next fits =>
    cases resolved
    exact ⟨isAdoptable_iff.mp fits, kept, Or.inl rfl⟩
  next =>
    obtain ⟨pin, named, repacked⟩ := Option.bind_eq_some_iff.mp resolved
    have settledUnique := (ids_perm kept).nodup_iff.mpr unique
    obtain ⟨packed, same, pin', member, rfl, stays⟩ :=
      repackAround_eq_some settledUnique (sized_of_perm kept positive) repacked
    exact ⟨Adoptable.of_packed packed, same.trans kept,
      Or.inr ⟨same, pin', member, named.symm, stays⟩⟩

/-- **One call** returns a layout over the widgets that fits, and remembers one. -/
theorem compact_keeps (preserves : Preserves vertical) (unique : (start.map LayoutItem.i).Nodup)
    (remembers : Remembers rows start refs) (handed : SameWidgets start layout) :
    SameWidgets start (compact vertical rows refs layout gridColumns).1 ∧
      Adoptable gridColumns rows (compact vertical rows refs layout gridColumns).1 ∧
      Remembers rows start (compact vertical rows refs layout gridColumns).2 := by
  cases resolved : (resolve vertical layout gridColumns rows refs.moving).2 with
  | some taken =>
      obtain ⟨adoptable, same, -⟩ :=
        resolve_taken preserves (handed.ids.nodup_iff.mpr unique) handed.positive resolved
      simp only [compact, resolved]
      exact ⟨handed.of_perm same, adoptable, taken, rfl, handed.of_perm same, adoptable⟩
  | none =>
      obtain ⟨kept, last, covers, adoptable⟩ := remembers
      have settledIds := (ids_perm (preserves layout gridColumns)).trans handed.ids
      have occupants := sameOccupants_of_perm (covers.ids.trans settledIds.symm)
      have settled : (resolve vertical layout gridColumns rows refs.moving).1 =
          vertical layout gridColumns := by rw [resolve_eq]
      simp only [compact, resolved, last, settled, occupants, ↓reduceIte]
      exact ⟨covers, adoptable, kept, last, covers, adoptable⟩

/-- What the grid asks of the compactor, from the start of a gesture on. -/
inductive Call
  | accepts (layout : Layout)
  | compact (layout : Layout)
  | endGesture

/-- The layout that is handed over is one over the widgets. -/
def Call.Over (start : Layout) : Call → Prop
  | .accepts layout | .compact layout => SameWidgets start layout
  | .endGesture => True

def Refs.after (vertical : VerticalCompactor) (rows : Int) (refs : Refs) : Call → Refs
  | .accepts _ => refs
  | .compact layout => (DashboardGrid.compact vertical rows refs layout gridColumns).2
  | .endGesture => DashboardGrid.endGesture refs

theorem after_remembers (preserves : Preserves vertical)
    (unique : (start.map LayoutItem.i).Nodup) (remembers : Remembers rows start refs)
    {call : Call} (covers : call.Over start) :
    Remembers rows start (refs.after vertical rows call) := by
  cases call with
  | accepts layout => exact remembers
  | compact layout => exact (compact_keeps preserves unique remembers covers).2.2
  | endGesture => exact remembers

theorem foldl_after_remembers (preserves : Preserves vertical)
    (unique : (start.map LayoutItem.i).Nodup) (remembers : Remembers rows start refs)
    {calls : List Call} (covers : ∀ call ∈ calls, call.Over start) :
    Remembers rows start (calls.foldl (Refs.after vertical rows) refs) := by
  induction calls generalizing refs with
  | nil => exact remembers
  | cons call calls ih =>
      have first := after_remembers preserves unique remembers (covers call List.mem_cons_self)
      exact ih first fun later member => covers later (List.mem_cons_of_mem call member)

theorem beginGesture_remembers
    (packed : Packed gridColumns rows (start.map LayoutItem.toBox)) (item : Option String) :
    Remembers rows start (beginGesture rows refs start item) := by
  have adoptable := Adoptable.of_packed packed
  refine ⟨start, if_pos (isAdoptable_iff.mpr adoptable), ⟨List.Perm.refl _, fun item member => ?_⟩,
    adoptable⟩
  have fits := packed.fits _ (List.mem_map_of_mem member)
  exact ⟨fits.wide, fits.high⟩

/-- **A drag never leaves the grid** with a layout it cannot adopt. After any calls of a
gesture, what is returned for a layout over its widgets has an entry for each of them and
is packed; and what is accepted is settled as the library settles it, or packed anew
around the dragged widget. -/
theorem compact_adoptable (preserves : Preserves vertical)
    (packed : Packed gridColumns rows (start.map LayoutItem.toBox))
    (unique : (start.map LayoutItem.i).Nodup) (refs : Refs) (item : Option String)
    (calls : List Call) (covers : ∀ call ∈ calls, call.Over start) (layout : Layout)
    (handed : SameWidgets start layout) :
    let before := calls.foldl (Refs.after vertical rows) (beginGesture rows refs start item)
    let returned := (compact vertical rows before layout gridColumns).1
    ((returned.map LayoutItem.i).Perm (start.map LayoutItem.i) ∧
      Packed gridColumns rows (returned.map LayoutItem.toBox)) ∧
    ∀ asked : Refs, asked.moving = before.moving →
      accepts vertical rows asked layout gridColumns = true →
      (returned.map sized).Perm (layout.map sized) ∧
        (returned = vertical layout gridColumns ∨
          RepackedAround before.moving (vertical layout gridColumns) returned) := by
  intro before returned
  have remembers : Remembers rows start before :=
    foldl_after_remembers preserves unique (beginGesture_remembers packed item) covers
  obtain ⟨same, adoptable, -⟩ := compact_keeps preserves unique remembers handed
  refine ⟨⟨same.ids, adoptable.packed same.positive⟩, fun asked moving accepted => ?_⟩
  rw [accepts, moving] at accepted
  obtain ⟨taken, resolved⟩ := Option.isSome_iff_exists.mp accepted
  have returns : returned = taken := by simp only [returned, compact, resolved]
  obtain ⟨-, kept, placed⟩ :=
    resolve_taken preserves (handed.ids.nodup_iff.mpr unique) handed.positive resolved
  exact returns ▸ ⟨kept, placed⟩

/-- Two widgets side by side, and the two after they changed places. -/
def halves : Layout := [⟨⟨0, 0, 12, 12⟩, "a"⟩, ⟨⟨12, 0, 12, 12⟩, "b"⟩]

def swapped : Layout := [⟨⟨12, 0, 12, 12⟩, "a"⟩, ⟨⟨0, 0, 12, 12⟩, "b"⟩]

/-- Both lie at the top, so the library leaves them where they are. -/
theorem compact_adoptable_swapped :
    let vertical : VerticalCompactor := fun layout _ => layout
    let before := beginGesture 24 ⟨none, none⟩ halves (some "a")
    (((compact vertical 24 before swapped gridColumns).1.map LayoutItem.i).Perm ["a", "b"] ∧
      Packed gridColumns 24 ((compact vertical 24 before swapped gridColumns).1.map
        LayoutItem.toBox)) ∧
    accepts vertical 24 before swapped gridColumns = true := by
  intro vertical before
  have packed : Packed gridColumns 24 (halves.map LayoutItem.toBox) := by
    refine ⟨List.forall_mem_map.mpr fun item member => ?_, by decide⟩
    rcases List.mem_pair.mp member with rfl | rfl <;> constructor <;> decide
  have handed : SameWidgets halves swapped := by
    refine ⟨List.Perm.refl _, fun item member => ?_⟩
    rcases List.mem_pair.mp member with rfl | rfl <;> decide
  have gesture := @compact_adoptable 24 vertical halves (fun _ _ => List.Perm.refl _) packed
    (by decide) ⟨none, none⟩ (some "a") [] (fun _ none => nomatch none) swapped handed
  exact ⟨gesture.1, by decide⟩

end DashboardGrid

end FrontDashboard.Boards
