import FrontDashboard.Library.Gaps
import Mathlib.Data.List.Nodup

/-! # Dragging in the active zone

The list page shows the unchecked items of a list apart from the checked ones. A drag
orders the unchecked ids, and the page fills them into the places that the checked items
leave. The list may have changed under the drag, which the page can only tell from the
ids it was given.
-/

namespace FrontDashboard.Lists.CheckedPile

/-- `ListItem`, as far as the zones look at it. -/
structure ListItem where
  id : String
  checked : Bool

structure Zones where
  active : List ListItem
  pile : List ListItem

/-- `partitionItems`. -/
def partitionItems (items : List ListItem) : Zones where
  active := items.filter fun item => !item.checked
  pile := items.filter ListItem.checked

/-- A checked item keeps its place. -/
def ListItem.keeps (item : ListItem) : Option String :=
  if item.checked then some item.id else none

/-- `mergeActiveOrder`. A gap for which the queue has nothing is filled with `''`. -/
def mergeActiveOrder (items : List ListItem) (activeIds : List String) : Option (List String) :=
  let (merged, queue) := Gaps.fill ListItem.keeps "" items activeIds
  if queue ≠ [] ∨ "" ∈ merged then none else some merged

/-- What `handleReorder` does: it asks for an order, or says that the list has changed and
fetches it. -/
inductive Drop
  | reorderListItems (orderedIds : List String)
  | refetch

/-- `handleReorder`. -/
def handleReorder (pileEnabled : Bool) (detail : Option (List ListItem))
    (orderedIds : List String) : Option Drop :=
  detail.map fun items =>
    if !pileEnabled then .reorderListItems orderedIds
    else
      match mergeActiveOrder items orderedIds with
      | some merged => .reorderListItems merged
      | none => .refetch

def ids (items : List ListItem) : List String := items.map ListItem.id

/-- The ids in the active zone. -/
def activeIds (items : List ListItem) : List String := ids (partitionItems items).active

/-- The ids in the pile. -/
def pileIds (items : List ListItem) : List String := ids (partitionItems items).pile

/-! ## What a drag should yield -/

/-- An order of all items in which the checked ones have their index and the unchecked
ones come as they were dragged. -/
structure Rearranged (items : List ListItem) (dragged order : List String) : Prop where
  perm : order.Perm (ids items)
  keeps : ∀ (index : Nat) item, items[index]? = some item → item.checked = true →
    order[index]? = some item.id
  inOrder : order.filter (fun id => decide (id ∈ activeIds items)) = dragged

/-- A drag of precisely the unchecked items rearranges, and any other is refused. -/
def RearrangesOrRefuses (items : List ListItem) (dragged : List String)
    (result : Option (List String)) : Prop :=
  (dragged.Perm (activeIds items) → ∃ order, result = some order ∧
    Rearranged items dragged order) ∧
  (¬ dragged.Perm (activeIds items) → result = none)

/-- The items dragged are the unchecked ones, or their number differs. An id that is `''`
passes for a gap that was not filled. -/
def Recognised (items : List ListItem) (dragged : List String) : Prop :=
  if dragged.Perm (activeIds items) then "" ∉ ids items
  else dragged.length ≠ (activeIds items).length ∨ "" ∈ pileIds items ∨ "" ∈ dragged

/-! ## What it yields -/

variable {items : List ListItem} {dragged order : List String}

theorem filterMap_keeps (items : List ListItem) :
    items.filterMap ListItem.keeps = pileIds items := by
  induction items with
  | nil => rfl
  | cons item rest ih =>
      rw [pileIds, ids, partitionItems] at ih ⊢
      cases checked : item.checked <;> simp [ListItem.keeps, checked, ih]

theorem count_keeps (items : List ListItem) :
    Gaps.count ListItem.keeps items = (activeIds items).length := by
  induction items with
  | nil => rfl
  | cons item rest ih =>
      cases checked : item.checked <;>
        simp_all [Gaps.count, activeIds, ids, partitionItems, ListItem.keeps]

/-- The zones share the items out. -/
theorem perm_ids (items : List ListItem) : (pileIds items ++ activeIds items).Perm (ids items) := by
  have split := (List.filter_append_perm ListItem.checked items).map ListItem.id
  rwa [List.map_append] at split

theorem not_mem_activeIds (distinct : (ids items).Nodup) {id : String}
    (inPile : id ∈ pileIds items) : id ∉ activeIds items := by
  have disjoint := List.disjoint_of_nodup_append ((perm_ids items).nodup_iff.mpr distinct)
  exact fun inActive => disjoint inPile inActive

/-- **The page merges an order** when the numbers agree and no id is `''`. -/
theorem mergeActiveOrder_eq_some_iff :
    mergeActiveOrder items dragged = some order ↔
      dragged.length = (activeIds items).length ∧ "" ∉ pileIds items ∧ "" ∉ dragged ∧
        order = (Gaps.fill ListItem.keeps "" items dragged).1 := by
  have left := Gaps.fill_left ListItem.keeps "" items dragged
  rw [mergeActiveOrder]
  dsimp only
  rw [left, Option.ite_none_left_eq_some, not_or, not_ne_iff, List.drop_eq_nil_iff, count_keeps,
    Option.some_inj]
  constructor
  · rintro ⟨⟨within, full⟩, rfl⟩
    have enough : dragged.length = (activeIds items).length := by
      refine Nat.le_antisymm within (Nat.le_of_not_lt fun short => full ?_)
      exact Gaps.blank_mem_fill (by rwa [count_keeps])
    have filled := Gaps.fill_perm_of_length "" (enough.trans (count_keeps items).symm)
    rw [filled.mem_iff, filterMap_keeps, List.mem_append, not_or] at full
    exact ⟨enough, full.1, full.2, rfl⟩
  · rintro ⟨enough, notInPile, notDragged, rfl⟩
    have filled := Gaps.fill_perm_of_length "" (enough.trans (count_keeps items).symm)
    refine ⟨⟨Nat.le_of_eq enough, ?_⟩, rfl⟩
    rw [filled.mem_iff, filterMap_keeps, List.mem_append, not_or]
    exact ⟨notInPile, notDragged⟩

theorem notKept_of_distinct (distinct : (ids items).Nodup) :
    ∀ item ∈ items, ∀ id, item.keeps = some id → decide (id ∈ activeIds items) = false := by
  intro item member id keeps
  have inPile : id ∈ pileIds items := by
    rw [← filterMap_keeps]
    exact List.mem_filterMap.mpr ⟨item, member, keeps⟩
  exact decide_eq_false (not_mem_activeIds distinct inPile)

/-- A drag of the unchecked items rearranges them among the others. -/
theorem rearranged_of_perm (distinct : (ids items).Nodup)
    (same : dragged.Perm (activeIds items)) :
    Rearranged items dragged (Gaps.fill ListItem.keeps "" items dragged).1 := by
  have enough : dragged.length = Gaps.count ListItem.keeps items :=
    same.length_eq.trans (count_keeps items).symm
  refine ⟨?_, ?_, ?_⟩
  · refine (Gaps.fill_perm_of_length "" enough).trans ?_
    rw [filterMap_keeps]
    exact (same.append_left _).trans (perm_ids items)
  · intro index item here checked
    exact Gaps.fill_getElem?_of_kept here (if_pos checked)
  · refine Gaps.fill_filter _ (notKept_of_distinct distinct) (fun id member => ?_) enough
    exact decide_eq_true (same.subset member)

/-- **A drag is recognised** exactly under the condition: where as many rows came into the
active zone as left it, the ids that are dragged go into places of other items. -/
theorem rearrangesOrRefuses_iff (distinct : (ids items).Nodup) (dragged : List String) :
    RearrangesOrRefuses items dragged (mergeActiveOrder items dragged) ↔
      Recognised items dragged := by
  have blanks : "" ∈ ids items ↔ "" ∈ pileIds items ∨ "" ∈ activeIds items :=
    (perm_ids items).mem_iff.symm.trans List.mem_append
  rw [RearrangesOrRefuses, Recognised]
  split_ifs with same
  · rw [blanks, not_or, ← same.mem_iff]
    constructor
    · rintro ⟨rearranges, -⟩
      obtain ⟨order, merged, -⟩ := rearranges same
      obtain ⟨-, notInPile, notDragged, -⟩ := mergeActiveOrder_eq_some_iff.mp merged
      exact ⟨notInPile, notDragged⟩
    · rintro ⟨notInPile, notDragged⟩
      refine ⟨fun _ => ⟨_, ?_, rearranged_of_perm distinct same⟩, fun differs =>
        absurd same differs⟩
      exact mergeActiveOrder_eq_some_iff.mpr ⟨same.length_eq, notInPile, notDragged, rfl⟩
  · rw [Option.eq_none_iff_forall_ne_some]
    constructor
    · rintro ⟨-, refuses⟩
      by_contra! unrecognised
      obtain ⟨enough, notInPile, notDragged⟩ := unrecognised
      exact refuses same _ (mergeActiveOrder_eq_some_iff.mpr ⟨enough, notInPile, notDragged, rfl⟩)
    · intro recognised
      refine ⟨fun perm => absurd perm same, fun _ order merged => ?_⟩
      obtain ⟨enough, notInPile, notDragged, -⟩ := mergeActiveOrder_eq_some_iff.mp merged
      rcases recognised with differs | inPile | inDrag
      · exact differs enough
      · exact notInPile inPile
      · exact notDragged inDrag

/-- A drag among a checked item. -/
theorem rearrangesOrRefuses_drag :
    RearrangesOrRefuses [⟨"a", false⟩, ⟨"b", true⟩, ⟨"c", false⟩, ⟨"d", false⟩] ["d", "a", "c"]
      (mergeActiveOrder [⟨"a", false⟩, ⟨"b", true⟩, ⟨"c", false⟩, ⟨"d", false⟩] ["d", "a", "c"]) :=
  (rearrangesOrRefuses_iff (by decide) ["d", "a", "c"]).mpr (by
    rw [Recognised, if_pos (by decide)]
    decide)

/-- `a` was checked and `c` unchecked while `b` was dragged above `a`: `a` is merged twice. -/
theorem merges_a_stale_drag :
    ¬ ∀ items dragged, (ids items).Nodup → dragged.Nodup →
      RearrangesOrRefuses items dragged (mergeActiveOrder items dragged) := by
  intro recognises
  have refuses := (recognises [⟨"a", true⟩, ⟨"b", false⟩, ⟨"c", false⟩] ["b", "a"] (by decide)
    (by decide)).2 (by decide)
  have merges : mergeActiveOrder [⟨"a", true⟩, ⟨"b", false⟩, ⟨"c", false⟩] ["b", "a"] =
    some ["a", "b", "a"] := by decide
  rw [merges] at refuses
  cases refuses

/-- **What the server will see.** An order that is merged is one of the list's items only
if the unchecked ones were dragged. -/
theorem merged_perm_iff (merged : mergeActiveOrder items dragged = some order) :
    order.Perm (ids items) ↔ dragged.Perm (activeIds items) := by
  obtain ⟨enough, -, -, rfl⟩ := mergeActiveOrder_eq_some_iff.mp merged
  have filled := Gaps.fill_perm_of_length "" (enough.trans (count_keeps items).symm)
  rw [filterMap_keeps] at filled
  constructor
  · intro perm
    exact (List.perm_append_left_iff _).mp (filled.symm.trans (perm.trans (perm_ids items).symm))
  · intro same
    exact filled.trans ((same.append_left _).trans (perm_ids items))

/-- With the pile shown, the page asks only for what the drag made of the list, where the
drag is recognised. -/
theorem handleReorder_rearranges (distinct : (ids items).Nodup)
    (recognised : Recognised items dragged)
    (asks : handleReorder true (some items) dragged = some (.reorderListItems order)) :
    Rearranged items dragged order := by
  rw [handleReorder, Option.map_some] at asks
  cases merged : mergeActiveOrder items dragged with
  | none => simp [merged] at asks
  | some found =>
      obtain rfl : found = order := by simpa [merged] using asks
      obtain ⟨enough, notInPile, notDragged, rfl⟩ := mergeActiveOrder_eq_some_iff.mp merged
      rw [Recognised] at recognised
      split_ifs at recognised with same
      · exact rearranged_of_perm distinct same
      · rcases recognised with differs | inPile | inDrag
        · exact absurd enough differs
        · exact absurd inPile notInPile
        · exact absurd inDrag notDragged

end FrontDashboard.Lists.CheckedPile
