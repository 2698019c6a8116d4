import FrontDashboard.Library.KeyedRows
import FrontDashboard.Lists.Aspects
import FrontDashboard.Lists.ItemRoutes

/-! # Manual order

The order of a list's items refines a plain list of items: creation appends,
deletion removes in place, an update patches in place and a reorder arranges as it
was asked. Between the table and the plain list stand the rows in display order,
which the routes change as `get_list` would read them again.
-/

namespace FrontDashboard.Lists

/-! ## The plain list -/

/-- The items in a submitted order. -/
def arranged (items : List ListItem) (itemIds : List ItemId) : List ListItem :=
  itemIds.filterMap fun itemId => items.find? fun item => item.id = itemId

/-- What an accepted request does to the list it means to edit. -/
def ItemRequest.apply : ItemRequest → List ListItem → List ListItem
  | .create _ body id _, items => items ++ [⟨id, body.values⟩]
  | .update _ target body, items =>
      items.map fun item => if item.id = target then item.patch body else item
  | .delete _ target, items => items.filter fun item => item.id ≠ target
  | .reorder _ body, items => arranged items body.itemIds

/-- Lists of the same items are equal when their ids are. -/
theorem eq_of_ids {items first second : List ListItem} (unique : (ids items).Nodup)
    (fromItems : ∀ item ∈ first, item ∈ items) (alsoFrom : ∀ item ∈ second, item ∈ items)
    (same : ids first = ids second) : first = second :=
  Reorder.eq_of_keys unique fromItems alsoFrom same

theorem ids_arranged {items : List ListItem} {itemIds : List ItemId}
    (present : ∀ itemId ∈ itemIds, itemId ∈ ids items) :
    ids (arranged items itemIds) = itemIds := by
  induction itemIds with
  | nil => rfl
  | cons itemId rest ih =>
      have later := ih fun other member => present other (List.mem_cons_of_mem _ member)
      obtain ⟨item, member, named⟩ := List.mem_map.mp (present itemId List.mem_cons_self)
      cases found : items.find? fun item => decide (item.id = itemId) with
      | none =>
          rw [List.find?_eq_none] at found
          exact absurd (decide_eq_true named) (found item member)
      | some other =>
          have sameId : other.id = itemId := by simpa using List.find?_some found
          rw [arranged, List.filterMap_cons, found]
          simp only [List.map_cons]
          rw [sameId]
          exact congrArg (itemId :: ·) later

theorem mem_of_mem_arranged {items : List ListItem} {itemIds : List ItemId} {item : ListItem}
    (member : item ∈ arranged items itemIds) : item ∈ items := by
  obtain ⟨itemId, -, found⟩ := List.mem_filterMap.mp member
  exact List.mem_of_find?_eq_some found

/-! ## The rows in display order -/

/-- Where ids are distinct, the row of an id is the one that is found. -/
theorem find?_row {rows : List Row} (unique : (ids (shown rows)).Nodup) {itemId : ItemId}
    {row : Row} : (rows.find? fun row => row.item.id = itemId) = some row ↔
      row ∈ rows ∧ row.item.id = itemId := by
  have distinct : (rows.map fun row => row.item.id).Nodup := by
    rw [ids, List.map_map] at unique
    exact unique
  simpa using KeyedRows.find?_eq_some_iff distinct fun other named => of_decide_eq_true named

theorem ids_perm {rows others : List Row} (same : rows.Perm others) :
    (ids (shown rows)).Perm (ids (shown others)) :=
  (same.map Row.item).map ListItem.id

theorem find?_congr {rows others : List Row} (unique : (ids (shown rows)).Nodup)
    (same : rows.Perm others) (itemId : ItemId) :
    (rows.find? fun row => row.item.id = itemId) =
      others.find? fun row => row.item.id = itemId := by
  have distinct : (rows.map fun row => row.item.id).Nodup := by
    rw [ids, List.map_map] at unique
    exact unique
  exact KeyedRows.find?_of_perm distinct same fun other named => of_decide_eq_true named

theorem renumber_congr {rows others : List Row} (unique : (ids (shown rows)).Nodup)
    (same : rows.Perm others) (itemIds : List ItemId) :
    renumber rows itemIds = renumber others itemIds := by
  unfold renumber
  simp only [find?_congr unique same]

/-- Renumbered rows are in the order of their numbers. -/
theorem renumber_strictly (rows : List Row) (itemIds : List ItemId) :
    (renumber rows itemIds).Pairwise Row.Before := by
  have positions : itemIds.zipIdx.Pairwise fun first second => first.2 < second.2 := by
    rw [← List.pairwise_map (f := Prod.snd) (R := (· < ·))]
    simpa using List.pairwise_lt_range'
  rw [renumber, List.pairwise_filterMap]
  apply positions.imp
  intro first second less row found other foundOther
  obtain ⟨_, _, rfl⟩ := Option.map_eq_some_iff.mp found
  obtain ⟨_, _, rfl⟩ := Option.map_eq_some_iff.mp foundOther
  exact .inl less

/-- A request on the rows in display order. -/
def ItemRequest.display : ItemRequest → List Row → List Row
  | .create _ body id createdAt, rows => createItem ⟨id, body.values⟩ createdAt rows
  | .update _ target body, rows =>
      match rows.find? fun row => row.item.id = target with
      | none => rows
      | some row => updateItem target body row.item.values rows
  | .delete _ target, rows => deleteItem target rows
  | .reorder _ body, rows => renumber rows body.itemIds

/-- **The rows in display order go along.** Whatever order the table is in, and also where
rows tie, a request does to the rows as they are read what it does to the table. -/
theorem display_served {request : ItemRequest} {rows next answer : List Row}
    (unique : (ids (shown rows)).Nodup) (answers : OrderedBy Row.Before rows answer)
    (served : Served rows request next) :
    OrderedBy Row.Before next (request.display answer) := by
  cases served with
  | created =>
      rw [ItemRequest.display, createItem, nextOrder_congr answers.perm]
      exact answers.insert Row.Before.asymm Row.Before.between _
  | updated found =>
      rw [find?_congr unique answers.perm.symm] at found
      rw [ItemRequest.display, found]
      apply answers.map
      intro first second before
      unfold Row.Before at *
      split_ifs at before <;> exact before
  | deleted => exact answers.filter _
  | reordered =>
      rw [ItemRequest.display, renumber_congr unique answers.perm.symm]
      exact ⟨.refl _, (renumber_strictly answer _).imp (Row.Before.asymm _ _)⟩

/-! ## The refinement -/

/-- The table stands for the list: it has one display order, and shows the list's items
in it. -/
structure Represents (rows : List Row) (items : List ListItem) (answer : List Row) : Prop where
  answers : OrderedBy Row.Before rows answer
  strictly : answer.Pairwise Row.Before
  shows : shown answer = items
  unique : (ids items).Nodup

namespace Represents

variable {rows next answer : List Row} {items : List ListItem} {request : ItemRequest}

theorem unique_rows (represents : Represents rows items answer) : (ids (shown rows)).Nodup := by
  apply (ids_perm represents.answers.perm).nodup_iff.mp
  rw [represents.shows]
  exact represents.unique

/-- What `get_list` answers is the list. -/
theorem getList (represents : Represents rows items answer) {listed : List ListItem}
    (reads : GetList rows listed) : listed = items := by
  obtain ⟨other, answers, rfl⟩ := reads
  rw [answers.unique Row.Before.asymm represents.strictly represents.answers.perm]
  exact represents.shows

/-- The rows in display order change as the list does, and no two of them tie. -/
theorem display (represents : Represents rows items answer) (served : Served rows request next)
    (later : ∀ createdAt ∈ request.createdAt?, ∀ row ∈ rows, row.createdAt < createdAt) :
    (request.display answer).Pairwise Row.Before ∧
      shown (request.display answer) = request.apply items := by
  have perm := represents.answers.perm
  cases served with
  | @created _ body id createdAt fresh =>
      have last : ∀ row ∈ answer, row.Before ⟨⟨id, body.values⟩, nextOrder answer, createdAt⟩ := by
        intro row member
        exact before_created member (later createdAt rfl row (perm.mem_iff.mp member)) _
      rw [ItemRequest.display, createItem, OrderedBy.orderedInsert_eq_append
        fun row member => Row.Before.asymm _ _ (last row member)]
      rw [List.pairwise_append, ItemRequest.apply, ← represents.shows]
      exact ⟨⟨represents.strictly, List.pairwise_singleton _ _, by simpa using last⟩, by simp⟩
  | @updated _ target body row found =>
      have unique := (ids_perm perm).nodup_iff.mpr represents.unique_rows
      rw [find?_congr represents.unique_rows perm.symm] at found
      rw [ItemRequest.display, found]
      dsimp only
      obtain ⟨member, named⟩ := (find?_row unique).mp found
      have current : (Write.update target body row.item.values).Current (shown answer) := by
        intro item shownItem sameId column value _ same
        have sameItem : item = row.item := by
          apply List.inj_on_of_nodup_map unique shownItem (List.mem_map_of_mem member)
          exact sameId.trans named.symm
        rw [sameItem, same]
      rw [shown_updateItem current, represents.shows]
      apply And.intro _ rfl
      rw [updateItem, List.pairwise_map]
      apply represents.strictly.imp
      intro first second before
      unfold Row.Before at *
      split_ifs <;> exact before
  | deleted =>
      rw [ItemRequest.display, shown_deleteItem, represents.shows]
      exact ⟨represents.strictly.filter _, rfl⟩
  | @reordered _ body present whole =>
      have sameIds := ids_perm perm
      have named : ∀ itemId ∈ body.itemIds, itemId ∈ ids (shown answer) := fun itemId member =>
        sameIds.mem_iff.mpr (present itemId member)
      apply And.intro (renumber_strictly answer body.itemIds)
      rw [ItemRequest.apply, ← represents.shows]
      apply eq_of_ids (represents.shows ▸ represents.unique) (fun item => mem_renumber)
        (fun item => mem_of_mem_arranged)
      rw [ids_arranged named]
      exact ids_renumber _ named

/-- The items keep distinct ids. -/
theorem unique_apply (represents : Represents rows items answer)
    (served : Served rows request next) : (ids (request.apply items)).Nodup := by
  have sameIds := ids_perm represents.answers.perm
  rw [represents.shows] at sameIds
  cases served with
  | created fresh =>
      rw [ItemRequest.apply, ids, List.map_append, List.nodup_append]
      refine ⟨represents.unique, List.nodup_singleton _, ?_⟩
      intro itemId member other added same
      rw [List.map_singleton, List.mem_singleton] at added
      rw [same, added] at member
      exact fresh (sameIds.mem_iff.mp member)
  | updated =>
      rw [ItemRequest.apply, ids_patched]
      exact represents.unique
  | deleted => exact represents.unique.sublist (List.filter_sublist.map _)
  | @reordered _ body present =>
      rw [ItemRequest.apply, ids_arranged fun itemId member =>
        sameIds.mem_iff.mpr (present itemId member)]
      exact body.nodup

/-- **A request serves the list.** -/
theorem serve (represents : Represents rows items answer) (served : Served rows request next)
    (later : ∀ createdAt ∈ request.createdAt?, ∀ row ∈ rows, row.createdAt < createdAt) :
    Represents next (request.apply items) (request.display answer) where
  answers := display_served represents.unique_rows represents.answers served
  strictly := (represents.display served later).1
  shows := (represents.display served later).2
  unique := represents.unique_apply served

end Represents

/-- A row after a request was there before, as old, or is the one it creates. -/
theorem Served.createdAt {rows next : List Row} {request : ItemRequest}
    (served : Served rows request next) {row : Row} (member : row ∈ next) :
    request.createdAt? = some row.createdAt ∨ ∃ old ∈ rows, old.createdAt = row.createdAt := by
  cases served with
  | created =>
      rcases List.mem_cons.mp member with rfl | member
      · exact .inl rfl
      · exact .inr ⟨row, member, rfl⟩
  | updated =>
      obtain ⟨old, present, rfl⟩ := List.mem_map.mp member
      refine .inr ⟨old, present, ?_⟩
      split_ifs <;> rfl
  | deleted => exact .inr ⟨row, (List.mem_filter.mp member).1, rfl⟩
  | reordered =>
      obtain ⟨_, _, found⟩ := List.mem_filterMap.mp member
      obtain ⟨old, sought, rfl⟩ := Option.map_eq_some_iff.mp found
      exact .inr ⟨old, List.mem_of_find?_eq_some sought, rfl⟩

variable {settings : ItemSettings}

theorem represents_serveItems {requests : List ItemRequest} {rows answer : List Row}
    {items : List ListItem} (represents : Represents rows items answer)
    (increasing : (createdTimes (serveItems settings requests rows).1).Pairwise (· < ·))
    (later : ∀ createdAt ∈ createdTimes (serveItems settings requests rows).1,
      ∀ row ∈ rows, row.createdAt < createdAt) :
    ∃ final, Represents (serveItems settings requests rows).2
      ((serveItems settings requests rows).1.foldl (fun items request => request.apply items) items)
      final := by
  induction requests generalizing rows answer items with
  | nil => exact ⟨answer, represents⟩
  | cons request rest ih =>
      rw [serveItems] at increasing later ⊢
      cases outcome : serveItem settings request rows with
      | error refused =>
          rw [outcome] at increasing later
          exact ih represents increasing later
      | ok next =>
          rw [outcome] at increasing later
          dsimp only at increasing later ⊢
          have served := Served.of_ok outcome
          have times : ∀ createdAt ∈ request.createdAt?, ∀ row ∈ rows,
            row.createdAt < createdAt := by
            intro createdAt creates
            apply later
            exact List.mem_filterMap.mpr ⟨request, List.mem_cons_self, creates⟩
          apply ih (represents.serve served times)
          · exact increasing.sublist ((List.sublist_cons_self ..).filterMap _)
          · intro createdAt creates row member
            rcases served.createdAt member with made | ⟨old, present, same⟩
            · rw [createdTimes, List.filterMap_cons_some made] at increasing
              exact (List.pairwise_cons.mp increasing).1 createdAt creates
            · rw [← same]
              apply later createdAt _ old present
              exact ((List.sublist_cons_self ..).filterMap _).mem creates

/-- **Manual order refines a list.** Provided the items get increasing `created_at`, what
`get_list` answers after any requests is what a list that appends, removes, patches and
arranges in place becomes under those that were accepted. -/
theorem manualOrder_refines (settings : ItemSettings) (requests : List ItemRequest)
    (increasing : (createdTimes (serveItems settings requests []).1).Pairwise (· < ·))
    (listed : List ListItem) (reads : GetList (serveItems settings requests []).2 listed) :
    listed = (serveItems settings requests []).1.foldl (fun items request => request.apply items)
      [] := by
  have empty : Represents [] [] [] := ⟨⟨.nil, .nil⟩, .nil, rfl, .nil⟩
  obtain ⟨final, represents⟩ := represents_serveItems empty increasing (by simp)
  exact represents.getList reads

/-- An item is created on an emptied list, on one whose orders are all 0, and after a
reorder. -/
def shoppingRequests : List ItemRequest :=
  let owner : ItemCaller := ⟨.owner, 0⟩
  [ .create owner (.ofText "bread") 1 10, .delete owner 1, .create owner (.ofText "milk") 2 20,
    .create owner (.ofText "eggs") 3 30, .create ⟨.viewer, 0⟩ (.ofText "beer") 4 35,
    .reorder owner ⟨[3, 2], by decide, by decide, by decide⟩, .create owner (.ofText "salt") 5 40,
    .delete owner 3, .create owner (.ofText "rice") 6 50 ]

theorem shoppingRequests_listed :
    let served := serveItems ⟨25000, 5000⟩ shoppingRequests []
    ids (shown (served.2.insertionSort Row.Before)) = [2, 5, 6] ∧
      shown (served.2.insertionSort Row.Before) =
        served.1.foldl (fun items request => request.apply items) [] :=
  ⟨by decide, manualOrder_refines _ _ (by decide) _ (getList_insertionSort _)⟩

end FrontDashboard.Lists
