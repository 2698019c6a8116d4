import FrontDashboard.Library.Outcomes
import FrontDashboard.Lists.Fresh

/-! # What a mutation that succeeds does

Each of the nine mutations, with its response, as a change of the tables.
-/

namespace FrontDashboard.Lists.Page

namespace Tables

variable {tables : Tables} {listId : ListId}

theorem of_row? {trashed : Bool} {row : ListRow} (found : tables.row? trashed listId = some row) :
    row ∈ tables.lists ∧ row.id = listId ∧ row.deletedAt.isSome = trashed := by
  have matched := List.find?_some found
  rw [decide_eq_true_eq] at matched
  exact ⟨List.mem_of_find?_eq_some found, matched⟩

theorem deletedAt_of_row? {row : ListRow} (found : tables.row? false listId = some row) :
    row.deletedAt = none := by
  simpa using (of_row? found).2.2

/-- A request on items that succeeds is one on a list that is not in the trash. -/
theorem of_serveItem {settings : ItemSettings} {request : ItemRequest} {next : Tables}
    (ok : tables.serveItem settings listId request = .ok next) :
    ∃ row rows, tables.row? false listId = some row ∧
      Lists.serveItem settings request (tables.items listId) = .ok rows ∧
        next = tables.setItems listId rows := by
  rw [Tables.serveItem] at ok
  split at ok
  next => cases ok
  next row found =>
    obtain ⟨rows, served, same⟩ := Outcomes.map_eq_ok.mp ok
    exact ⟨row, rows, found, served, same.symm⟩

@[simp] theorem setItems_items (rows : List Row) (other : ListId) :
    (tables.setItems listId rows).items other =
      if other = listId then rows else tables.items other := by
  simp [setItems, Function.update_apply]

@[simp] theorem setItems_lists (rows : List Row) :
    (tables.setItems listId rows).lists = tables.lists :=
  rfl

end Tables

/-- What a success of a mutation is. -/
inductive Carried (tables : Tables) : Mutation → Response → Tables → Prop
  | created {caller : ListCaller} {userId : UserId} {name : String} {listType : ListType}
      {dashboardId : DashboardId} {id : ListId} {now : Nat}
      (fresh : id ∉ tables.lists.map ListRow.id) :
      Carried tables (.createList caller userId name listType dashboardId id now)
        (.list ((tables.created userId name listType dashboardId id now).response 0))
        { tables with
          lists := tables.lists ++ [tables.created userId name listType dashboardId id now] }
  | renamed {caller : ListEditor} {id : ListId} {name : String} {now stamp : Nat} {row : ListRow}
      (found : tables.row? false id = some row)
      (isStamp : stamp = caller.stamp row (row.name == name) now) :
      Carried tables (.updateListName caller id name now)
        (.list (ListRow.response { row with name := name, updatedAt := stamp }
          (tables.itemCount id)))
        (tables.replace { row with name := name, updatedAt := stamp })
  | deleted {caller : ListEditor} {id : ListId} {now : Nat} {row : ListRow}
      (found : tables.row? false id = some row) :
      Carried tables (.deleteList caller id now) .noContent
        (tables.replace { row with deletedAt := some now, updatedAt := now })
  | restored {caller : ListEditor} {id : ListId} {dashboardId : DashboardId} {now : Nat}
      {row : ListRow} (found : tables.row? true id = some row) :
      Carried tables (.restoreList caller id dashboardId now)
        (.list (ListRow.response { row with deletedAt := none, updatedAt := now }
          (tables.itemCount id)))
        (tables.replace { row with deletedAt := none, updatedAt := now })
  | reordered {caller : ListEditor} {dashboardId : DashboardId}
      {orderedIds : List ListId} {now : Nat} (distinct : orderedIds.Nodup)
      (same : ∀ id, id ∈ orderedIds ↔ id ∈ (tables.live dashboardId).map ListRow.id) :
      Carried tables (.reorderLists caller dashboardId orderedIds now) .noContent
        (tables.renumberLists dashboardId orderedIds fun row =>
          caller.stamp row (row.sortOrder == orderedIds.idxOf row.id) now)
  | itemAdded {caller : ItemCaller} {listId : ListId} {text : String} {id : ItemId} {now : Nat}
      {row : ListRow} {rows : List Row} (found : tables.row? false listId = some row)
      (unused : ∀ other ∈ tables.lists, id ∉ ids (shown (tables.items other.id)))
      (served : Served (tables.items listId) (.create caller (.ofText text) id now) rows) :
      Carried tables (.addListItem caller listId text id now)
        (.item ⟨id, (ListItemCreate.ofText text).values⟩) (tables.setItems listId rows)
  | itemUpdated {caller : ItemCaller} {listId : ListId} {itemId : ItemId} {body : ListItemUpdate}
      {row : ListRow} {old : Row} {rows : List Row} (found : tables.row? false listId = some row)
      (foundItem : ((tables.items listId).find? fun row => row.item.id = itemId) = some old)
      (served : Served (tables.items listId) (.update caller itemId body) rows) :
      Carried tables (.updateListItem caller listId itemId body) (.item (old.item.patch body))
        (tables.setItems listId rows)
  | itemDeleted {caller : ItemCaller} {listId : ListId} {itemId : ItemId} {row : ListRow}
      {rows : List Row} (found : tables.row? false listId = some row)
      (present : itemId ∈ ids (shown (tables.items listId)))
      (served : Served (tables.items listId) (.delete caller itemId) rows) :
      Carried tables (.deleteListItem caller listId itemId) .noContent (tables.setItems listId rows)
  | itemsReordered {caller : ItemCaller} {listId : ListId} {body : ItemReorder} {row : ListRow}
      {rows : List Row} (found : tables.row? false listId = some row)
      (served : Served (tables.items listId) (.reorder caller body) rows) :
      Carried tables (.reorderListItems caller listId body.itemIds) .noContent
        (tables.setItems listId rows)

theorem mem_iff_of_sameIds {first second : List Nat} (same : sameIds first second = true)
    (id : Nat) : id ∈ first ↔ id ∈ second := by
  rw [sameIds, Bool.and_eq_true, List.all_eq_true, List.all_eq_true] at same
  constructor
  · exact fun member => of_decide_eq_true (same.1 id member)
  · exact fun member => of_decide_eq_true (same.2 id member)

variable {settings : ListSettings} {tables next : Tables} {mutation : Mutation}
  {response : Response}

/-- The item that a handler reads back is the one it wrote. -/
theorem itemResponse_updated {rows : List Row} {itemId : ItemId} {body : ListItemUpdate} {old : Row}
    {listId : ListId} (found : (rows.find? fun row => row.item.id = itemId) = some old) :
    (tables.setItems listId (updateItem itemId body old.item.values rows)).itemResponse listId
      itemId = .item (old.item.patch body) := by
  have named : old.item.id = itemId := by simpa using List.find?_some found
  have kept : ((updateItem itemId body old.item.values rows).find?
      fun row => row.item.id = itemId) =
        some { old with item := old.item.write body old.item.values } := by
    have sameTest : (fun row : Row => decide (row.item.id = itemId)) ∘
        (fun row => if row.item.id = itemId then
          { row with item := row.item.write body old.item.values } else row) =
        fun row => decide (row.item.id = itemId) := by
      funext row
      rw [Function.comp_apply]
      split_ifs with here
      · rfl
      · rfl
    rw [updateItem, List.find?_map, sameTest, found, Option.map_some, if_pos named]
  rw [Tables.itemResponse, Tables.setItems_items, if_pos rfl, kept]
  exact congrArg Response.item (write_eq_patch fun _ _ _ => Eq.symm)

/-- **Every success** is one of these. -/
theorem carried_of_ok (ok : serve settings mutation tables = .ok (response, next)) :
    Carried tables mutation response next := by
  cases mutation with
  | createList caller userId name listType dashboardId id now =>
      rw [serve] at ok
      split_ifs at ok with _ _ _ taken
      cases ok
      exact .created fun member => taken (.inr member)
  | updateListName caller id name now =>
      rw [serve] at ok
      split at ok
      next => cases ok
      next row found =>
        split_ifs at ok
        cases ok
        exact .renamed found rfl
  | deleteList caller id now =>
      rw [serve] at ok
      split at ok
      next => cases ok
      next row found =>
        split_ifs at ok
        cases ok
        exact .deleted found
  | restoreList caller id dashboardId now =>
      rw [serve] at ok
      split at ok
      next => cases ok
      next row found =>
        split_ifs at ok
        cases ok
        exact .restored found
  | reorderLists caller dashboardId orderedIds now =>
      rw [serve] at ok
      split_ifs at ok with invalid _ same
      cases ok
      rw [not_or, not_not] at invalid
      exact .reordered invalid.1 (mem_iff_of_sameIds same)
  | addListItem caller listId text id now =>
      rw [serve] at ok
      split at ok
      next => cases ok
      next after ran =>
        split_ifs at ok with taken
        obtain ⟨row, rows, found, served, rfl⟩ := Tables.of_serveItem ran
        cases ok
        have carried := Served.of_ok served
        cases carried with
        | created fresh =>
            rw [Tables.itemResponse, Tables.setItems_items, if_pos rfl, List.find?_cons]
            simp only [decide_true]
            exact .itemAdded found (fun other member used => taken ⟨other, member, used⟩)
              (.created fresh)
  | updateListItem caller listId itemId body =>
      obtain ⟨_, ran, same⟩ := Outcomes.map_eq_ok.mp ok
      obtain ⟨row, rows, found, served, rfl⟩ := Tables.of_serveItem ran
      cases same
      have carried := Served.of_ok served
      cases carried with
      | updated foundItem =>
          rw [itemResponse_updated foundItem]
          exact .itemUpdated found foundItem (.updated foundItem)
  | deleteListItem caller listId itemId =>
      obtain ⟨_, ran, same⟩ := Outcomes.map_eq_ok.mp ok
      obtain ⟨row, rows, found, served, rfl⟩ := Tables.of_serveItem ran
      cases same
      refine .itemDeleted found ?_ (Served.of_ok served)
      rw [Lists.serveItem] at served
      split_ifs at served with _ absent
      exact absent
  | reorderListItems caller listId orderedIds =>
      rw [serve] at ok
      split at ok
      next => cases ok
      next body valid =>
        obtain ⟨_, ran, same⟩ := Outcomes.map_eq_ok.mp ok
        obtain ⟨row, rows, found, served, rfl⟩ := Tables.of_serveItem ran
        cases same
        rw [ItemReorder.of_validate valid]
        exact .itemsReordered found (Served.of_ok served)

/-! ## Keys stay unique -/

theorem Tables.replace_ids (updated : ListRow) (tables : Tables) :
    (tables.replace updated).lists.map ListRow.id = tables.lists.map ListRow.id := by
  rw [Tables.replace, List.map_map]
  apply List.map_congr_left
  intro row _
  rw [Function.comp_apply]
  split_ifs with here
  · exact here.symm
  · rfl

theorem Tables.renumberLists_ids (dashboardId : DashboardId) (orderedIds : List ListId)
    (stamp : ListRow → Nat) (tables : Tables) :
    (tables.renumberLists dashboardId orderedIds stamp).lists.map ListRow.id =
      tables.lists.map ListRow.id := by
  rw [Tables.renumberLists, List.map_map]
  apply List.map_congr_left
  intro row _
  rw [Function.comp_apply]
  split_ifs <;> rfl

theorem ids_updateItem (itemId : ItemId) (body : ListItemUpdate) (loaded : Values)
    (rows : List Row) :
    ids (shown (updateItem itemId body loaded rows)) = ids (shown rows) := by
  rw [updateItem, ids, ids, List.map_map, List.map_map, List.map_map]
  apply List.map_congr_left
  intro row _
  simp only [Function.comp_apply]
  split_ifs <;> rfl

/-- A request on items keeps their ids distinct. -/
theorem unique_of_served {rows next : List Row} {request : ItemRequest}
    (served : Served rows request next) (distinct : (ids (shown rows)).Nodup) :
    (ids (shown next)).Nodup := by
  cases served with
  | created fresh => exact List.nodup_cons.mpr ⟨fresh, distinct⟩
  | updated =>
      rw [ids_updateItem]
      exact distinct
  | deleted =>
      rw [shown_deleteItem]
      exact distinct.sublist (List.filter_sublist.map _)
  | @reordered _ body present =>
      rw [ids_renumber _ present]
      exact body.nodup

/-- No id is new but the one that a creation gives. -/
theorem mem_ids_of_served {rows next : List Row} {request : ItemRequest}
    (served : Served rows request next) {itemId : ItemId} (member : itemId ∈ ids (shown next)) :
    itemId ∈ ids (shown rows) ∨
      ∃ caller body createdAt, request = .create caller body itemId createdAt := by
  cases served with
  | @created caller body id createdAt _ =>
      rcases List.mem_cons.mp member with rfl | old
      · exact .inr ⟨caller, body, createdAt, rfl⟩
      · exact .inl old
  | updated =>
      rw [ids_updateItem] at member
      exact .inl member
  | deleted =>
      rw [shown_deleteItem] at member
      exact .inl ((List.filter_sublist.map _).subset member)
  | reordered present =>
      rw [ids_renumber _ present] at member
      exact .inl (present itemId member)

namespace Tables.WellFormed

variable (wellFormed : tables.WellFormed)
include wellFormed

theorem of_lists {lists : List ListRow}
    (same : lists.map ListRow.id = tables.lists.map ListRow.id) :
    ({ tables with lists := lists } : Tables).WellFormed := by
  refine ⟨?_, wellFormed.itemsUnique, wellFormed.itemsApart, fun listId absent =>
    wellFormed.orphanless listId ?_⟩
  · exact same ▸ wellFormed.unique
  · exact same ▸ absent

/-- An item that is not used is on no list. -/
theorem not_mem_items {itemId : ItemId}
    (unused : ∀ row ∈ tables.lists, itemId ∉ ids (shown (tables.items row.id))) (listId : ListId) :
    itemId ∉ ids (shown (tables.items listId)) := by
  by_cases known : listId ∈ tables.lists.map ListRow.id
  · obtain ⟨row, member, rfl⟩ := List.mem_map.mp known
    exact unused row member
  · rw [wellFormed.orphanless listId known]
    exact List.not_mem_nil

theorem setItems {listId : ListId} {row : ListRow} {trashed : Bool} {request : ItemRequest}
    {rows : List Row} (found : tables.row? trashed listId = some row)
    (unused : ∀ caller body id createdAt, request = .create caller body id createdAt →
      ∀ other ∈ tables.lists, id ∉ ids (shown (tables.items other.id)))
    (served : Served (tables.items listId) request rows) :
    (tables.setItems listId rows).WellFormed := by
  obtain ⟨member, named, -⟩ := Tables.of_row? found
  have apart : ∀ other itemId, other ≠ listId → itemId ∈ ids (shown rows) →
      itemId ∉ ids (shown (tables.items other)) := by
    intro other itemId different new old
    rcases mem_ids_of_served served new with before | ⟨caller, body, createdAt, creates⟩
    · exact different (wellFormed.itemsApart other listId itemId old before)
    · exact wellFormed.not_mem_items (unused caller body itemId createdAt creates) other old
  refine ⟨wellFormed.unique, fun other => ?_, fun first second itemId here there => ?_,
    fun other absent => ?_⟩
  · rw [Tables.setItems_items]
    split_ifs
    · exact unique_of_served served (wellFormed.itemsUnique listId)
    · exact wellFormed.itemsUnique other
  · rw [Tables.setItems_items] at here there
    split_ifs at here there with atFirst atSecond atSecond
    · exact atFirst.trans atSecond.symm
    · exact absurd there (apart second itemId atSecond here)
    · exact absurd here (apart first itemId atFirst there)
    · exact wellFormed.itemsApart first second itemId here there
  · rw [Tables.setItems_items]
    split_ifs with here
    · subst here
      exact absurd (named ▸ List.mem_map_of_mem member) absent
    · exact wellFormed.orphanless other absent

theorem carried (carried : Carried tables mutation response next) : next.WellFormed := by
  cases carried with
  | created fresh =>
      refine ⟨?_, wellFormed.itemsUnique, wellFormed.itemsApart, fun listId absent =>
        wellFormed.orphanless listId ?_⟩
      · rw [List.map_append, List.map_singleton]
        exact List.nodup_append_comm.mp (List.nodup_cons.mpr ⟨fresh, wellFormed.unique⟩)
      · intro member
        rw [List.map_append, List.mem_append, not_or] at absent
        exact absent.1 member
  | renamed _ | deleted _ | restored _ => exact wellFormed.of_lists (Tables.replace_ids _ _)
  | reordered => exact wellFormed.of_lists (Tables.renumberLists_ids _ _ _ _)
  | itemAdded found unused served =>
      refine wellFormed.setItems found ?_ served
      intro _ _ _ _ creates
      cases creates
      exact unused
  | itemUpdated found _ served =>
      exact wellFormed.setItems found (fun _ _ _ _ creates => by cases creates) served
  | itemDeleted found _ served =>
      exact wellFormed.setItems found (fun _ _ _ _ creates => by cases creates) served
  | itemsReordered found served =>
      exact wellFormed.setItems found (fun _ _ _ _ creates => by cases creates) served

end Tables.WellFormed

end FrontDashboard.Lists.Page
