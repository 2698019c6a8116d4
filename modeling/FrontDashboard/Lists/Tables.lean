import FrontDashboard.Lists.ManualOrder
import FrontDashboard.Lists.Page

/-! # The lists of the server

The tables `lists` and `list_items`, the routes that the page's nine mutations of lists
call, and what the GETs that fill the caches may answer.
-/

namespace FrontDashboard.Lists.Page

open Calendar (HttpError unprocessable internalError thousands)
open FrontDashboard.Membership (EffectiveRole)
open Access (canEdit)

/-- A row of `lists`. -/
structure ListRow where
  id : ListId
  dashboardId : DashboardId
  name : String
  listType : ListType
  sortOrder : Nat
  createdBy : UserId
  createdAt : Nat
  updatedAt : Nat
  deletedAt : Option Nat

/-- The row sorts strictly before the other. -/
def ListRow.Before (row other : ListRow) : Prop :=
  row.sortOrder < other.sortOrder ∨
    row.sortOrder = other.sortOrder ∧ row.createdAt < other.createdAt

instance : DecidableRel ListRow.Before := fun row other =>
  inferInstanceAs (Decidable (row.sortOrder < other.sortOrder ∨
    row.sortOrder = other.sortOrder ∧ row.createdAt < other.createdAt))

/-- `_list_response`. -/
def ListRow.response (row : ListRow) (itemCount : Nat) : ListSummary :=
  ⟨row.id, row.dashboardId, row.name, row.listType, row.sortOrder, row.createdBy, row.createdAt,
    row.updatedAt, itemCount⟩

structure Tables where
  lists : List ListRow
  items : ListId → List Row

namespace Tables

/-- The lists of a dashboard that are not in the trash. -/
def live (dashboardId : DashboardId) (tables : Tables) : List ListRow :=
  tables.lists.filter fun row => row.dashboardId = dashboardId ∧ row.deletedAt = none

/-- How many items a list has. -/
def itemCount (listId : ListId) (tables : Tables) : Nat := (tables.items listId).length

/-- What `list_lists` may answer for one dashboard. -/
def GetLists (dashboardId : DashboardId) (tables : Tables) (answer : List ListSummary) : Prop :=
  ∃ rows, OrderedBy ListRow.Before (tables.live dashboardId) rows ∧
    answer = rows.map fun row => row.response (tables.itemCount row.id)

/-- What `get_list` may answer. -/
def GetDetail (listId : ListId) (tables : Tables) (answer : ListDetail) : Prop :=
  ∃ row ∈ tables.lists, row.id = listId ∧ row.deletedAt = none ∧
    ∃ items, GetList (tables.items listId) items ∧
      answer = { row.response items.length with items := items }

/-- What `list_list_details` may answer. -/
def GetListDetails (dashboardId : DashboardId) (tables : Tables) (answer : List ListDetail) :
    Prop :=
  ∃ rows, OrderedBy ListRow.Before (tables.live dashboardId) rows ∧
    List.Forall₂ (fun row detail => tables.GetDetail row.id detail) rows answer

/-- The row of a list, in the trash or not. -/
def row? (trashed : Bool) (id : ListId) (tables : Tables) : Option ListRow :=
  tables.lists.find? fun row => row.id = id ∧ row.deletedAt.isSome = trashed

/-- An update of one row. -/
def replace (updated : ListRow) (tables : Tables) : Tables :=
  { tables with lists := tables.lists.map fun row => if row.id = updated.id then updated else row }

/-- The rows of one list's items set. -/
def setItems (listId : ListId) (rows : List Row) (tables : Tables) : Tables :=
  { tables with items := Function.update tables.items listId rows }

end Tables

/-! ## The routes -/

structure ListSettings extends ItemSettings where
  quotaListsPerUser : Nat
  quotaListsPerDashboard : Nat

/-- The member who calls, as `load_dashboard_access` finds them, and the lists they created,
those in the trash among them. -/
structure ListCaller where
  role : EffectiveRole
  listCount : Nat

/-- The member who calls, on a list or an order that is there. `wrote` holds of the lists whose
`updated_by` they are already. -/
structure ListEditor where
  role : EffectiveRole
  wrote : ListId → Bool

/-- The `updated_at` of a row that the member writes: the row is updated only if one of its
columns changes, `updated_by` among them. -/
def ListEditor.stamp (caller : ListEditor) (row : ListRow) (unchanged : Bool) (now : Nat) : Nat :=
  if unchanged && caller.wrote row.id then row.updatedAt else now

def listNotFound : HttpError := ⟨404, "List not found"⟩

def listsChanged : HttpError := ⟨409, "Lists changed, please retry"⟩

/-- `limit_message`, where the trash keeps its space. -/
def purgeMessage (noun : String) (cap : Nat) : String :=
  "You have reached the limit of " ++ thousands cap ++ " " ++ noun ++
    ". Delete some to make room — anything already in the trash keeps its space until you " ++
      "delete it permanently."

/-- A mutation by the page, with what the server adds to it: who calls, new ids and times. -/
inductive Mutation
  | createList (caller : ListCaller) (userId : UserId) (name : String) (listType : ListType)
      (dashboardId : DashboardId) (id : ListId) (now : Nat)
  | updateListName (caller : ListEditor) (id : ListId) (name : String) (now : Nat)
  | deleteList (caller : ListEditor) (id : ListId) (now : Nat)
  | restoreList (caller : ListEditor) (id : ListId) (dashboardId : DashboardId) (now : Nat)
  | reorderLists (caller : ListEditor) (dashboardId : DashboardId) (orderedIds : List ListId)
      (now : Nat)
  | addListItem (caller : ItemCaller) (listId : ListId) (text : String) (id : ItemId) (now : Nat)
  | updateListItem (caller : ItemCaller) (listId : ListId) (itemId : ItemId) (body : ListItemUpdate)
  | deleteListItem (caller : ItemCaller) (listId : ListId) (itemId : ItemId)
  | reorderListItems (caller : ItemCaller) (listId : ListId) (orderedIds : List ItemId)

inductive Response
  | list (list : ListSummary)
  | item (item : ListItem)
  | noContent

/-- The `sort_order` of a row that is appended: `(max or -1) + 1`. -/
def appendOrder (orders : List Nat) : Nat :=
  match orders.max? with
  | some (order + 1) => order + 2
  | _ => 0

/-- The row that `create_list` adds. -/
def Tables.created (userId : UserId) (name : String) (listType : ListType)
    (dashboardId : DashboardId) (id : ListId) (now : Nat) (tables : Tables) : ListRow :=
  ⟨id, dashboardId, name, listType,
    appendOrder ((tables.live dashboardId).map ListRow.sortOrder), userId, now, now, none⟩

/-- Whether two lists of ids have the same ids. -/
def sameIds (first second : List Nat) : Bool :=
  first.all (· ∈ second) && second.all (· ∈ first)

/-- The lists of a dashboard numbered in the order of their ids. -/
def Tables.renumberLists (dashboardId : DashboardId) (orderedIds : List ListId)
    (stamp : ListRow → Nat) (tables : Tables) : Tables :=
  { tables with
    lists := tables.lists.map fun row =>
      if row.dashboardId = dashboardId ∧ row.deletedAt = none then
        { row with sortOrder := orderedIds.idxOf row.id, updatedAt := stamp row }
      else row }

/-- The request on the items of a list that is not in the trash. -/
def Tables.serveItem (settings : ItemSettings) (listId : ListId) (request : ItemRequest)
    (tables : Tables) : Except HttpError Tables :=
  match tables.row? false listId with
  | none => .error listNotFound
  | some _ => (Lists.serveItem settings request (tables.items listId)).map fun rows =>
      tables.setItems listId rows

/-- `_item_response`, of an item that was written. -/
def Tables.itemResponse (listId : ListId) (itemId : ItemId) (tables : Tables) : Response :=
  match (tables.items listId).find? fun row => row.item.id = itemId with
  | some row => .item row.item
  | none => .noContent

variable (settings : ListSettings)

/-- The response and the tables after a mutation, or its refusal. -/
def serve : Mutation → Tables → Except HttpError (Response × Tables)
  | .createList caller userId name listType dashboardId id now, tables =>
      let row := tables.created userId name listType dashboardId id now
      if ¬ canEdit caller.role then .error editorAccessRequired
      else if settings.quotaListsPerUser ≤ caller.listCount then
        .error (unprocessable (purgeMessage "lists" settings.quotaListsPerUser))
      else if settings.quotaListsPerDashboard ≤
          (tables.lists.filter fun row => row.dashboardId = dashboardId).length then
        .error (unprocessable
          (purgeMessage "lists on this dashboard" settings.quotaListsPerDashboard))
      else if maxInteger < row.sortOrder ∨ id ∈ tables.lists.map ListRow.id then
        .error internalError
      else .ok (.list (row.response 0), { tables with lists := tables.lists ++ [row] })
  | .updateListName caller id name now, tables =>
      match tables.row? false id with
      | none => .error listNotFound
      | some row =>
          if ¬ canEdit caller.role then .error editorAccessRequired
          else
            let updated :=
              { row with name := name, updatedAt := caller.stamp row (row.name == name) now }
            .ok (.list (updated.response (tables.itemCount id)), tables.replace updated)
  | .deleteList caller id now, tables =>
      match tables.row? false id with
      | none => .error listNotFound
      | some row =>
          if ¬ canEdit caller.role then .error editorAccessRequired
          else .ok (.noContent, tables.replace { row with deletedAt := some now, updatedAt := now })
  | .restoreList caller id _ now, tables =>
      match tables.row? true id with
      | none => .error listNotFound
      | some row =>
          if ¬ canEdit caller.role then .error editorAccessRequired
          else
            let updated := { row with deletedAt := none, updatedAt := now }
            .ok (.list (updated.response (tables.itemCount id)), tables.replace updated)
  | .reorderLists caller dashboardId orderedIds now, tables =>
      if ¬ orderedIds.Nodup ∨ orderedIds = [] ∨ 1000 < orderedIds.length then
        .error (unprocessable "ids must be unique")
      else if ¬ canEdit caller.role then .error editorAccessRequired
      else if ¬ sameIds orderedIds ((tables.live dashboardId).map ListRow.id) then
        .error listsChanged
      else .ok (.noContent, tables.renumberLists dashboardId orderedIds fun row =>
        caller.stamp row (row.sortOrder == orderedIds.idxOf row.id) now)
  | .addListItem caller listId text id now, tables =>
      match tables.serveItem settings.toItemSettings listId
        (.create caller (.ofText text) id now) with
      | .error refusal => .error refusal
      | .ok next =>
          if ∃ row ∈ tables.lists, id ∈ ids (shown (tables.items row.id)) then .error internalError
          else .ok (next.itemResponse listId id, next)
  | .updateListItem caller listId itemId body, tables =>
      (tables.serveItem settings.toItemSettings listId (.update caller itemId body)).map
        fun next => (next.itemResponse listId itemId, next)
  | .deleteListItem caller listId itemId, tables =>
      (tables.serveItem settings.toItemSettings listId (.delete caller itemId)).map
        fun next => (.noContent, next)
  | .reorderListItems caller listId orderedIds, tables =>
      match ItemReorder.validate orderedIds with
      | none => .error (unprocessable "ids must be unique")
      | some body =>
          (tables.serveItem settings.toItemSettings listId (.reorder caller body)).map
            fun next => (.noContent, next)

/-- What the page does with its caches for a mutation that succeeds. The reorders patch
before their request. -/
def Mutation.patch (today : Nat) : Mutation → Response → Caches → Caches
  | .createList .., .list list, caches => caches.applyCreatedList list
  | .updateListName _ id _ _, .list updated, caches => caches.updateListName id updated
  | .deleteList _ id _, .noContent, caches => caches.deleteList id
  | .restoreList _ id dashboardId _, .list restored, caches =>
      caches.restoreList id dashboardId restored
  | .reorderLists _ dashboardId orderedIds _, .noContent, caches =>
      caches.reorderLists dashboardId orderedIds
  | .addListItem _ listId _ _ _, .item item, caches => caches.addListItem today listId item
  | .updateListItem _ listId itemId _, .item item, caches =>
      caches.updateListItem today listId itemId item
  | .deleteListItem _ listId itemId, .noContent, caches => caches.deleteListItem listId itemId
  | .reorderListItems _ listId orderedIds, .noContent, caches =>
      caches.reorderListItems listId orderedIds
  | _, _, caches => caches

end FrontDashboard.Lists.Page
