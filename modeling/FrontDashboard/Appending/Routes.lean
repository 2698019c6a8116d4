import FrontDashboard.Boards.Routes
import FrontDashboard.Library.Guarded
import FrontDashboard.Lists.Tables
import FrontDashboard.Membership.Routes

/-! # The routes that place lists and items

`create_item`, `reorder_items` and `delete_item`, `create_list`, `reorder_lists`,
`delete_list` and `restore_list`, and `add_widget`, each as the program of its database
statements. An update waits for the rows that it changes.
-/

namespace FrontDashboard.Appending

/-! ## The rows that carry a position

The lists of a dashboard and the items of a list, each with the `sort_order` that its
parent's rows are read by. Two columns are kept for the record: how often the rows of a
parent were moved, and what was known of each row that was appended.
-/

open Boards (DashboardId DashboardWidget Layout ListId ListType UserId)
open FrontDashboard.Membership (ResourceShare Time)

abbrev ItemId := Nat

structure Dashboard where
  id : DashboardId
  userId : UserId
  layout : Layout
  version : Int
  deletedAt : Option Time
  deriving DecidableEq

/-- A row of `lists`. -/
structure ListRow where
  id : ListId
  dashboardId : DashboardId
  listType : ListType
  sortOrder : Nat
  createdBy : UserId
  updatedBy : UserId
  deletedAt : Option Time
  deriving DecidableEq

/-- A row of `list_items`. -/
structure ItemRow where
  id : ItemId
  listId : ListId
  sortOrder : Nat
  createdBy : UserId
  updatedBy : UserId
  deriving DecidableEq

/-- What rows are appended to: lists to a dashboard, items to a list. -/
inductive Parent
  | dashboard (id : DashboardId)
  | list (id : ListId)
  deriving DecidableEq

/-- What the `SELECT` of a maximum ranges over, and how often these rows had been moved. -/
structure Sight where
  orders : List Nat
  moves : Nat
  deriving DecidableEq

/-- The record of an appended row: its order, the orders that the maximum was taken of, the
orders of the rows beside it when it was committed, and whether any were moved between. -/
structure Appended where
  parent : Parent
  order : Nat
  seen : List Nat
  others : List Nat
  disturbed : Bool
  deriving DecidableEq

structure Tables where
  dashboards : List Dashboard
  shares : DashboardId → List ResourceShare
  widgets : List DashboardWidget
  lists : List ListRow
  items : List ItemRow
  moves : Parent → Nat
  appended : List Appended

/-- One row change. An inserted row carries the sight that its order was drawn from. The
rows renumbered by one statement are those that change, in the order of all the ids. -/
inductive Write
  | insertList (row : ListRow) (sight : Sight)
  | insertItem (row : ItemRow) (sight : Sight)
  | renumberLists (dashboard : DashboardId) (changed orderedIds : List ListId) (updatedBy : UserId)
  | renumberItems (list : ListId) (changed orderedIds : List ItemId) (updatedBy : UserId)
  | trashList (id : ListId) (moment : Time)
  | restoreList (id : ListId) (dashboard : DashboardId) (updatedBy : UserId)
  | deleteItem (id : ItemId)
  | insertWidget (widget : DashboardWidget)
  | deleteWidget (id : Uuid)
  | editLayout (dashboard : DashboardId) (layout : Option Layout) (version : Int)

namespace Tables

variable (tables : Tables)

/-- `Dashboard.deleted_at.is_(None)`. -/
def dashboard? (id : DashboardId) : Option Dashboard :=
  tables.dashboards.find? fun dashboard => dashboard.id = id ∧ dashboard.deletedAt = none

/-- `_load_widgets`. -/
def widgetsOf (id : DashboardId) : List DashboardWidget :=
  tables.widgets.filter fun widget => widget.dashboardId = id

/-- The row of a list, in the trash or not. -/
def list? (trashed : Bool) (id : ListId) : Option ListRow :=
  tables.lists.find? fun row => row.id = id ∧ row.deletedAt.isSome = trashed

/-- The lists of a dashboard that are not in the trash. -/
def liveLists (id : DashboardId) : List ListRow :=
  tables.lists.filter fun row => row.dashboardId = id ∧ row.deletedAt = none

def itemsOf (list : ListId) : List ItemRow :=
  tables.items.filter fun item => item.listId = list

/-- The orders of the rows that a new one is appended to. -/
def orders : Parent → List Nat
  | .dashboard id => (tables.liveLists id).map ListRow.sortOrder
  | .list id => (tables.itemsOf id).map ItemRow.sortOrder

/-- What the `SELECT` of the maximum sees. -/
def sight (parent : Parent) : Sight := ⟨tables.orders parent, tables.moves parent⟩

/-- The rows after a change. A row never changes its parent, so that the rows of a
renumbering or a restoration are sought in the parent that they were read of. -/
def change : Write → Tables
  | .insertList row _ => { tables with lists := tables.lists ++ [row] }
  | .insertItem row _ => { tables with items := tables.items ++ [row] }
  | .renumberLists dashboard changed orderedIds updatedBy =>
      { tables with
        lists := tables.lists.map fun row =>
          if row.dashboardId = dashboard ∧ row.id ∈ changed then
            { row with sortOrder := orderedIds.idxOf row.id, updatedBy := updatedBy }
          else row }
  | .renumberItems list changed orderedIds updatedBy =>
      { tables with
        items := tables.items.map fun item =>
          if item.listId = list ∧ item.id ∈ changed then
            { item with sortOrder := orderedIds.idxOf item.id, updatedBy := updatedBy }
          else item }
  | .trashList id moment =>
      { tables with
        lists := tables.lists.map fun row =>
          if row.id = id then { row with deletedAt := some moment } else row }
  | .restoreList id dashboard updatedBy =>
      { tables with
        lists := tables.lists.map fun row =>
          if row.dashboardId = dashboard ∧ row.id = id then
            { row with deletedAt := none, updatedBy := updatedBy }
          else row }
  | .deleteItem id => { tables with items := tables.items.filter fun item => item.id ≠ id }
  | .insertWidget widget => { tables with widgets := tables.widgets ++ [widget] }
  | .deleteWidget id =>
      { tables with widgets := tables.widgets.filter fun widget => widget.id ≠ id }
  | .editLayout id layout version =>
      { tables with
        dashboards := tables.dashboards.map fun dashboard =>
          if dashboard.id = id then
            { dashboard with layout := layout.getD dashboard.layout, version := version }
          else dashboard }

/-- The record of a row that is appended to a parent. -/
def record (parent : Parent) (order : Nat) (sight : Sight) : Appended :=
  ⟨parent, order, sight.orders, tables.orders parent, decide (tables.moves parent ≠ sight.moves)⟩

end Tables

/-- The parent whose rows a write brings back or renumbers. -/
def Write.moved : Write → Option Parent
  | .renumberLists dashboard _ _ _ => some (.dashboard dashboard)
  | .renumberItems list _ _ _ => some (.list list)
  | .restoreList _ dashboard _ => some (.dashboard dashboard)
  | _ => none

/-- The row that a write appends: its parent, its order and where that was drawn from. -/
def Write.appends : Write → Option (Parent × Nat × Sight)
  | .insertList row sight => some (.dashboard row.dashboardId, row.sortOrder, sight)
  | .insertItem row sight => some (.list row.listId, row.sortOrder, sight)
  | _ => none

/-- The rows and the record after a write. -/
def Tables.perform (tables : Tables) (write : Write) : Tables :=
  { tables.change write with
    moves := fun parent =>
      if write.moved = some parent then tables.moves parent + 1 else tables.moves parent
    appended :=
      match write.appends with
      | some (parent, order, sight) => tables.record parent order sight :: tables.appended
      | none => tables.appended }

/-! ## The statements -/

open ReadCommitted ReadCommitted.Program
open Access (canEdit)
open Boards (DashboardId DashboardWidget ListId ListType UserId WidgetCreate
  alreadyOnDashboard changedLayout dashboardNotFound defaultWidgetSize fitWidget limitMessage
  listNotFound listNotOnDashboard minimumWidgetSize readListType)
open Calendar (HttpError internalError unprocessable)
open FrontDashboard.Lists (ItemReorder editorAccessRequired itemNotFound listChanged maxInteger)
open Lists.Page (appendOrder listsChanged sameIds)
open FrontDashboard.Membership (EffectiveRole ResourceShare Time effectiveRole)

/-- The locks of rows, of one that is inserted as well. -/
inductive Lock
  | dashboard (id : DashboardId)
  | list (id : ListId)
  | item (id : ItemId)
  | widget (id : Uuid)
  deriving DecidableEq

abbrev Handler := Program Tables Write Lock HttpError

structure Settings where
  quotaListsPerUser : Nat
  quotaListsPerDashboard : Nat
  quotaItemsPerUser : Nat
  quotaItemsPerList : Nat
  quotaWidgetsPerDashboard : Nat

inductive Response
  | list (row : ListRow) (itemCount : Nat)
  | item (row : ItemRow)
  | widgetAdded (createdList : Option ListRow)
  | noContent
  deriving DecidableEq

/-! ## Access and quotas -/

/-- `load_dashboard_access`, without the row lock. -/
def loadDashboardAccess (id : DashboardId) (caller : UserId) :
    Handler (Dashboard × EffectiveRole) := do
  match ← query fun tables => tables.dashboard? id with
  | none => raise dashboardNotFound
  | some dashboard => do
    let shares ← query fun tables => tables.shares dashboard.id
    match effectiveRole dashboard.userId caller shares with
    | none => raise ⟨404, "Not found"⟩
    | some role => pure (dashboard, role)

/-- `load_dashboard_access` with `lock_for_update`. -/
def lockDashboardAccess (id : DashboardId) (caller : UserId) :
    Handler (Dashboard × EffectiveRole) := do
  acquire (.dashboard id)
  loadDashboardAccess id caller

/-- `_get_list_access`, without the row lock. -/
def getListAccess (id : ListId) (caller : UserId) :
    Handler (ListRow × Dashboard × EffectiveRole) := do
  match ← query fun tables => tables.list? false id with
  | none => raise listNotFound
  | some row => do
    let access ← loadDashboardAccess row.dashboardId caller
    pure (row, access)

/-- `_get_list_access` with `lock_for_update`. -/
def lockListAccess (id : ListId) (caller : UserId) :
    Handler (ListRow × Dashboard × EffectiveRole) := do
  acquire (.list id)
  getListAccess id caller

/-- `assert_can_edit`. -/
def assertCanEdit (role : EffectiveRole) : Handler Unit :=
  if canEdit role then pure () else raise editorAccessRequired

/-- `assert_under_quota`. -/
def assertUnderQuota (count : Tables → Nat) (cap : Nat) (detail : String) : Handler Unit := do
  let used ← query count
  if cap ≤ used then raise (unprocessable detail) else pure ()

/-! ## Rows read again after a commit -/

/-- `db.refresh`, of a row that may be gone. -/
def refresh {α : Type} (read : Tables → Option α) : Handler α := do
  match ← query read with
  | none => raise internalError
  | some row => pure row

def refreshList (id : ListId) : Handler ListRow :=
  refresh fun tables => tables.lists.find? (·.id = id)

def refreshItem (id : ItemId) : Handler ItemRow :=
  refresh fun tables => tables.items.find? (·.id = id)

/-! ## Creating -/

/-- The flush of a new list, with the id that is drawn for it. -/
def flushList (row : ListRow) (sight : Sight) : Handler Unit := do
  if maxInteger < row.sortOrder then raise internalError
  else do
    acquire (.list row.id)
    let taken ← updateReturning (fun _ => [.insertList row sight])
      fun tables => tables.lists.any (·.id = row.id)
    if taken then raise internalError else pure ()

/-- The flush of a new item. -/
def flushItem (row : ItemRow) (sight : Sight) : Handler Unit := do
  if maxInteger < row.sortOrder then raise internalError
  else do
    acquire (.item row.id)
    let taken ← updateReturning (fun _ => [.insertItem row sight])
      fun tables => tables.items.any (·.id = row.id)
    if taken then raise internalError else pure ()

variable (settings : Settings)

/-- `create_list`. -/
def createList (caller : UserId) (dashboardId : DashboardId) (listType : ListType)
    (id : ListId) : Handler Response := do
  let (dashboard, role) ← lockDashboardAccess dashboardId caller
  assertCanEdit role
  assertUnderQuota (fun tables => (tables.lists.filter (·.createdBy = caller)).length)
    settings.quotaListsPerUser (limitMessage "lists" settings.quotaListsPerUser .purge)
  assertUnderQuota (fun tables => (tables.lists.filter (·.dashboardId = dashboard.id)).length)
    settings.quotaListsPerDashboard
    (limitMessage "lists on this dashboard" settings.quotaListsPerDashboard .purge)
  let sight ← query fun tables => tables.sight (.dashboard dashboard.id)
  let nextOrder := appendOrder sight.orders
  flushList ⟨id, dashboard.id, listType, nextOrder, caller, caller, none⟩ sight
  commitTransaction
  let row ← refreshList id
  pure (.list row 0)

/-- `create_item`. -/
def createItem (caller : UserId) (listId : ListId) (id : ItemId) : Handler Response := do
  let (_, _, role) ← lockListAccess listId caller
  assertCanEdit role
  assertUnderQuota (fun tables => (tables.items.filter (·.createdBy = caller)).length)
    settings.quotaItemsPerUser (limitMessage "list items" settings.quotaItemsPerUser .immediate)
  assertUnderQuota (fun tables => (tables.itemsOf listId).length)
    settings.quotaItemsPerList
    (limitMessage "items on this list" settings.quotaItemsPerList .immediate)
  let sight ← query fun tables => tables.sight (.list listId)
  let nextOrder := appendOrder sight.orders
  flushItem ⟨id, listId, nextOrder, caller, caller⟩ sight
  commitTransaction
  let row ← refreshItem id
  pure (.item row)

/-- The list that a new widget is bound to: a new one, one of the dashboard, or none. -/
def bindResource (caller : UserId) (dashboard : Dashboard) (newList : ListId) :
    WidgetCreate → Handler (Option ListId)
  | .list none rawListType =>
      match readListType rawListType with
      | none => raise (unprocessable "Invalid list type")
      | some listType => do
        let sight ← query fun tables => tables.sight (.dashboard dashboard.id)
        let nextOrder := appendOrder sight.orders
        flushList ⟨newList, dashboard.id, listType, nextOrder, caller, caller, none⟩ sight
        pure (some newList)
  | .list (some list) _ => do
      match ← query fun tables =>
        (tables.list? false list).filter (·.dashboardId = dashboard.id) with
      | none => raise listNotOnDashboard
      | some _ => pure (some list)
  | _ => pure none

/-- A widget of the dashboard is bound to the list already. -/
def isBound (dashboard : DashboardId) (resource : Option ListId) (tables : Tables) : Bool :=
  resource.any fun list => (tables.widgetsOf dashboard).any (·.resourceId = some list)

/-- The list of a body that names none. -/
def createdList (newList : ListId) : WidgetCreate → Option ListId
  | .list none _ => some newList
  | _ => none

/-- What `add_widget` does once the list is there. -/
def placeWidget (dashboard : Dashboard) (body : WidgetCreate) (newWidget : Uuid)
    (newList : ListId) (resource : Option ListId) : Handler Response := do
  let bound ← query (isBound dashboard.id resource)
  if bound then raise alreadyOnDashboard
  else do
    acquire (.widget newWidget)
    let taken ← updateReturning
      (fun _ => [.insertWidget ⟨newWidget, dashboard.id, body.widgetType, resource⟩])
      fun tables => isBound dashboard.id resource tables || tables.widgets.any (·.id = newWidget)
    if taken then raise alreadyOnDashboard
    else
      let (defaultW, defaultH) := defaultWidgetSize body.widgetType
      let minimum := minimumWidgetSize (some body.widgetType)
      match fitWidget dashboard.layout defaultW defaultH minimum with
      | none => raise ⟨409, "No free space of at least " ++ toString minimum.1 ++ "×" ++
          toString minimum.2 ++
          " cells for this widget — make room by moving or removing one first"⟩
      | some box => do
        update fun _ => [.editLayout dashboard.id
          (some (dashboard.layout ++ [⟨box, newWidget.text⟩])) (dashboard.version + 1)]
        commitTransaction
        let _ ← refresh fun tables => tables.dashboards.find? (·.id = dashboard.id)
        match createdList newList body with
        | none => pure (.widgetAdded none)
        | some list => do
          let row ← refreshList list
          pure (.widgetAdded (some row))

/-- `add_widget`, with the ids that are drawn for the widget and for a list. -/
def addWidget (caller : UserId) (id : DashboardId) (body : WidgetCreate) (newWidget : Uuid)
    (newList : ListId) : Handler Response := do
  let (dashboard, role) ← lockDashboardAccess id caller
  assertCanEdit role
  assertUnderQuota (fun tables => (tables.widgetsOf dashboard.id).length)
    settings.quotaWidgetsPerDashboard
    (limitMessage "widgets on this dashboard" settings.quotaWidgetsPerDashboard .immediate)
  let resource ← bindResource caller dashboard newList body
  placeWidget dashboard body newWidget newList resource

/-! ## Reordering -/

/-- `ListReorder`. -/
structure ListReorder where
  dashboardId : DashboardId
  listIds : List ListId
  nodup : listIds.Nodup
  nonempty : listIds ≠ []
  atMost : listIds.length ≤ 1000

/-- `reorder_lists`. The rows are found, waited for in turn and read as they are then. A
row that is where it should be and was last updated by the caller is not written. -/
def reorderLists (caller : UserId) (body : ListReorder) : Handler Response := do
  let (_, role) ← loadDashboardAccess body.dashboardId caller
  assertCanEdit role
  let found ← query fun tables => (tables.liveLists body.dashboardId).map ListRow.id
  acquireAll ((found.insertionSort (· ≤ ·)).map .list)
  let lists ← query fun tables => (tables.liveLists body.dashboardId).filter (·.id ∈ found)
  if ¬ sameIds body.listIds (lists.map ListRow.id) then raise listsChanged
  else do
    let changed := lists.filter fun row =>
      row.sortOrder ≠ body.listIds.idxOf row.id ∨ row.updatedBy ≠ caller
    update fun _ => [.renumberLists body.dashboardId (changed.map ListRow.id) body.listIds caller]
    commitTransaction
    pure .noContent

/-- `reorder_items`. A row that is to be written and is gone by then fails the flush. -/
def reorderItems (caller : UserId) (listId : ListId) (body : ItemReorder) : Handler Response := do
  let (_, _, role) ← lockListAccess listId caller
  assertCanEdit role
  let items ← query fun tables => tables.itemsOf listId
  if ¬ sameIds body.itemIds (items.map ItemRow.id) then raise listChanged
  else do
    let changed := (items.filter fun item =>
      item.sortOrder ≠ body.itemIds.idxOf item.id ∨ item.updatedBy ≠ caller).map ItemRow.id
    acquireAll ((changed.insertionSort (· ≤ ·)).map .item)
    let there ← updateReturning (fun _ => [.renumberItems listId changed body.itemIds caller])
      fun tables => changed.all fun id => tables.items.any (·.id = id)
    if !there then raise internalError
    else do
      commitTransaction
      pure .noContent

/-! ## Deleting and restoring -/

/-- `delete_item`. That the row is gone by then is only warned of. -/
def deleteItem (caller : UserId) (listId : ListId) (id : ItemId) : Handler Response := do
  let (_, _, role) ← getListAccess listId caller
  assertCanEdit role
  match ← query fun tables => (tables.itemsOf listId).find? (·.id = id) with
  | none => raise itemNotFound
  | some item => do
    acquire (.item item.id)
    update fun _ => [.deleteItem item.id]
    commitTransaction
    pure .noContent

/-- The writes that take widgets from a dashboard, as the session holds it. -/
def removeFrom (widgets : List DashboardWidget) (dashboard : Dashboard) : Write :=
  let removed := (widgets.filter (·.dashboardId = dashboard.id)).map (·.id.text)
  .editLayout dashboard.id (changedLayout dashboard.layout removed) (dashboard.version + 1)

/-- `remove_resource_widgets`. The rows of the locking `SELECT` do not replace an object
that the session has loaded before, so such a dashboard is edited as it was then. -/
def removeResourceWidgets (list : ListId) (loaded : Dashboard) : Handler Unit := do
  let widgets ← query fun tables => tables.widgets.filter fun widget =>
    widget.resourceId = some list
  if widgets = [] then pure ()
  else do
    let dashboardIds := (widgets.map (·.dashboardId)).dedup
    acquireAll ((dashboardIds.insertionSort (· ≤ ·)).map .dashboard)
    let selected ← query fun tables => tables.dashboards.filter (·.id ∈ dashboardIds)
    let dashboards := selected.map fun dashboard =>
      if dashboard.id = loaded.id then loaded else dashboard
    update fun _ => dashboards.map (removeFrom widgets) ++ widgets.map fun widget =>
      .deleteWidget widget.id

/-- The flush of a changed list, which fails if the row is gone, and the commit. -/
def commitList (id : ListId) (write : Write) : Handler Unit := do
  acquire (.list id)
  let there ← updateReturning (fun _ => [write]) fun tables => tables.lists.any (·.id = id)
  if !there then raise internalError else commitTransaction

/-- `delete_list`. -/
def deleteList (caller : UserId) (id : ListId) (moment : Time) : Handler Response := do
  let (row, dashboard, role) ← getListAccess id caller
  assertCanEdit role
  removeResourceWidgets row.id dashboard
  commitList row.id (.trashList row.id moment)
  pure .noContent

/-- `restore_list`. -/
def restoreList (caller : UserId) (id : ListId) : Handler Response := do
  match ← query fun tables => tables.list? true id with
  | none => raise listNotFound
  | some row => do
    let (_, role) ← loadDashboardAccess row.dashboardId caller
    assertCanEdit role
    commitList row.id (.restoreList row.id row.dashboardId caller)
    let count ← query fun tables => (tables.itemsOf row.id).length
    let restored ← refreshList row.id
    pure (.list restored count)

/-! ## The service -/

inductive Request
  | createList (caller : UserId) (dashboard : DashboardId) (listType : ListType) (id : ListId)
  | createItem (caller : UserId) (list : ListId) (id : ItemId)
  | addWidget (caller : UserId) (dashboard : DashboardId) (body : WidgetCreate) (newWidget : Uuid)
      (newList : ListId)
  | reorderLists (caller : UserId) (body : ListReorder)
  | reorderItems (caller : UserId) (list : ListId) (body : ItemReorder)
  | deleteItem (caller : UserId) (list : ListId) (id : ItemId)
  | deleteList (caller : UserId) (id : ListId) (moment : Time)
  | restoreList (caller : UserId) (id : ListId)

def handler : Request → Handler Response
  | .createList caller dashboard listType id => createList settings caller dashboard listType id
  | .createItem caller list id => createItem settings caller list id
  | .addWidget caller dashboard body newWidget newList =>
      addWidget settings caller dashboard body newWidget newList
  | .reorderLists caller body => reorderLists caller body
  | .reorderItems caller list body => reorderItems caller list body
  | .deleteItem caller list id => deleteItem caller list id
  | .deleteList caller id moment => deleteList caller id moment
  | .restoreList caller id => restoreList caller id

/-- What the other routes and the sweeps do to the rows, at any moment: dashboards, shares
and widgets come and go and change, the texts of lists and items are edited, and lists are
deleted for good with their items. -/
inductive Event
  | dashboards (rows : List Dashboard)
  | shares (dashboard : DashboardId) (rows : List ResourceShare)
  | widgets (rows : List DashboardWidget)
  | editList (id : ListId) (updatedBy : UserId)
  | editItem (id : ItemId) (updatedBy : UserId)
  | purge (lists : List ListId)

def Tables.happen (tables : Tables) : Event → Tables
  | .dashboards rows => { tables with dashboards := rows }
  | .shares dashboard rows =>
      { tables with shares := Function.update tables.shares dashboard rows }
  | .widgets rows => { tables with widgets := rows }
  | .editList id updatedBy =>
      { tables with
        lists := tables.lists.map fun row =>
          if row.id = id then { row with updatedBy := updatedBy } else row }
  | .editItem id updatedBy =>
      { tables with
        items := tables.items.map fun item =>
          if item.id = id then { item with updatedBy := updatedBy } else item }
  | .purge lists =>
      { tables with
        lists := tables.lists.filter (·.id ∉ lists)
        items := tables.items.filter (·.listId ∉ lists) }

/-- The routes as a service over tables that are empty at first. -/
def service : Service Tables Write Lock HttpError Response Request Event where
  perform := Tables.perform
  handler := fun _ => handler settings
  environment := Tables.happen
  Initial := fun tables => tables = ⟨[], fun _ => [], [], [], [], fun _ => 0, []⟩

end FrontDashboard.Appending
