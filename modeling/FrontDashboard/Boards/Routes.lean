import FrontDashboard.Boards.Grid
import FrontDashboard.Calendar.Routes
import FrontDashboard.Library.ReadCommitted
import FrontDashboard.Library.Uuid

/-! # Dashboards, widgets and lists

The rows that the layout routes read and write. A layout is a document in the row of
its dashboard; widgets and lists have rows of their own.
-/

namespace FrontDashboard.Boards

open ReadCommitted ReadCommitted.Program
open Calendar (HttpError internalError thousands unprocessable)

abbrev DashboardId := Nat

abbrev ListId := Nat

abbrev UserId := Nat

structure Dashboard where
  id : DashboardId
  userId : UserId
  layout : Layout
  version : Int
  deriving DecidableEq

/-- A row of `dashboard_widgets`, with the list it is bound to. -/
structure DashboardWidget where
  id : Uuid
  dashboardId : DashboardId
  widgetType : WidgetType
  resourceId : Option ListId
  deriving DecidableEq

inductive ListType
  | checklist
  | grocery
  | todo
  deriving DecidableEq

/-- A row of `lists`. -/
structure ListRow where
  id : ListId
  dashboardId : DashboardId
  createdBy : UserId
  listType : ListType
  deletedAt : Option Int
  deriving DecidableEq

/-- The tables. `drawn` are the ids that widgets have ever had, which no statement reads. -/
structure Tables where
  dashboards : List Dashboard
  widgets : List DashboardWidget
  lists : List ListRow
  drawn : List Uuid

/-- One row change. `saveLayout` stores what a client sent. `editLayout` stores what the
server makes of a layout, unless nothing changes; it carries the layout it was made from. -/
inductive Write
  | insertDashboard (id : DashboardId) (userId : UserId)
  | saveLayout (dashboard : DashboardId) (layout : Layout) (version : Int)
  | editLayout (dashboard : DashboardId) (layout : Option Layout) (version : Int) (base : Layout)
  | insertWidget (widget : DashboardWidget)
  | deleteWidget (id : Uuid)
  | insertList (list : ListRow)
  | trashList (list : ListId) (moment : Int)
  deriving DecidableEq

namespace Tables

variable (tables : Tables)

/-- `select(Dashboard).where(Dashboard.id == ...)`. -/
def dashboard? (id : DashboardId) : Option Dashboard :=
  tables.dashboards.find? fun dashboard => dashboard.id = id

/-- `_load_widgets`. -/
def widgetsOf (id : DashboardId) : List DashboardWidget :=
  tables.widgets.filter fun widget => widget.dashboardId = id

/-- The widgets bound to a list, on any dashboard. -/
def boundTo (list : ListId) : List DashboardWidget :=
  tables.widgets.filter fun widget => widget.resourceId = some list

/-- The lists of a dashboard that are not in the trash. -/
def liveList? (list : ListId) : Option ListRow :=
  tables.lists.find? fun row => row.id = list ∧ row.deletedAt = none

/-- The `UPDATE` of a dashboard's layout and version. -/
def setLayout (id : DashboardId) (layout : Option Layout) (version : Int) : Tables :=
  { tables with
    dashboards := tables.dashboards.map fun dashboard =>
      if dashboard.id = id then
        { dashboard with layout := layout.getD dashboard.layout, version := version }
      else dashboard }

def perform : Write → Tables
  | .insertDashboard id userId =>
      { tables with dashboards := tables.dashboards ++ [⟨id, userId, [], 0⟩] }
  | .saveLayout id layout version => tables.setLayout id (some layout) version
  | .editLayout id layout version _ => tables.setLayout id layout version
  | .insertWidget widget =>
      { tables with widgets := tables.widgets ++ [widget], drawn := widget.id :: tables.drawn }
  | .deleteWidget id =>
      { tables with widgets := tables.widgets.filter fun widget => widget.id ≠ id }
  | .insertList list => { tables with lists := tables.lists ++ [list] }
  | .trashList list moment =>
      { tables with
        lists := tables.lists.map fun row =>
          if row.id = list then { row with deletedAt := some moment } else row }

end Tables

/-! ## The layout routes

`create_dashboard`, `create_list`, `update_layout`, `add_widget`, `delete_widget` and
`delete_list`, of callers who may edit the dashboard, each as the program of its
database statements.
-/

/-- The locks of rows, of one that is inserted as well. -/
inductive Lock
  | dashboard (id : DashboardId)
  | widget (id : Uuid)
  | list (id : ListId)
  deriving DecidableEq

abbrev Handler := Program Tables Write Lock HttpError

structure Settings where
  quotaDashboardsPerUser : Nat
  quotaListsPerUser : Nat
  quotaListsPerDashboard : Nat
  quotaWidgetsPerDashboard : Nat

/-- What frees room under a quota. -/
inductive ReclaimPath
  | immediate
  | purge

/-- `limit_message`. -/
def limitMessage (noun : String) (cap : Nat) (reclaim : ReclaimPath) : String :=
  let room := "You have reached the limit of " ++ thousands cap ++ " " ++ noun ++
    ". Delete some to make room"
  match reclaim with
  | .immediate => room ++ "."
  | .purge => room ++
      " — anything already in the trash keeps its space until you delete it permanently."

def dashboardNotFound : HttpError := ⟨404, "Dashboard not found"⟩
def listNotFound : HttpError := ⟨404, "List not found"⟩
def widgetNotFound : HttpError := ⟨404, "Widget not found"⟩
def listNotOnDashboard : HttpError := ⟨404, "List not found on this dashboard"⟩
def alreadyOnDashboard : HttpError := ⟨409, "That item is already on this dashboard"⟩

/-- `assert_under_quota`. -/
def assertUnderQuota (count : Tables → Nat) (cap : Nat) (detail : String) : Handler Unit := do
  let used ← query count
  if cap ≤ used then raise (unprocessable detail) else pure ()

/-- `load_dashboard_access`, without the row lock. -/
def loadDashboard (id : DashboardId) : Handler Dashboard := do
  match ← query fun tables => tables.dashboard? id with
  | none => raise dashboardNotFound
  | some dashboard => pure dashboard

/-- `load_dashboard_access` with `lock_for_update`. -/
def lockDashboard (id : DashboardId) : Handler Dashboard := do
  acquire (.dashboard id)
  loadDashboard id

variable (settings : Settings)

/-- `create_dashboard`. -/
def createDashboard (caller : UserId) (id : DashboardId) : Handler Unit := do
  assertUnderQuota (fun tables => (tables.dashboards.filter (·.userId = caller)).length)
    settings.quotaDashboardsPerUser
    (limitMessage "dashboards" settings.quotaDashboardsPerUser .purge)
  acquire (.dashboard id)
  let taken ← updateReturning (fun _ => [.insertDashboard id caller])
    fun tables => (tables.dashboard? id).isSome
  if taken then raise internalError else commitTransaction

/-- `create_list`. -/
def createList (caller : UserId) (dashboardId : DashboardId) (id : ListId) (listType : ListType) :
    Handler Unit := do
  let dashboard ← lockDashboard dashboardId
  assertUnderQuota (fun tables => (tables.lists.filter (·.createdBy = caller)).length)
    settings.quotaListsPerUser (limitMessage "lists" settings.quotaListsPerUser .purge)
  assertUnderQuota (fun tables => (tables.lists.filter (·.dashboardId = dashboard.id)).length)
    settings.quotaListsPerDashboard
    (limitMessage "lists on this dashboard" settings.quotaListsPerDashboard .purge)
  acquire (.list id)
  let taken ← updateReturning (fun _ => [.insertList ⟨id, dashboard.id, caller, listType, none⟩])
    fun tables => tables.lists.any (·.id = id)
  if taken then raise internalError else commitTransaction

/-! ## Layout saves -/

/-- `LayoutUpdate`. -/
structure LayoutUpdate where
  layout : Layout
  version : Int
  possible : rejectImpossibleGrids [] layout = .ok layout

/-- The smallest size an entry may be given: that of the widget's type, or the saved one
where that is smaller. -/
def smallestSize (widgets : List DashboardWidget) (saved : Layout) (item : LayoutItem) :
    Int × Int :=
  let widgetType := (widgets.find? fun widget => widget.id.text = item.i).map (·.widgetType)
  let (minW, minH) := minimumWidgetSize widgetType
  match saved.reverse.find? fun previous => previous.i = item.i with
  | none => (minW, minH)
  | some previous => (min minW previous.w, min minH previous.h)

/-- Why an entry is too small. -/
def tooSmall (widgets : List DashboardWidget) (saved : Layout) (item : LayoutItem) :
    Option HttpError :=
  let (minW, minH) := smallestSize widgets saved item
  if item.w < minW ∨ item.h < minH then
    some (unprocessable ("Widget must be at least " ++ toString minW ++ " columns by " ++
      toString minH ++ " rows"))
  else none

/-- `update_layout`. -/
def updateLayout (id : DashboardId) (body : LayoutUpdate) : Handler Unit := do
  let dashboard ← lockDashboard id
  if dashboard.version ≠ body.version then
    raise ⟨409, "Version conflict: expected " ++ toString dashboard.version ++ ", got " ++
      toString body.version⟩
  else do
    let widgets ← query fun tables => tables.widgetsOf dashboard.id
    match body.layout.findSome? (tooSmall widgets dashboard.layout) with
    | some error => raise error
    | none => do
      update fun _ => [.saveLayout dashboard.id body.layout (dashboard.version + 1)]
      commitTransaction

/-! ## Widgets -/

/-- `WidgetCreate`. A list widget binds a list, or a new one of the type that its
configuration names. -/
inductive WidgetCreate
  | clock
  | calendar
  | agenda
  | list (resourceId : Option ListId) (listType : Option String)

def WidgetCreate.widgetType : WidgetCreate → WidgetType
  | .clock => .clock
  | .calendar => .calendar
  | .agenda => .agenda
  | .list _ _ => .list

/-- `ListType(...)` of a configuration, by default a checklist. -/
def readListType (raw : Option String) : Option ListType :=
  match raw.getD "" with
  | "" => some .checklist
  | "checklist" => some .checklist
  | "grocery" => some .grocery
  | "todo" => some .todo
  | _ => none

/-- The list that a new widget is bound to. -/
def bindResource (caller : UserId) (dashboard : Dashboard) (newList : ListId) :
    WidgetCreate → Handler (Option ListId)
  | .list none listType =>
      match readListType listType with
      | none => raise (unprocessable "Invalid list type")
      | some listType => do
        acquire (.list newList)
        let taken ← updateReturning
          (fun _ => [.insertList ⟨newList, dashboard.id, caller, listType, none⟩])
          fun tables => tables.lists.any (·.id = newList)
        if taken then raise internalError else pure (some newList)
  | .list (some list) _ => do
      match ← query fun tables => (tables.liveList? list).filter (·.dashboardId = dashboard.id) with
      | none => raise listNotOnDashboard
      | some _ => pure (some list)
  | _ => pure none

/-- A widget of the dashboard is bound to the list already. -/
def isBound (dashboard : DashboardId) (resource : Option ListId) (tables : Tables) : Bool :=
  resource.any fun list => (tables.widgetsOf dashboard).any (·.resourceId = some list)

/-- `add_widget`, with the ids that are drawn for the widget and for a list. A row that
breaks a unique index, be it of the ids, is refused like a second widget of a list. -/
def addWidget (caller : UserId) (id : DashboardId) (body : WidgetCreate) (newWidget : Uuid)
    (newList : ListId) : Handler Unit := do
  let dashboard ← lockDashboard id
  assertUnderQuota (fun tables => (tables.widgetsOf dashboard.id).length)
    settings.quotaWidgetsPerDashboard
    (limitMessage "widgets on this dashboard" settings.quotaWidgetsPerDashboard .immediate)
  let resource ← bindResource caller dashboard newList body
  let bound ← query (isBound dashboard.id resource)
  if bound then raise alreadyOnDashboard
  else do
    acquire (.widget newWidget)
    let taken ← updateReturning
      (fun _ => [.insertWidget ⟨newWidget, dashboard.id, body.widgetType, resource⟩])
      fun tables => isBound dashboard.id resource tables ||
        tables.widgets.any fun widget => widget.id = newWidget
    if taken then raise alreadyOnDashboard
    else
      let (defaultW, defaultH) := defaultWidgetSize body.widgetType
      let minimum := minimumWidgetSize (some body.widgetType)
      match fitWidget dashboard.layout defaultW defaultH minimum with
      | none => raise ⟨409, "No free space of at least " ++ toString minimum.1 ++ "×" ++
          toString minimum.2 ++
          " cells for this widget — make room by moving or removing one first"⟩
      | some box => do
        update fun _ => [.editLayout dashboard.id
          (some (dashboard.layout ++ [⟨box, newWidget.text⟩])) (dashboard.version + 1)
          dashboard.layout]
        commitTransaction

/-- A layout without some entries, where that makes a difference. -/
def changedLayout (layout : Layout) (removed : List String) : Option Layout :=
  let next := layout.filter fun item => item.i ∉ removed
  if next = layout then none else some next

/-- `delete_widget`. -/
def deleteWidget (id : DashboardId) (widgetId : Uuid) : Handler Unit := do
  let dashboard ← lockDashboard id
  match ← query fun tables => (tables.widgetsOf dashboard.id).find? (·.id = widgetId) with
  | none => raise widgetNotFound
  | some widget => do
    update fun _ => [.deleteWidget widget.id,
      .editLayout dashboard.id (changedLayout dashboard.layout [widget.id.text])
        (dashboard.version + 1) dashboard.layout]
    commitTransaction

/-! ## Lists -/

/-- The writes that take widgets from a dashboard, as the session holds it. -/
def removeFrom (widgets : List DashboardWidget) (dashboard : Dashboard) : Write :=
  let removed := (widgets.filter (·.dashboardId = dashboard.id)).map (·.id.text)
  .editLayout dashboard.id (changedLayout dashboard.layout removed) (dashboard.version + 1)
    dashboard.layout

/-- `remove_resource_widgets`. The rows of the locking `SELECT` do not replace an object
that the session has loaded before, so such a dashboard is edited as it was then. -/
def removeResourceWidgets (list : ListId) (loaded : Dashboard) : Handler Unit := do
  let widgets ← query fun tables => tables.boundTo list
  if widgets = [] then pure ()
  else do
    let dashboardIds := (widgets.map (·.dashboardId)).dedup
    acquireAll ((dashboardIds.insertionSort (· ≤ ·)).map .dashboard)
    let selected ← query fun tables => dashboardIds.filterMap fun id => tables.dashboard? id
    let dashboards := selected.map fun dashboard =>
      if dashboard.id = loaded.id then loaded else dashboard
    update fun _ => dashboards.map (removeFrom widgets) ++ widgets.map fun widget =>
      .deleteWidget widget.id

/-- `delete_list`. -/
def deleteList (list : ListId) (moment : Int) : Handler Unit := do
  match ← query fun tables => tables.liveList? list with
  | none => raise listNotFound
  | some row => do
    let dashboard ← loadDashboard row.dashboardId
    removeResourceWidgets row.id dashboard
    update fun _ => [.trashList row.id moment]
    commitTransaction

/-! ## The service -/

inductive Request
  | createDashboard (caller : UserId) (id : DashboardId)
  | createList (caller : UserId) (dashboard : DashboardId) (id : ListId) (listType : ListType)
  | updateLayout (dashboard : DashboardId) (body : LayoutUpdate)
  | addWidget (caller : UserId) (dashboard : DashboardId) (body : WidgetCreate) (newWidget : Uuid)
      (newList : ListId)
  | deleteWidget (dashboard : DashboardId) (widget : Uuid)
  | deleteList (list : ListId) (moment : Int)

def handler : Request → Handler Unit
  | .createDashboard caller id => createDashboard settings caller id
  | .createList caller dashboard id listType => createList settings caller dashboard id listType
  | .updateLayout dashboard body => updateLayout dashboard body
  | .addWidget caller dashboard body newWidget newList =>
      addWidget settings caller dashboard body newWidget newList
  | .deleteWidget dashboard widget => deleteWidget dashboard widget
  | .deleteList list moment => deleteList list moment

/-- The layout routes as a service over tables that are empty at first. -/
def service : Service Tables Write Lock HttpError Unit Request Empty where
  perform := Tables.perform
  handler := fun _ => handler settings
  environment := fun _ => nofun
  Initial := fun tables => tables = ⟨[], [], [], []⟩

end FrontDashboard.Boards
