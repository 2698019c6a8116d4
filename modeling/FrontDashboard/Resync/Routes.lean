import FrontDashboard.Boards.Routes
import FrontDashboard.Lists.Carried
import FrontDashboard.Membership.Routes

/-! # The requests on dashboards

What `dashboards.py` and `accept_invite` write, by their rows. A request that finds nothing
to write commits nothing, which is `none`; the other rows of a commit, the notifications and
the invites, are left out.
-/

namespace FrontDashboard.Resync

open Access (canEdit)
open Boards (Layout LayoutUpdate WidgetCreate alreadyOnDashboard dashboardNotFound
  defaultWidgetSize fitWidget limitMessage listNotOnDashboard minimumWidgetSize readListType
  tooSmall widgetNotFound)
open Calendar (HttpError internalError unprocessable)
open FrontDashboard.Lists (ListId editorAccessRequired maxInteger)
open FrontDashboard.Membership (EffectiveRole ResourceShare ShareRole effectiveRole heldRole
  inviteDetail isAtLeast)

/-! ## The rows behind what a page caches

Dashboards with their widgets, their shares and who has them as a favorite, the lists, the
calendar, and the activity log. Every row of the log names the dashboard it is about.
-/

abbrev DashboardId := Nat

abbrev UserId := Nat

abbrev Time := Nat

structure Dashboard where
  id : DashboardId
  userId : UserId
  name : String
  layout : Layout
  version : Int
  createdAt : Time
  updatedAt : Time
  deletedAt : Option Time
  deriving DecidableEq

/-- A row of `dashboard_widgets`. -/
structure Widget extends Boards.DashboardWidget where
  config : String
  createdAt : Time
  updatedAt : Time
  deriving DecidableEq

/-- A row of `activity_events`, with the `dashboard_id` of its payload. -/
structure ActivityEvent where
  eventId : Nat
  entityType : String
  dashboardId : Option DashboardId
  deriving DecidableEq

structure Tables where
  dashboards : List Dashboard
  shares : DashboardId → List ResourceShare
  widgets : List Widget
  favorites : UserId → List DashboardId
  lists : Lists.Page.Tables
  calendar : Calendar.Tables
  log : List ActivityEvent

namespace Tables

variable (tables : Tables)

/-- `_load_widgets`. Rows stand in the order they were added in, that of their `created_at`. -/
def widgetsOf (id : DashboardId) : List Widget :=
  tables.widgets.filter fun widget => widget.dashboardId = id

/-- `Dashboard.deleted_at.is_(None)`. -/
def dashboard? (id : DashboardId) : Option Dashboard :=
  tables.dashboards.find? fun row => row.id = id ∧ row.deletedAt = none

/-- The dashboard is not in the trash, and the user owns it or holds a share row of it. -/
def Accessible (user : UserId) (row : Dashboard) : Prop :=
  row.deletedAt = none ∧
    (row.userId = user ∨ ∃ share ∈ tables.shares row.id, share.principal = user)

instance (user : UserId) (row : Dashboard) : Decidable (tables.Accessible user row) :=
  inferInstanceAs (Decidable (_ ∧ (_ ∨ _)))

/-- `list_accessible_dashboard_ids`. -/
def listAccessibleDashboardIds (user : UserId) : List DashboardId :=
  (tables.dashboards.filter fun row => tables.Accessible user row).map Dashboard.id

/-- `load_dashboard_access`. -/
def loadDashboardAccess (id : DashboardId) (user : UserId) :
    Except HttpError (Dashboard × List ResourceShare × EffectiveRole) :=
  match tables.dashboard? id with
  | none => .error Boards.dashboardNotFound
  | some row =>
      match effectiveRole row.userId user (tables.shares row.id) with
      | none => .error ⟨404, "Not found"⟩
      | some role => .ok (row, tables.shares row.id, role)

/-- `current_event_id`. -/
def currentEventId : Option Nat := (tables.log.map ActivityEvent.eventId).max?

/-- What the schema enforces: the primary keys, and that an item is on a list. -/
structure Constrained (tables : Tables) : Prop where
  dashboards : (tables.dashboards.map Dashboard.id).Nodup
  lists : tables.lists.WellFormed
  events : (tables.calendar.events.map (·.id)).Nodup

end Tables

/-! ## What a request makes of the rows -/

structure Settings where
  boards : Boards.Settings
  lists : Lists.Page.ListSettings
  calendar : Calendar.Settings

/-- What a request makes of the rows: a refusal, nothing, or a commit. -/
abbrev Outcome := Except HttpError (Option Tables)

/-- A row is stamped when one of its columns changes. -/
def Dashboard.saved (now : Time) (row changed : Dashboard) : Dashboard :=
  if changed = row then row else { changed with updatedAt := now }

namespace Tables

variable (tables : Tables)

/-- An `UPDATE` of one dashboard. -/
def setDashboard (id : DashboardId) (now : Time) (change : Dashboard → Dashboard) : Tables :=
  { tables with
    dashboards := tables.dashboards.map fun row =>
      if row.id = id then row.saved now (change row) else row }

/-- The share rows of one dashboard set. -/
def setShares (id : DashboardId) (shares : List ResourceShare) : Tables :=
  { tables with shares := Function.update tables.shares id shares }

/-- `remove_dashboard_from_preferences`, of some users. -/
def forget (users : List UserId) (id : DashboardId) : Tables :=
  { tables with
    favorites := fun user =>
      if user ∈ users then (tables.favorites user).filter (· ≠ id) else tables.favorites user }

/-- `create_share`: a grant, or a grant again with a new role. -/
def createShare (id : DashboardId) (principal : UserId) (role : ShareRole) (grantedBy : UserId)
    (newShare : Nat) : Tables :=
  tables.setShares id
    (if (tables.shares id).any fun share => share.principal = principal then
      (tables.shares id).map fun share =>
        if share.principal = principal then { share with role } else share
    else tables.shares id ++ [⟨newShare, principal, role, grantedBy⟩])

/-- The share rows of a dashboard without one. -/
def deleteShare (id : DashboardId) (share : ResourceShare) : Tables :=
  tables.setShares id ((tables.shares id).filter fun other => other.id ≠ share.id)

/-- A dashboard without its widgets that are bound to a list. -/
def unboundRow (list : ListId) (now : Time) (row : Dashboard) : Dashboard :=
  let removed := ((tables.widgetsOf row.id).filter fun widget =>
    widget.resourceId = some list).map (·.id.text)
  if removed = [] then row
  else row.saved now
    { row with
      layout := row.layout.filter fun item => item.i ∉ removed, version := row.version + 1 }

/-- `remove_resource_widgets`, of a list. -/
def removeResourceWidgets (list : ListId) (now : Time) : Tables :=
  { tables with
    dashboards := tables.dashboards.map (tables.unboundRow list now)
    widgets := tables.widgets.filter fun widget => widget.resourceId ≠ some list }

end Tables

variable (settings : Settings)

/-- `create_dashboard`. -/
def createDashboard (caller : UserId) (id : DashboardId) (name : String) (now : Time)
    (tables : Tables) : Outcome :=
  if settings.boards.quotaDashboardsPerUser ≤
      (tables.dashboards.filter fun row => row.userId = caller).length then
    .error (unprocessable (limitMessage "dashboards" settings.boards.quotaDashboardsPerUser .purge))
  else if id ∈ tables.dashboards.map Dashboard.id then .error internalError
  else .ok (some { tables with
    dashboards := tables.dashboards ++ [⟨id, caller, name, [], 0, now, now, none⟩] })

/-- `update_dashboard_meta`. -/
def updateDashboardMeta (caller : UserId) (id : DashboardId) (name : Option String) (now : Time)
    (tables : Tables) : Outcome := do
  let (row, _, role) ← tables.loadDashboardAccess id caller
  match name with
  | none => .ok (some tables)
  | some name =>
      if ¬ canEdit role then .error editorAccessRequired
      else .ok (some (tables.setDashboard row.id now fun row => { row with name }))

/-- `update_layout`. -/
def updateLayout (caller : UserId) (id : DashboardId) (body : LayoutUpdate) (now : Time)
    (tables : Tables) : Outcome := do
  let (row, _, role) ← tables.loadDashboardAccess id caller
  if ¬ canEdit role then .error editorAccessRequired
  else if row.version ≠ body.version then
    .error ⟨409, "Version conflict: expected " ++ toString row.version ++ ", got " ++
      toString body.version⟩
  else
    match body.layout.findSome?
      (tooSmall ((tables.widgetsOf row.id).map Widget.toDashboardWidget) row.layout) with
    | some error => .error error
    | none => .ok (some (tables.setDashboard row.id now fun row =>
        { row with layout := body.layout, version := row.version + 1 }))

/-! ## Widgets -/

/-- The type of a list that a widget brings along. -/
def listType : Boards.ListType → Lists.Page.ListType
  | .checklist => .checklist
  | .grocery => .grocery
  | .todo => .todo

/-- The name of such a list, from what the configuration says, stripped. -/
def listName (configured : String) : String :=
  if configured = "" then "Untitled List" else configured

/-- The list that a new widget is bound to, and the rows with it. -/
def bindResource (caller : UserId) (id : DashboardId) (name : String) (newList : ListId)
    (now : Time) (tables : Tables) : WidgetCreate → Except HttpError (Option ListId × Tables)
  | .list none rawListType =>
      match readListType rawListType with
      | none => .error (unprocessable "Invalid list type")
      | some type =>
          let row := tables.lists.created caller (listName name) (listType type) id newList now
          if maxInteger < row.sortOrder ∨ newList ∈ tables.lists.lists.map (·.id) then
            .error internalError
          else .ok (some newList,
            { tables with lists := { tables.lists with lists := tables.lists.lists ++ [row] } })
  | .list (some list) _ =>
      match (tables.lists.row? false list).filter (·.dashboardId = id) with
      | none => .error listNotOnDashboard
      | some _ => .ok (some list, tables)
  | _ => .ok (none, tables)

/-- A widget and its place in the layout. -/
def placeWidget (row : Dashboard) (body : WidgetCreate) (config : String) (newWidget : Uuid)
    (now : Time) (resource : Option ListId) (tables : Tables) : Outcome :=
  if resource.any fun list => (tables.widgetsOf row.id).any (·.resourceId = some list) then
    .error alreadyOnDashboard
  else if newWidget ∈ tables.widgets.map (·.id) then .error alreadyOnDashboard
  else
    let (defaultW, defaultH) := defaultWidgetSize body.widgetType
    let minimum := minimumWidgetSize (some body.widgetType)
    match fitWidget row.layout defaultW defaultH minimum with
    | none => .error ⟨409, "No free space of at least " ++ toString minimum.1 ++ "×" ++
        toString minimum.2 ++
        " cells for this widget — make room by moving or removing one first"⟩
    | some box =>
        let placed := tables.setDashboard row.id now fun row =>
          { row with
            layout := row.layout ++ [⟨box, newWidget.text⟩], version := row.version + 1 }
        .ok (some { placed with
          widgets := placed.widgets ++
            [⟨⟨newWidget, row.id, body.widgetType, resource⟩, config, now, now⟩] })

/-- `add_widget`, with the configuration as it is stored and the name in it. -/
def addWidget (caller : UserId) (id : DashboardId) (body : WidgetCreate) (name config : String)
    (newWidget : Uuid) (newList : ListId) (now : Time) (tables : Tables) : Outcome := do
  let (row, _, role) ← tables.loadDashboardAccess id caller
  if ¬ canEdit role then .error editorAccessRequired
  else if settings.boards.quotaWidgetsPerDashboard ≤ (tables.widgetsOf row.id).length then
    .error (unprocessable (limitMessage "widgets on this dashboard"
      settings.boards.quotaWidgetsPerDashboard .immediate))
  else do
    let (resource, tables) ← bindResource caller row.id name newList now tables body
    placeWidget row body config newWidget now resource tables

/-- `update_widget`, with a configuration that its type accepts. -/
def updateWidget (caller : UserId) (id : DashboardId) (widgetId : Uuid) (config : String)
    (now : Time) (tables : Tables) : Outcome := do
  let (row, _, role) ← tables.loadDashboardAccess id caller
  if ¬ canEdit role then .error editorAccessRequired
  else
    match (tables.widgetsOf row.id).find? fun widget => widget.id = widgetId with
    | none => .error widgetNotFound
    | some _ => .ok (some { tables with
        widgets := tables.widgets.map fun widget =>
          if widget.dashboardId = row.id ∧ widget.id = widgetId ∧ widget.config ≠ config then
            { widget with config, updatedAt := now }
          else widget })

/-- `delete_widget`. -/
def deleteWidget (caller : UserId) (id : DashboardId) (widgetId : Uuid) (now : Time)
    (tables : Tables) : Outcome := do
  let (row, _, role) ← tables.loadDashboardAccess id caller
  if ¬ canEdit role then .error editorAccessRequired
  else
    match (tables.widgetsOf row.id).find? fun widget => widget.id = widgetId with
    | none => .error widgetNotFound
    | some _ =>
        let edited := tables.setDashboard row.id now fun row =>
          { row with
            layout := row.layout.filter fun item => item.i ≠ widgetId.text
            version := row.version + 1 }
        .ok (some { edited with
          widgets := edited.widgets.filter fun widget =>
            ¬ (widget.dashboardId = row.id ∧ widget.id = widgetId) })

/-! ## Life and membership -/

/-- `delete_dashboard`. -/
def deleteDashboard (caller : UserId) (id : DashboardId) (now : Time) (tables : Tables) :
    Outcome := do
  let (row, shares, role) ← tables.loadDashboardAccess id caller
  if role ≠ .owner then .error ⟨403, "Only the owner can delete"⟩
  else .ok (some ((tables.setDashboard row.id now fun row =>
    { row with deletedAt := some now }).forget (row.userId :: shares.map (·.principal)) row.id))

/-- `restore_dashboard`. -/
def restoreDashboard (caller : UserId) (id : DashboardId) (now : Time) (tables : Tables) :
    Outcome :=
  match tables.dashboards.find? fun row =>
      row.id = id ∧ row.userId = caller ∧ row.deletedAt ≠ none with
  | none => .error dashboardNotFound
  | some row =>
    .ok (some (tables.setDashboard row.id now fun row => { row with deletedAt := none }))

/-- `accept_invite`, of a live invite to a dashboard. -/
def acceptInvite (caller : UserId) (id : DashboardId) (role : ShareRole) (invitedBy : UserId)
    (newShare : Nat) (tables : Tables) : Outcome :=
  match tables.dashboard? id with
  | none => .error ⟨404, inviteDetail⟩
  | some row =>
      if row.userId = caller then .ok none
      else if (heldRole caller (tables.shares row.id)).any
          fun held => isAtLeast held.effective role.effective then .ok none
      else .ok (some (tables.createShare row.id caller role invitedBy newShare))

def onlyOwnerShares : HttpError := ⟨403, "Only the owner can manage sharing"⟩

def shareNotFound : HttpError := ⟨404, "Share not found"⟩

/-- `update_dashboard_share`. -/
def updateDashboardShare (caller : UserId) (id : DashboardId) (shareId : Nat) (role : ShareRole)
    (tables : Tables) : Outcome := do
  let (row, shares, held) ← tables.loadDashboardAccess id caller
  if held ≠ .owner then .error onlyOwnerShares
  else
    match shares.find? fun share => share.id = shareId with
    | none => .error shareNotFound
    | some share =>
        if share.role = role then .ok none
        else .ok (some (tables.setShares row.id (shares.map fun other =>
          if other.id = share.id then { other with role } else other)))

/-- `delete_dashboard_share`. -/
def deleteDashboardShare (caller : UserId) (id : DashboardId) (shareId : Nat)
    (tables : Tables) : Outcome := do
  let (row, shares, held) ← tables.loadDashboardAccess id caller
  if held ≠ .owner then .error onlyOwnerShares
  else
    match shares.find? fun share => share.id = shareId with
    | none => .error shareNotFound
    | some share => .ok (some ((tables.forget [share.principal] row.id).deleteShare row.id share))

/-- `leave_dashboard`. -/
def leaveDashboard (caller : UserId) (id : DashboardId) (tables : Tables) : Outcome := do
  let (row, shares, held) ← tables.loadDashboardAccess id caller
  if held = .owner then
    .error ⟨409, "The owner cannot leave their own dashboard — delete it instead"⟩
  else
    match shares.find? fun share => share.principal = caller with
    | none => .error shareNotFound
    | some share => .ok (some ((tables.forget [caller] row.id).deleteShare row.id share))

/-- `transfer_dashboard_ownership`, to a user whose account is live. -/
def transferDashboardOwnership (caller : UserId) (id : DashboardId) (user : UserId)
    (newShare : Nat) (now : Time) (tables : Tables) : Outcome := do
  let (row, shares, held) ← tables.loadDashboardAccess id caller
  if held ≠ .owner then .error onlyOwnerShares
  else if user = caller then .error ⟨409, "You already own this dashboard"⟩
  else
    match shares.find? fun share => share.principal = user with
    | none => .error ⟨409, "The new owner must already be a member of this dashboard"⟩
    | some share =>
        .ok (some
          (((tables.setDashboard row.id now fun row => { row with userId := user }).deleteShare
          row.id share).createShare row.id caller .editor user newShare))

end FrontDashboard.Resync
