import FrontDashboard.Lists.Reminders
import FrontDashboard.Resync.Commits

/-! # What the server answers for each cached resource

The routes that fill the caches of a page, and the resources it may hold by them. Rows that
an `ORDER BY` does not tell apart come as the table has them.
-/

namespace FrontDashboard.Resync

open Access (canEdit canManageShares)
open Boards (Layout)
open Calendar (CalendarEvent EventId ExpandedOccurrence HttpError TimezoneName Zone
  eventNotFound listOccurrences)
open FrontDashboard.Lists (ListId Row shown)
open Lists.Page (ListDetail ListRow ListSummary Reminder fetchAgendaReminders
  listNotFound)
open FrontDashboard.Membership (effectiveRole)

/-- What answers depend on beside the rows: the time zones, how texts are compared, the names
of users, and the day of the page. -/
structure Context where
  zoneInfo : TimezoneName → Zone
  lower : String → String
  casefold : String → String
  displayName : UserId → String
  today : Nat

/-- The rows in an order, those that it does not tell apart as they come. -/
def arranged {α : Type} (before : α → α → Prop) [DecidableRel before] (rows : List α) : List α :=
  rows.insertionSort fun row other => ¬ before other row

namespace Tables

variable (user : UserId) (tables : Tables)

/-! ## Dashboards -/

structure DashboardSummary where
  id : DashboardId
  userId : UserId
  name : String
  accessDescription : String
  isShared : Bool
  canEdit : Bool
  canManageShares : Bool
  isFavorite : Bool
  version : Int
  createdAt : Time
  updatedAt : Time

/-- Favorites come first, then what was updated last. -/
def ListedBefore (row other : Dashboard) : Prop :=
  (row.id ∈ tables.favorites user ∧ other.id ∉ tables.favorites user) ∨
    ((row.id ∈ tables.favorites user ↔ other.id ∈ tables.favorites user) ∧
      other.updatedAt < row.updatedAt)

instance : DecidableRel (tables.ListedBefore user) := fun row other =>
  inferInstanceAs (Decidable
    ((row.id ∈ tables.favorites user ∧ other.id ∉ tables.favorites user) ∨
      ((row.id ∈ tables.favorites user ↔ other.id ∈ tables.favorites user) ∧
        other.updatedAt < row.updatedAt)))

/-- `_to_summary`, of a row that is listed. -/
def summary (row : Dashboard) : DashboardSummary :=
  let role := effectiveRole row.userId user (tables.shares row.id)
  { id := row.id
    userId := row.userId
    name := row.name
    accessDescription :=
      if row.userId = user then "Owned by you"
      else if ∃ share ∈ tables.shares row.id, share.principal = user then
        "Shared directly with you"
      else "Shared with you"
    isShared := tables.shares row.id ≠ []
    canEdit := role.any Access.canEdit
    canManageShares := role.any Access.canManageShares
    isFavorite := row.id ∈ tables.favorites user
    version := row.version
    createdAt := row.createdAt
    updatedAt := row.updatedAt }

/-- `list_dashboards`. -/
def listDashboards : List DashboardSummary :=
  (arranged (tables.ListedBefore user)
    (tables.dashboards.filter fun row => tables.Accessible user row)).map (tables.summary user)

structure DashboardResponse where
  id : DashboardId
  userId : UserId
  name : String
  isShared : Bool
  canEdit : Bool
  canManageShares : Bool
  isFavorite : Bool
  layout : Layout
  version : Int
  widgets : List Widget

/-- `get_dashboard`. -/
def getDashboard (id : DashboardId) : Except HttpError DashboardResponse := do
  let (row, shares, role) ← tables.loadDashboardAccess id user
  .ok {
    id := row.id
    userId := row.userId
    name := row.name
    isShared := shares ≠ []
    canEdit := canEdit role
    canManageShares := canManageShares role
    isFavorite := row.id ∈ tables.favorites user
    layout := row.layout
    version := row.version
    widgets := tables.widgetsOf row.id }

structure DashboardMember where
  userId : UserId
  displayName : String

/-- `list_dashboard_members`: the owner, then the others by name. -/
def listDashboardMembers (context : Context) (id : DashboardId) :
    Except HttpError (List DashboardMember) := do
  let (row, shares, _) ← tables.loadDashboardAccess id user
  let named := fun member => (⟨member, context.displayName member⟩ : DashboardMember)
  .ok (named row.userId ::
    arranged (fun member other : DashboardMember =>
      context.casefold member.displayName < context.casefold other.displayName)
      ((shares.map (·.principal)).dedup.map named))

/-! ## Lists -/

/-- The lists of a dashboard in their order. -/
def orderedLists (id : DashboardId) : List ListRow :=
  arranged ListRow.Before (tables.lists.live id)

/-- `list_lists`, of one dashboard. -/
def listLists (id : DashboardId) : Except HttpError (List ListSummary) :=
  let accessible := tables.listAccessibleDashboardIds user
  if accessible = [] then .ok []
  else if id ∉ accessible then .error Boards.dashboardNotFound
  else .ok ((tables.orderedLists id).map fun row => row.response (tables.lists.itemCount row.id))

/-- A list with its items in their order. -/
def detail (row : ListRow) : ListDetail :=
  let items := tables.lists.items row.id
  { row.response items.length with items := shown (arranged Row.Before items) }

/-- `get_list`. -/
def getList (list : ListId) : Except HttpError ListDetail :=
  match tables.lists.row? false list with
  | none => .error listNotFound
  | some row => do
      let _ ← tables.loadDashboardAccess row.dashboardId user
      .ok (tables.detail row)

/-- `list_list_details`. -/
def listListDetails (id : DashboardId) : Except HttpError (List ListDetail) := do
  let _ ← tables.loadDashboardAccess id user
  .ok ((tables.orderedLists id).map tables.detail)

/-! ## Calendar -/

/-- `get_event`. -/
def getEvent (id : EventId) : Except HttpError CalendarEvent :=
  match tables.calendar.liveEvent id with
  | none => .error eventNotFound
  | some event => do
      let _ ← tables.loadDashboardAccess event.dashboardId user
      .ok event

end Tables

/-! ## Resources -/

/-- What a page may have cached: the summaries, its active dashboard, the members of a
dashboard, its lists, one list, the reminders of its agenda, a window of its calendar or of
all calendars, and one event. -/
inductive Resource
  | summaries
  | dashboard (id : DashboardId)
  | members (id : DashboardId)
  | listSummaries (id : DashboardId)
  | listDetail (list : ListId)
  | reminders (id : DashboardId)
  | occurrences (id : Option DashboardId) (windowStart windowEnd : Int)
  | event (id : EventId)
  deriving DecidableEq

/-- What a fetch brings. -/
inductive Content
  | refused
  | summaries (summaries : List Tables.DashboardSummary)
  | dashboard (dashboard : Tables.DashboardResponse)
  | members (members : List Tables.DashboardMember)
  | listSummaries (lists : List ListSummary)
  | listDetail (list : ListDetail)
  | reminders (reminders : List Reminder)
  | occurrences (occurrences : List ExpandedOccurrence)
  | event (event : CalendarEvent)

/-- The content of an answer. -/
def Content.of {α : Type} (make : α → Content) : Except HttpError α → Content
  | .error _ => .refused
  | .ok answer => make answer

/-- The fetcher of each resource. -/
def Resource.fetch (context : Context) (user : UserId) (tables : Tables) : Resource → Content
  | .summaries => .summaries (tables.listDashboards user)
  | .dashboard id => .of .dashboard (tables.getDashboard user id)
  | .members id => .of .members (tables.listDashboardMembers user context id)
  | .listSummaries id => .of .listSummaries (tables.listLists user id)
  | .listDetail list => .of .listDetail (tables.getList user list)
  | .reminders id =>
      .of (fun details => .reminders (fetchAgendaReminders context.today details))
        (tables.listListDetails user id)
  | .occurrences id windowStart windowEnd =>
      .of .occurrences (listOccurrences context.zoneInfo context.lower tables.calendar
        (tables.listAccessibleDashboardIds user) id windowStart windowEnd)
  | .event id => .of .event (tables.getEvent user id)

end FrontDashboard.Resync
