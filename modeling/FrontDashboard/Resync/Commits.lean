import FrontDashboard.Resync.Routes

/-! # The commits behind a page's back

Every request that is committed logs one event, of a type and about a dashboard. A history
is a list of such commits, whose events have ever larger ids.
-/

namespace FrontDashboard.Resync

open Boards (LayoutUpdate WidgetCreate)
open Calendar (TimezoneName Zone)
open FrontDashboard.Lists (ListId)
open Lists.Page (Mutation)
open FrontDashboard.Membership (ShareRole)

/-- What an event is about. -/
inductive EntityType
  | dashboard
  | list
  | listItem
  | calendarEvent
  deriving DecidableEq

/-- The `entity_type` of a row. -/
def EntityType.text : EntityType → String
  | .dashboard => "dashboard"
  | .list => "list"
  | .listItem => "list_item"
  | .calendarEvent => "calendar_event"

/-- The requests, with the ids that are drawn and the time. Those on lists and items say
which role the caller has on the dashboard. -/
inductive Request
  | createDashboard (caller : UserId) (id : DashboardId) (name : String) (now : Time)
  | updateDashboardMeta (caller : UserId) (id : DashboardId) (name : Option String) (now : Time)
  | updateLayout (caller : UserId) (id : DashboardId) (body : LayoutUpdate) (now : Time)
  | addWidget (caller : UserId) (id : DashboardId) (body : WidgetCreate) (name config : String)
      (newWidget : Uuid) (newList : ListId) (now : Time)
  | updateWidget (caller : UserId) (id : DashboardId) (widget : Uuid) (config : String)
      (now : Time)
  | deleteWidget (caller : UserId) (id : DashboardId) (widget : Uuid) (now : Time)
  | deleteDashboard (caller : UserId) (id : DashboardId) (now : Time)
  | restoreDashboard (caller : UserId) (id : DashboardId) (now : Time)
  | acceptInvite (caller : UserId) (id : DashboardId) (role : ShareRole) (invitedBy : UserId)
      (newShare : Nat)
  | updateDashboardShare (caller : UserId) (id : DashboardId) (share : Nat) (role : ShareRole)
  | deleteDashboardShare (caller : UserId) (id : DashboardId) (share : Nat)
  | leaveDashboard (caller : UserId) (id : DashboardId)
  | transferDashboardOwnership (caller : UserId) (id : DashboardId) (user : UserId)
      (newShare : Nat) (now : Time)
  | lists (mutation : Mutation)
  | calendar (request : Calendar.Request)

/-- The `entity_type` that a mutation of lists logs. -/
def mutationType : Mutation → EntityType
  | .createList .. | .updateListName .. | .deleteList .. | .restoreList .. => .list
  | .reorderLists .. => .dashboard
  | .addListItem .. | .updateListItem .. | .deleteListItem .. | .reorderListItems .. => .listItem

/-- The list that a mutation names. -/
def mutatedList : Mutation → Option ListId
  | .createList .. | .reorderLists .. => none
  | .updateListName _ id _ _ | .deleteList _ id _ | .restoreList _ id _ _ => some id
  | .addListItem _ id _ _ _ | .updateListItem _ id _ _ | .deleteListItem _ id _
  | .reorderListItems _ id _ => some id

namespace Tables

variable (tables : Tables)

/-- The dashboard of a list. -/
def dashboardOfList (list : ListId) : Option DashboardId :=
  (tables.lists.lists.find? fun row => row.id = list).map (·.dashboardId)

/-- The dashboard of an event. -/
def dashboardOfEvent (event : Calendar.EventId) : Option DashboardId :=
  (tables.calendar.events.find? fun row => row.id = event).map (·.dashboardId)

/-- The dashboard that a mutation of lists is on. -/
def mutatedDashboard (mutation : Mutation) : Option DashboardId :=
  match mutation with
  | .createList _ _ _ _ id _ _ | .reorderLists _ id _ _ => some id
  | _ => (mutatedList mutation).bind tables.dashboardOfList

/-- The dashboard that a request on the calendar is on. A purge logs nothing. -/
def scheduledDashboard : Calendar.Request → Option DashboardId
  | .createEvent _ _ body => some body.dashboardId
  | .updateEvent event _ _ | .updateOccurrence event _ _ | .deleteEvent event _ _
  | .restoreEvent event _ => tables.dashboardOfEvent event
  | .purgeTrashedEvent _ => none

/-- What a mutation leaves on the dashboards: that of a list's deletion unbinds its widgets. -/
def unbound : Mutation → Tables
  | .deleteList _ id now => tables.removeResourceWidgets id now
  | _ => tables

end Tables

variable (zoneInfo : TimezoneName → Zone) (settings : Settings)

/-- The dashboard of a request and what the request makes of the rows. -/
def perform (tables : Tables) : Request → Option (DashboardId × Outcome)
  | .createDashboard caller id name now =>
      some (id, createDashboard settings caller id name now tables)
  | .updateDashboardMeta caller id name now =>
      some (id, updateDashboardMeta caller id name now tables)
  | .updateLayout caller id body now => some (id, updateLayout caller id body now tables)
  | .addWidget caller id body name config newWidget newList now =>
      some (id, addWidget settings caller id body name config newWidget newList now tables)
  | .updateWidget caller id widget config now =>
      some (id, updateWidget caller id widget config now tables)
  | .deleteWidget caller id widget now => some (id, deleteWidget caller id widget now tables)
  | .deleteDashboard caller id now => some (id, deleteDashboard caller id now tables)
  | .restoreDashboard caller id now => some (id, restoreDashboard caller id now tables)
  | .acceptInvite caller id role invitedBy newShare =>
      some (id, acceptInvite caller id role invitedBy newShare tables)
  | .updateDashboardShare caller id share role =>
      some (id, updateDashboardShare caller id share role tables)
  | .deleteDashboardShare caller id share =>
      some (id, deleteDashboardShare caller id share tables)
  | .leaveDashboard caller id => some (id, leaveDashboard caller id tables)
  | .transferDashboardOwnership caller id user newShare now =>
      some (id, transferDashboardOwnership caller id user newShare now tables)
  | .lists mutation =>
      (tables.mutatedDashboard mutation).map fun id => (id,
        if (tables.dashboard? id).isNone then .error Boards.dashboardNotFound
        else (Lists.Page.serve settings.lists mutation tables.lists).map fun served =>
          some { tables.unbound mutation with lists := served.2 })
  | .calendar request =>
      (tables.scheduledDashboard request).map fun id => (id,
        if (tables.dashboard? id).isNone then .error Boards.dashboardNotFound
        else (Calendar.handle zoneInfo settings.calendar tables.calendar request).map
          fun calendar =>
          some { tables with calendar })

/-- The `entity_type` that a request logs. -/
def Request.entityType : Request → EntityType
  | .lists mutation => mutationType mutation
  | .calendar _ => .calendarEvent
  | _ => .dashboard

/-- A request, with the id that its event is given. -/
structure Commit where
  eventId : Nat
  request : Request

/-- The rows after a commit, its event among them. -/
def commit (tables : Tables) (commit : Commit) : Option Tables :=
  if tables.currentEventId.getD 0 < commit.eventId then
    match perform zoneInfo settings tables commit.request with
    | some (id, .ok (some next)) => some { next with
        log := tables.log ++ [⟨commit.eventId, commit.request.entityType.text, some id⟩] }
    | _ => none
  else none

/-- The rows after a history. -/
def replay : List Commit → Tables → Option Tables
  | [], tables => some tables
  | first :: rest, tables => (commit zoneInfo settings tables first).bind (replay rest)

end FrontDashboard.Resync
