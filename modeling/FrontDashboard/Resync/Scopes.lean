import FrontDashboard.Resync.Answers
import FrontDashboard.Stream.Connection

/-! # The scopes of a resync

What a reconnecting page is told to refetch: the types of the events since its mark, of
dashboards that its user can see now, and the handlers that the page maps them to.
-/

namespace FrontDashboard.Resync

open FrontDashboard.Stream (resyncNeeded)

/-! ## The server -/

namespace Tables

variable (tables : Tables)

/-- The events after a mark. -/
def eventsSince (mark : Nat) : List ActivityEvent :=
  tables.log.filter fun event => mark < event.eventId

/-- `limit` of `entity_types_changed_since`. -/
def changesLimit : Nat := 500

/-- `entity_types_changed_since`. -/
def entityTypesChangedSince (mark : Nat) (visible : List DashboardId) : Option (List String) :=
  let rows := (arranged (fun event other : ActivityEvent => event.eventId < other.eventId)
    (tables.eventsSince mark)).take (changesLimit + 1)
  if changesLimit < rows.length then none
  else some ((rows.filter fun event => ∃ id ∈ event.dashboardId, id ∈ visible).map
    ActivityEvent.entityType).dedup

/-- `_connect_state`: whether a resync is needed, the head and the scopes. -/
def connectState (watermark : Option Nat) (user : UserId) :
    Bool × Option Nat × Option (List String) :=
  let head := tables.currentEventId
  let needed := resyncNeeded watermark head
  match needed, watermark with
  | true, some watermark => (needed, head,
      tables.entityTypesChangedSince watermark (tables.listAccessibleDashboardIds user))
  | _, _ => (needed, head, none)

end Tables

/-- The scopes of `resync_dict`, sorted. -/
def resyncDict (scopes : Option (List String)) : Option (List String) :=
  scopes.map fun scopes => scopes.insertionSort (· ≤ ·)

/-! ## The page -/

inductive EventRoute
  | list
  | calendar
  | dashboard
  deriving DecidableEq

/-- `RESYNC_TARGETS`. -/
def resyncTargets : String → Option (List EventRoute)
  | "list" => some [.list]
  | "list_item" => some [.list]
  | "calendar_event" => some [.calendar]
  | "dashboard" => some [.dashboard]
  | _ => none

/-- `resyncRoutes`, of scopes that are there. -/
def routesOf : List String → Option (List EventRoute)
  | [] => some []
  | scope :: rest =>
      match resyncTargets scope with
      | none => none
      | some targets => (routesOf rest).map (targets ++ ·)

/-- `resyncRoutes`, with `none` for every route. -/
def resyncRoutes (scopes : Option (List String)) : Option (List EventRoute) :=
  scopes.bind routesOf

/-- What `handleListResourceEvent` invalidates for a resync. -/
def Resource.ofLists : Resource → Bool
  | .listSummaries _ | .listDetail _ => true
  | _ => false

/-- What `handleCalendarResourceEvent` invalidates for a resync. -/
def Resource.ofCalendar : Resource → Bool
  | .occurrences _ _ _ | .event _ => true
  | _ => false

/-- What `handleAgendaResourceEvent` invalidates for a resync. -/
def Resource.ofAgenda : Resource → Bool
  | .reminders _ => true
  | _ => false

/-- What `handleMembersResourceEvent` invalidates for a resync. -/
def Resource.ofMembers : Resource → Bool
  | .members _ => true
  | _ => false

/-- What `handleDashboardEvent` reloads for a resync. -/
def Resource.ofDashboards : Resource → Bool
  | .summaries | .dashboard _ => true
  | _ => false

/-- `onResync`: what is invalidated of what is cached. -/
def onResync (routes : Option (List EventRoute)) (cached : List Resource) : List Resource :=
  let wants := fun route => routes.all fun routes => route ∈ routes
  (if wants .list then cached.filter Resource.ofLists else []) ++
    (if wants .calendar then cached.filter Resource.ofCalendar else []) ++
    (if wants .list || wants .calendar then cached.filter Resource.ofAgenda else []) ++
    (if wants .dashboard then
      cached.filter Resource.ofMembers ++ cached.filter Resource.ofDashboards
    else [])

/-- A page that was connected before: its user, its mark and what it has cached. -/
structure Client where
  user : UserId
  mark : Option Nat
  cached : List Resource

/-- What a page invalidates when it is connected again. With a mark it obeys the server's
frame, if there is one; without it resyncs by itself. -/
def Client.reconnect (client : Client) (tables : Tables) : List Resource :=
  match client.mark with
  | none => onResync none client.cached
  | some mark =>
      match tables.connectState (some mark) client.user with
      | (true, _, scopes) => onResync (resyncRoutes (resyncDict scopes)) client.cached
      | (false, _, _) => []

/-- **A scoped resync is as good as a full one**: what is cached and would come differently
has been invalidated. -/
def AsGoodAsFull (context : Context) (client : Client) (before after : Tables) : Prop :=
  ∀ resource ∈ client.cached,
    resource.fetch context client.user before ≠ resource.fetch context client.user after →
      resource ∈ client.reconnect after

end FrontDashboard.Resync
