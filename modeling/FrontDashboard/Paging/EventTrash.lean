import FrontDashboard.Library.KeysetWalk
import FrontDashboard.Library.Timestamp
import FrontDashboard.Library.TransitionSystem
import Mathlib.Data.Prod.Lex

/-! # The pages of the deleted events

`event_trash` lists the deleted events of the dashboards that the caller can see, the last
deleted first. A request that deletes or restores an event reads it without a lock and
writes its row later, whatever the row holds by then.
-/

namespace FrontDashboard.Paging

open Keyset

/-- A UUID by its value. -/
abbrev Id := Nat

/-- A time and, among rows of that time, an id. -/
abbrev Position := Timestamp ×ₗ Nat

structure Failure where
  statusCode : Nat
  detail : String
  deriving DecidableEq

/-- A `datetime` parameter, with a zone or without. -/
inductive Moment
  | naive
  | aware (instant : Timestamp)
  deriving DecidableEq

/-- The checks on the parameters of a cursor, and the position they name. -/
def checkCursor (before : Option Moment) (beforeId : Option Id) :
    Except Failure (Option Position) :=
  match before, beforeId with
  | none, none => .ok none
  | some .naive, some _ => .error ⟨422, "before must be timezone-aware"⟩
  | some (.aware instant), some id => .ok (some (toLex (instant, id)))
  | _, _ => .error ⟨422, "before and before_id must be given together"⟩

/-! ## The route -/

/-- The columns of `calendar_events` that the trash shows. -/
structure CalendarEvent where
  id : Id
  dashboardId : Id
  title : String
  startsAt : Timestamp
  recurring : Bool
  deletedAt : Option Timestamp
  deriving DecidableEq

/-- The order of the trash. The query selects only rows that have a `deleted_at`. -/
def CalendarEvent.position (event : CalendarEvent) : Position :=
  toLex (event.deletedAt.getD 0, event.id)

structure TrashedEventSummary where
  id : Id
  dashboardId : Id
  title : String
  startsAt : Timestamp
  recurring : Bool
  deletedAt : Timestamp
  purgeAt : Nat
  deriving DecidableEq

structure TrashedEventCursor where
  deletedAt : Timestamp
  id : Id
  deriving DecidableEq

structure TrashedEventPage where
  items : List TrashedEventSummary
  nextCursor : Option TrashedEventCursor
  deriving DecidableEq

def trashPageSize : Nat := 200

/-- The events, the dashboards the caller can access, and the requests that have read an event
and not yet written it. -/
structure Calendar where
  events : List CalendarEvent
  distinct : (events.map CalendarEvent.id).Nodup
  accessible : List Id
  deleting : List Id
  restoring : List Id

/-- `retention` is `trash_retention_days`, in microseconds. -/
def summary (retention : Nat) (event : CalendarEvent) : Option TrashedEventSummary :=
  event.deletedAt.map fun deletedAt =>
    ⟨event.id, event.dashboardId, event.title, event.startsAt, event.recurring, deletedAt,
      deletedAt.val + retention⟩

def CalendarEvent.trashedIn (dashboardIds : List Id) (event : CalendarEvent) : Bool :=
  event.deletedAt.isSome && decide (event.dashboardId ∈ dashboardIds)

def trashPage (retention : Nat) (dashboardIds : List Id) (before : Option Position)
    (calendar : Calendar) : TrashedEventPage :=
  let events := ((calendar.events.filter fun event => event.trashedIn dashboardIds &&
    before.all fun bound => decide (event.position < bound)).insertionSort
      fun first second => second.position ≤ first.position).take (trashPageSize + 1)
  let hasMore := decide (trashPageSize < events.length)
  let summaries := (events.take trashPageSize).filterMap (summary retention)
  { items := summaries
    nextCursor :=
      if hasMore then summaries.getLast?.map fun last => ⟨last.deletedAt, last.id⟩ else none }

def eventTrash (retention : Nat) (dashboardId : Option Id) (before : Option Moment)
    (beforeId : Option Id) (calendar : Calendar) : Except Failure TrashedEventPage := do
  let position ← checkCursor before beforeId
  if calendar.accessible = [] then pure ⟨[], none⟩
  else
    match dashboardId with
    | none => pure (trashPage retention calendar.accessible position calendar)
    | some id =>
        if id ∈ calendar.accessible then pure (trashPage retention [id] position calendar)
        else throw ⟨404, "Dashboard not found"⟩

/-! ## Deletions, restores and purges -/

inductive Change
  | inserted (event : CalendarEvent)
  | edited (id : Id) (title : String) (startsAt : Timestamp) (recurring : Bool)
  | deleteRead (id : Id)
  | deleteWritten (id : Id) (now : Timestamp)
  | restoreRead (id : Id)
  | restoreWritten (id : Id)
  | purged (ids : List Id)
  | accessChanged (dashboardIds : List Id)
  deriving DecidableEq

def Calendar.Holds (calendar : Calendar) (id : Id) (trashed : Bool) : Prop :=
  ∃ event ∈ calendar.events, event.id = id ∧ event.deletedAt.isSome = trashed

instance (calendar : Calendar) (id : Id) (trashed : Bool) :
    Decidable (calendar.Holds id trashed) :=
  inferInstanceAs (Decidable (∃ event ∈ calendar.events, _))

/-- The update of the row of an id. -/
def Calendar.update (calendar : Calendar) (id : Id) (change : CalendarEvent → CalendarEvent)
    (keeps : ∀ event, (change event).id = event.id) : Calendar :=
  { calendar with
    events := calendar.events.map fun event => if event.id = id then change event else event
    distinct := by
      rw [List.map_map]
      have same : (CalendarEvent.id ∘ fun event =>
          if event.id = id then change event else event) = CalendarEvent.id := by
        funext event
        dsimp only [Function.comp]
        split
        · exact keeps event
        · rfl
      rw [same]
      exact calendar.distinct }

def Calendar.apply (calendar : Calendar) : Change → Option Calendar
  | .inserted event =>
      if fresh : event.deletedAt = none ∧ event.id ∉ calendar.events.map CalendarEvent.id then
        some { calendar with
          events := event :: calendar.events
          distinct := List.nodup_cons.mpr ⟨fresh.2, calendar.distinct⟩ }
      else none
  | .edited id title startsAt recurring =>
      some (calendar.update id (fun event => { event with title, startsAt, recurring })
        fun _ => rfl)
  | .deleteRead id =>
      if calendar.Holds id false then some { calendar with deleting := id :: calendar.deleting }
      else none
  | .deleteWritten id now =>
      if id ∈ calendar.deleting then
        some ({ calendar with deleting := calendar.deleting.erase id }.update id
          (fun event => { event with deletedAt := some now }) fun _ => rfl)
      else none
  | .restoreRead id =>
      if calendar.Holds id true then some { calendar with restoring := id :: calendar.restoring }
      else none
  | .restoreWritten id =>
      if id ∈ calendar.restoring then
        some ({ calendar with restoring := calendar.restoring.erase id }.update id
          (fun event => { event with deletedAt := none }) fun _ => rfl)
      else none
  | .purged ids =>
      some { calendar with
        events := calendar.events.filter fun event => event.id ∉ ids
        distinct := calendar.distinct.sublist (List.filter_sublist.map CalendarEvent.id) }
  | .accessChanged dashboardIds => some { calendar with accessible := dashboardIds }

/-! ## The walk -/

structure TrashVisit where
  calendar : Calendar
  walk : Walk TrashedEventPage TrashedEventCursor

inductive TrashAction
  | changed (change : Change)
  | fetched
  deriving DecidableEq

/-- A page that is refused leaves the walk where it was. -/
def TrashVisit.step (retention : Nat) (dashboardId : Option Id) (visit : TrashVisit) :
    TrashAction → Option TrashVisit
  | .changed change => (visit.calendar.apply change).map fun calendar => { visit with calendar }
  | .fetched =>
      if visit.walk.Ended then none
      else
        match eventTrash retention dashboardId
            (visit.walk.cursor.map fun cursor => .aware cursor.deletedAt)
            (visit.walk.cursor.map TrashedEventCursor.id) visit.calendar with
        | .ok page => some { visit with walk := visit.walk.take page page.nextCursor }
        | .error _ => some visit

def trashVisits (retention : Nat) (dashboardId : Option Id) (start : Calendar) :
    TransitionSystem TrashVisit TrashAction where
  Initial visit := visit = ⟨start, .begin⟩
  step visit := visit.step retention dashboardId

/-- The dashboards whose deleted events are asked for. -/
def Calendar.scope (calendar : Calendar) (dashboardId : Option Id) : List Id :=
  match dashboardId with
  | none => calendar.accessible
  | some id => calendar.accessible.filter fun other => other = id

def Calendar.trashed (calendar : Calendar) (dashboardId : Option Id) : List CalendarEvent :=
  calendar.events.filter (·.trashedIn (calendar.scope dashboardId))

/-- The event is in the listing that is walked. -/
def TrashVisit.Lists (dashboardId : Option Id) (visit : TrashVisit) (id : Id) : Prop :=
  id ∈ (visit.calendar.trashed dashboardId).map CalendarEvent.id

/-- A deletion writes an event that is in the trash already. -/
def TrashVisit.Restamps (visit : TrashVisit) : TrashAction → Prop
  | .changed (.deleteWritten id _) => visit.calendar.Holds id true
  | _ => False

instance (visit : TrashVisit) (action : TrashAction) : Decidable (visit.Restamps action) :=
  match action with
  | .changed (.deleteWritten id _) => inferInstanceAs (Decidable (visit.calendar.Holds id true))
  | .changed (.inserted _) | .changed (.edited _ _ _ _) | .changed (.deleteRead _)
  | .changed (.restoreRead _) | .changed (.restoreWritten _) | .changed (.purged _)
  | .changed (.accessChanged _) | .fetched => isFalse not_false

/-- The ids on the pages of the walk. -/
def TrashVisit.shown (visit : TrashVisit) : List Id :=
  visit.walk.pages.flatMap fun page => page.items.map TrashedEventSummary.id

end FrontDashboard.Paging
