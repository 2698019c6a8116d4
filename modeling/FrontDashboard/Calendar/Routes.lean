import FrontDashboard.Calendar.Listing
import FrontDashboard.Library.TransitionSystem

/-! # The writes of the calendar

`create_event`, `update_event`, `update_occurrence`, `delete_event`, `restore_event` and
`purge_trashed_event`, of a caller who may edit the dashboard. A refused request leaves
the tables as they are.
-/

namespace FrontDashboard.Calendar

/-- `CalendarEventCreate`. -/
structure CalendarEventCreate where
  dashboardId : DashboardId
  title : String
  description : Option String
  location : Option String
  startsAt : Int
  endsAt : Int
  timezone : TimezoneName
  allDay : Bool
  recurrence : Option RecurrenceRule

/-- `CalendarEventUpdate`. A field that may be cleared is present or not, and then empty or
not. -/
structure CalendarEventUpdate where
  title : Option String
  description : Option (Option String)
  location : Option (Option String)
  startsAt : Option Int
  endsAt : Option Int
  timezone : Option TimezoneName
  allDay : Option Bool
  recurrence : Option (Option RecurrenceRule)

/-- `CalendarOccurrenceUpdate`. -/
structure CalendarOccurrenceUpdate where
  occurrenceStart : Int
  cancelled : Bool
  title : Option String
  description : Option String
  location : Option String
  startsAt : Option Int
  endsAt : Option Int
  timezone : Option TimezoneName
  allDay : Option Bool

structure Settings where
  quotaOverridesPerEvent : Nat

def unprocessable (detail : String) : HttpError := ⟨422, detail⟩

def eventNotFound : HttpError := ⟨404, "Event not found"⟩

/-- A number with commas between its thousands. -/
def thousands (count : Nat) : String :=
  if count < 1000 then toString count
  else
    let last := toString (count % 1000)
    thousands (count / 1000) ++ "," ++ "".pushn '0' (3 - last.length) ++ last

def tooManyEdits (cap : Nat) : String :=
  "This series already has " ++ thousands cap ++ " edited occurrences. Change one of those, or " ++
    "create a separate event."

/-- `astimezone(UTC)` of a time in a request. -/
def asUtc (instant : Int) : Except HttpError Int :=
  (checked instant).mapError fun _ => internalError

variable (zoneInfo : TimezoneName → Zone) (settings : Settings)

/-- `normalize_all_day_bounds`. -/
def normalizeAllDayBounds (startsAt endsAt : Int) (timezone : TimezoneName) :
    Except CalendarExpansionError (Int × Int) := do
  let zone := zoneInfo timezone
  let startLocal ← zone.toLocal startsAt
  let endLocal ← zone.toLocal endsAt
  let firstDay := startLocal / day
  let beforeEnd ← checked (endLocal - 1)
  let lastDay := max firstDay (beforeEnd / day)
  if maxOrdinal < lastDay + 1 then .error .range
  else do
    let first ← zone.localToUtc firstDay 0
    let last ← zone.localToUtc (lastDay + 1) 0
    .ok (first, last)

/-- The times of an event, as its `all_day` has them. -/
def settledTimes (allDay : Bool) (startsAt endsAt : Int) (timezone : TimezoneName) :
    Except HttpError (Int × Int) :=
  if allDay then
    (normalizeAllDayBounds zoneInfo startsAt endsAt timezone).mapError fun _ => internalError
  else .ok (startsAt, endsAt)

/-- `MAX_OCCURRENCE_DURATION`. -/
def maxOccurrenceDuration : Int := 31 * day

/-- `assert_expandable`. -/
def assertExpandable (event : CalendarEvent) : Except CalendarExpansionError Unit :=
  if event.recurrence.isSome ∧ maxOccurrenceDuration < event.duration then .error .duration
  else .ok ()

/-- The event is written, unless it cannot be expanded or its times fail the table's check. -/
def flushed (event : CalendarEvent) : Except HttpError CalendarEvent :=
  match assertExpandable event with
  | .error error => .error (unprocessable error.message)
  | .ok () => if event.startsAt < event.endsAt then .ok event else .error internalError

/-- The rule ends after the event starts. -/
def endsAfterStart (rule : RecurrenceRule) (startsAt : Int) : Prop :=
  ∀ untilAt ∈ rule.untilAt, startsAt < untilAt

instance (rule : RecurrenceRule) (startsAt : Int) : Decidable (endsAfterStart rule startsAt) :=
  inferInstanceAs (Decidable (∀ untilAt ∈ rule.untilAt, startsAt < untilAt))

/-- The row `create_event` writes. -/
def createdEvent (id : EventId) (caller : UserId) (body : CalendarEventCreate) :
    Except HttpError CalendarEvent :=
  if body.endsAt ≤ body.startsAt then .error (unprocessable "ends_at must be after starts_at")
  else if ∃ rule ∈ body.recurrence, ¬ endsAfterStart rule body.startsAt then
    .error (unprocessable "recurrence until must be after starts_at")
  else do
    let startsAt ← asUtc body.startsAt
    let endsAt ← asUtc body.endsAt
    let times ← settledTimes zoneInfo body.allDay startsAt endsAt body.timezone
    flushed
      { id := id, dashboardId := body.dashboardId, createdBy := caller, updatedBy := caller
        title := body.title, description := body.description, location := body.location
        startsAt := times.1, endsAt := times.2, timezone := body.timezone, allDay := body.allDay
        recurrence := body.recurrence, deletedAt := none }

/-- The recurrence `update_event` settles on, the event starting at an instant. -/
def settledRecurrence (event : CalendarEvent) (body : CalendarEventUpdate) (startsAt : Int) :
    Except HttpError (Option RecurrenceRule) :=
  match body.recurrence with
  | none => .ok event.recurrence
  | some none => .ok none
  | some (some rule) =>
      if endsAfterStart rule startsAt then .ok (some rule)
      else .error (unprocessable "recurrence until must be after starts_at")

/-- The row `update_event` writes. -/
def revisedEvent (event : CalendarEvent) (caller : UserId) (body : CalendarEventUpdate) :
    Except HttpError CalendarEvent := do
  let startsAt ← body.startsAt.elim (.ok event.startsAt) asUtc
  let endsAt ← body.endsAt.elim (.ok event.endsAt) asUtc
  if endsAt ≤ startsAt then .error (unprocessable "ends_at must be after starts_at")
  else do
    let timezone := body.timezone.getD event.timezone
    let allDay := body.allDay.getD event.allDay
    let times ← settledTimes zoneInfo allDay startsAt endsAt timezone
    let recurrence ← settledRecurrence event body times.1
    flushed
      { event with
        updatedBy := caller, title := body.title.getD event.title
        description := body.description.getD event.description
        location := body.location.getD event.location
        startsAt := times.1, endsAt := times.2, timezone := timezone, allDay := allDay
        recurrence := recurrence }

namespace Tables

/-- `_get_event_access`, less the access. -/
def liveEvent (tables : Tables) (eventId : EventId) : Option CalendarEvent :=
  tables.events.find? fun event => event.id == eventId && event.deletedAt.isNone

def trashedEvent (tables : Tables) (eventId : EventId) : Option CalendarEvent :=
  tables.events.find? fun event => event.id == eventId && event.deletedAt.isSome

def setEvent (tables : Tables) (changed : CalendarEvent) : Tables :=
  { tables with
    events := tables.events.map fun event => if event.id = changed.id then changed else event }

/-- The overrides of an event are deleted. -/
def dropOverrides (tables : Tables) (eventId : EventId) : Tables :=
  { tables with
    overrides := tables.overrides.filter fun override => override.calendarEventId != eventId }

def createEvent (tables : Tables) (id : EventId) (caller : UserId) (body : CalendarEventCreate) :
    Except HttpError Tables := do
  let event ← createdEvent zoneInfo id caller body
  if id ∈ tables.events.map (·.id) then .error internalError
  else .ok { tables with events := tables.events ++ [event] }

def updateEvent (tables : Tables) (eventId : EventId) (caller : UserId)
    (body : CalendarEventUpdate) : Except HttpError Tables :=
  match tables.liveEvent eventId with
  | none => .error eventNotFound
  | some event => do
      let revised ← revisedEvent zoneInfo event caller body
      -- An override identifies one occurrence of a series, so they go with the series.
      if event.recurrence.isSome ∧ revised.recurrence.isNone then
        .ok ((tables.setEvent revised).dropOverrides eventId)
      else .ok (tables.setEvent revised)

/-- The override `update_occurrence` writes, in the place of the one there is. -/
def overridden (tables : Tables) (event : CalendarEvent) (caller : UserId)
    (body : CalendarOccurrenceUpdate) : CalendarEventOverride :=
  { calendarEventId := event.id, occurrenceStart := body.occurrenceStart
    createdBy := (overrideAt (tables.overridesOf event.id) body.occurrenceStart).elim caller
      (·.createdBy)
    updatedBy := caller, cancelled := body.cancelled, title := body.title
    description := body.description, location := body.location, startsAt := body.startsAt
    endsAt := body.endsAt, timezone := body.timezone, allDay := body.allDay }

/-- The other overrides. -/
def otherOverrides (tables : Tables) (eventId : EventId) (occurrenceStart : Int) :
    List CalendarEventOverride :=
  tables.overrides.filter fun override =>
    !(override.calendarEventId == eventId && override.occurrenceStart == occurrenceStart)

/-- The validator of `CalendarOccurrenceUpdate`. -/
def checkOverride (body : CalendarOccurrenceUpdate) : Except HttpError Unit :=
  if body.startsAt.isSome ≠ body.endsAt.isSome then
    .error (unprocessable "starts_at and ends_at must be provided together")
  else if ∃ startsAt ∈ body.startsAt, ∃ endsAt ∈ body.endsAt, endsAt ≤ startsAt then
    .error (unprocessable "ends_at must be after starts_at")
  else .ok ()

def updateOccurrence (tables : Tables) (eventId : EventId) (caller : UserId)
    (body : CalendarOccurrenceUpdate) : Except HttpError Tables := do
  checkOverride body
  match tables.liveEvent eventId with
  | none => .error eventNotFound
  | some event =>
      if event.recurrence.isNone then
        .error ⟨409, "Only recurring events support occurrence overrides"⟩
      else do
        let _ ← asUtc body.occurrenceStart
        if overrideAt (tables.overridesOf event.id) body.occurrenceStart = none ∧
            settings.quotaOverridesPerEvent ≤ (tables.overridesOf event.id).length then
          .error (unprocessable (tooManyEdits settings.quotaOverridesPerEvent))
        else do
          let override := tables.overridden event caller body
          let _ ← (body.startsAt.elim (.ok 0) asUtc : Except HttpError Int)
          let _ ← (body.endsAt.elim (.ok 0) asUtc : Except HttpError Int)
          let _ ← (buildOccurrence event (some override) override.occurrenceStart
            event.duration).mapError fun error => unprocessable error.message
          .ok { tables with
            overrides := tables.otherOverrides event.id body.occurrenceStart ++ [override] }

def deleteEvent (tables : Tables) (eventId : EventId) (caller : UserId) (now : Int) :
    Except HttpError Tables :=
  match tables.liveEvent eventId with
  | none => .error eventNotFound
  | some event => .ok (tables.setEvent { event with deletedAt := some now, updatedBy := caller })

def restoreEvent (tables : Tables) (eventId : EventId) (caller : UserId) :
    Except HttpError Tables :=
  match tables.trashedEvent eventId with
  | none => .error eventNotFound
  | some event => .ok (tables.setEvent { event with deletedAt := none, updatedBy := caller })

/-- The overrides go with the row. -/
def purgeTrashedEvent (tables : Tables) (eventId : EventId) : Except HttpError Tables :=
  match tables.trashedEvent eventId with
  | none => .error eventNotFound
  | some _ => .ok ({ tables with
      events := tables.events.filter fun event => event.id != eventId }.dropOverrides eventId)

end Tables

/-- The requests that write. -/
inductive Request
  | createEvent (id : EventId) (caller : UserId) (body : CalendarEventCreate)
  | updateEvent (eventId : EventId) (caller : UserId) (body : CalendarEventUpdate)
  | updateOccurrence (eventId : EventId) (caller : UserId) (body : CalendarOccurrenceUpdate)
  | deleteEvent (eventId : EventId) (caller : UserId) (now : Int)
  | restoreEvent (eventId : EventId) (caller : UserId)
  | purgeTrashedEvent (eventId : EventId)

def handle (tables : Tables) : Request → Except HttpError Tables
  | .createEvent id caller body => tables.createEvent zoneInfo id caller body
  | .updateEvent eventId caller body => tables.updateEvent zoneInfo eventId caller body
  | .updateOccurrence eventId caller body =>
      tables.updateOccurrence settings eventId caller body
  | .deleteEvent eventId caller now => tables.deleteEvent eventId caller now
  | .restoreEvent eventId caller => tables.restoreEvent eventId caller
  | .purgeTrashedEvent eventId => tables.purgeTrashedEvent eventId

/-- The calendar from empty tables on. -/
def system : TransitionSystem Tables Request where
  Initial := fun tables => tables = ⟨[], []⟩
  step := fun tables request => (handle zoneInfo settings tables request).toOption

end FrontDashboard.Calendar
