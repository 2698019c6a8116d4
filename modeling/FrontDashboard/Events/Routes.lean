import FrontDashboard.Calendar.Routes
import FrontDashboard.Library.ReadCommitted

/-! # The writes of the calendar beside each other

`create_event`, `update_event` and `update_occurrence`, of callers who may edit the
dashboard, each as the program of its database statements. A request changes the columns in
which its row differs from the row that it has read. A statement that changes a row waits
for the row's lock, and so does one that inserts under a key that another has inserted.
-/

namespace FrontDashboard.Events

open ReadCommitted ReadCommitted.Program
open Calendar

inductive Lock
  | event (id : EventId)
  | override (id : EventId) (occurrenceStart : Int)
  deriving DecidableEq

/-- One row change. An update carries the row as the request read it and as it left it, and
the writes of an event also the body of the request. -/
inductive Write
  | insertEvent (event : CalendarEvent) (body : CalendarEventCreate)
  | updateEvent (read revised : CalendarEvent) (body : CalendarEventUpdate)
  | deleteOverrides (id : EventId) (occurrenceStarts : List Int)
  | insertOverride (override : CalendarEventOverride)
  | updateOverride (read revised : CalendarEventOverride)

/-- A column of an updated row. -/
def column {α : Type} [DecidableEq α] (read revised row : α) : α :=
  if revised = read then row else revised

def mergedEvent (read revised row : CalendarEvent) : CalendarEvent :=
  { row with
    updatedBy := column read.updatedBy revised.updatedBy row.updatedBy
    title := column read.title revised.title row.title
    description := column read.description revised.description row.description
    location := column read.location revised.location row.location
    startsAt := column read.startsAt revised.startsAt row.startsAt
    endsAt := column read.endsAt revised.endsAt row.endsAt
    timezone := column read.timezone revised.timezone row.timezone
    allDay := column read.allDay revised.allDay row.allDay
    recurrence := column read.recurrence revised.recurrence row.recurrence }

def mergedOverride (read revised row : CalendarEventOverride) : CalendarEventOverride :=
  { row with
    updatedBy := column read.updatedBy revised.updatedBy row.updatedBy
    cancelled := column read.cancelled revised.cancelled row.cancelled
    title := column read.title revised.title row.title
    description := column read.description revised.description row.description
    location := column read.location revised.location row.location
    startsAt := column read.startsAt revised.startsAt row.startsAt
    endsAt := column read.endsAt revised.endsAt row.endsAt
    timezone := column read.timezone revised.timezone row.timezone
    allDay := column read.allDay revised.allDay row.allDay }

/-- The key of an override. -/
def isAt (id : EventId) (occurrenceStart : Int) (override : CalendarEventOverride) : Bool :=
  override.calendarEventId = id && override.occurrenceStart = occurrenceStart

def perform (tables : Tables) : Write → Tables
  | .insertEvent event _ => { tables with events := tables.events ++ [event] }
  | .updateEvent read revised _ =>
      { tables with
        events := tables.events.map fun row =>
          if row.id = read.id then mergedEvent read revised row else row }
  | .deleteOverrides id occurrenceStarts =>
      { tables with
        overrides := tables.overrides.filter fun row =>
          !(row.calendarEventId = id && row.occurrenceStart ∈ occurrenceStarts) }
  | .insertOverride override => { tables with overrides := tables.overrides ++ [override] }
  | .updateOverride read revised =>
      { tables with
        overrides := tables.overrides.map fun row =>
          if isAt read.calendarEventId read.occurrenceStart row then mergedOverride read revised row
          else row }

abbrev Handler := Program Tables Write Lock HttpError

/-- What a pure part of a route answers or raises. -/
def orRaise {α : Type} : Except HttpError α → Handler α
  | .error error => raise error
  | .ok value => pure value

variable (zoneInfo : TimezoneName → Zone) (settings : Settings)

/-- `create_event`, with the id that the row gets. -/
def createEvent (id : EventId) (caller : UserId) (body : CalendarEventCreate) :
    Handler Unit := do
  let event ← orRaise (createdEvent zoneInfo id caller body)
  acquire (.event id)
  let taken ← updateReturning (fun _ => [.insertEvent event body]) fun tables =>
    tables.events.any (·.id = id)
  if taken then raise internalError else commitTransaction

/-- The row that an update is to leave is there, and passes the check of the table. -/
def passes (read revised : CalendarEvent) (tables : Tables) : Bool :=
  match tables.events.find? (·.id = read.id) with
  | none => false
  | some row =>
      let merged := mergedEvent read revised row
      merged.startsAt < merged.endsAt

/-- The overrides of an event are deleted. -/
def dropOverrides (id : EventId) : Handler Unit := do
  let starts ← query fun tables => (tables.overridesOf id).map (·.occurrenceStart)
  acquireAll (starts.map (.override id))
  update fun _ => [.deleteOverrides id starts]

/-- `update_event`. -/
def updateEvent (id : EventId) (caller : UserId) (body : CalendarEventUpdate) :
    Handler Unit := do
  match ← query fun tables => tables.liveEvent id with
  | none => raise eventNotFound
  | some event => do
    let revised ← orRaise (revisedEvent zoneInfo event caller body)
    acquire (.event event.id)
    let passed ← updateReturning (fun _ => [.updateEvent event revised body])
      (passes event revised)
    if !passed then raise internalError
    else if event.recurrence.isSome ∧ revised.recurrence.isNone then do
      dropOverrides event.id
      commitTransaction
    else commitTransaction

/-- The times of an override pass the check of the table. -/
def inOrder (override : CalendarEventOverride) : Bool :=
  decide (∀ startsAt ∈ override.startsAt, ∀ endsAt ∈ override.endsAt, startsAt < endsAt)

/-- The override that an update is to leave is there, and passes the check. -/
def overridePasses (read revised : CalendarEventOverride) (tables : Tables) : Bool :=
  match tables.overrides.find? (isAt read.calendarEventId read.occurrenceStart) with
  | none => false
  | some row => inOrder (mergedOverride read revised row)

/-- The flush of an occurrence edit, and the commit. -/
def writeOverride (existing : Option CalendarEventOverride) (override : CalendarEventOverride) :
    Handler Unit := do
  acquire (.override override.calendarEventId override.occurrenceStart)
  match existing with
  | none => do
    let refused ← updateReturning (fun _ => [.insertOverride override]) fun tables =>
      tables.overrides.any (isAt override.calendarEventId override.occurrenceStart) ||
        !tables.events.any (·.id = override.calendarEventId) || !inOrder override
    if refused then raise internalError else commitTransaction
  | some old => do
    let passed ← updateReturning (fun _ => [.updateOverride old override])
      (overridePasses old override)
    if !passed then raise internalError else commitTransaction

/-- `update_occurrence`. -/
def updateOccurrence (id : EventId) (caller : UserId) (body : CalendarOccurrenceUpdate) :
    Handler Unit := do
  orRaise (Tables.checkOverride body)
  match ← query fun tables => tables.liveEvent id with
  | none => raise eventNotFound
  | some event =>
    if event.recurrence.isNone then
      raise ⟨409, "Only recurring events support occurrence overrides"⟩
    else do
      let _ ← orRaise (asUtc body.occurrenceStart)
      let (existing, override) ← query fun tables =>
        (overrideAt (tables.overridesOf event.id) body.occurrenceStart,
          tables.overridden event caller body)
      let count ← query fun tables => (tables.overridesOf event.id).length
      if existing = none ∧ settings.quotaOverridesPerEvent ≤ count then
        raise (unprocessable (tooManyEdits settings.quotaOverridesPerEvent))
      else do
        let _ ← orRaise (body.startsAt.elim (.ok 0) asUtc)
        let _ ← orRaise (body.endsAt.elim (.ok 0) asUtc)
        let _ ← orRaise ((buildOccurrence event (some override) override.occurrenceStart
          event.duration).mapError fun error => unprocessable error.message)
        writeOverride existing override

/-! ## The service -/

inductive Request
  | createEvent (id : EventId) (caller : UserId) (body : CalendarEventCreate)
  | updateEvent (id : EventId) (caller : UserId) (body : CalendarEventUpdate)
  | updateOccurrence (id : EventId) (caller : UserId) (body : CalendarOccurrenceUpdate)

def handler : Request → Handler Unit
  | .createEvent id caller body => createEvent zoneInfo id caller body
  | .updateEvent id caller body => updateEvent zoneInfo id caller body
  | .updateOccurrence id caller body => updateOccurrence settings id caller body

/-- The writes of the calendar as a service, from empty tables on. -/
def service : Service Tables Write Lock HttpError Unit Request Empty where
  perform := perform
  handler := fun _ => handler zoneInfo settings
  environment := fun _ => nofun
  Initial := fun tables => tables = ⟨[], []⟩

end FrontDashboard.Events
