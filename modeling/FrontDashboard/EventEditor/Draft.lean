import FrontDashboard.Calendar.Routes

/-! # The event editor's draft

`calendarEditorDraftUtils`, the submit of `CalendarEditor` and `handleEditorSubmit` of the
calendar page, for an event that is opened and submitted with no field edited. The text of a
date is the ordinal of its day, that of a date and time the wall-clock time that it shows. A
`Date` is an instant: its milliseconds round away nothing that a text shows.
-/

namespace FrontDashboard.EventEditor

open Calendar

def millisecond : Int := 1000

def minute : Int := 60000000

/-- `T23:59:59`. -/
def lastSecond : Int := 86399000000

/-! ## `Date` -/

section Clock

variable (clock : Zone)

/-- What the browser's clock shows at an instant. -/
def localTime (instant : Int) : Int := instant + clock.utcOffset instant

/-- The instant at which the browser's clock shows a time: the earlier of two, and for a time
that it skips, as much later as it skips. -/
def instantOf (wall : Int) : Int := wall - clock.wallOffset wall

def localDate (instant : Int) : Int := localTime clock instant / day

/-- A year is written with four digits, or the text is no date. -/
def FourDigitYear (ordinal : Int) : Prop :=
  (Gregorian.toOrdinal 1000 1 1 : Int) ≤ ordinal ∧ ordinal ≤ maxOrdinal

instance (ordinal : Int) : Decidable (FourDigitYear ordinal) :=
  inferInstanceAs (Decidable (_ ∧ _))

/-- `new Date` of a text, unless it is an invalid date. -/
def parsed (wall : Int) : Option Int :=
  if FourDigitYear (wall / day) then some (instantOf clock wall) else none

/-- `toISOString`, of an instant that the server reads. -/
def toIsoString (instant : Int) : Option Int := (checked instant).toOption

/-- The day of a year, month and day of the month, the days that the month lacks running into
the next. -/
def rolledOver (year month dayOfMonth : Nat) : Int :=
  (Gregorian.toOrdinal year month 1 : Int) + dayOfMonth - 1

/-- `setDate`, `setMonth` or `setFullYear`, one interval further. -/
def advance (frequency : Frequency) (interval : Nat) (instant : Int) : Int :=
  let wall := localTime clock instant
  let date := Gregorian.ofOrdinal (wall / day).toNat
  let ordinal : Int :=
    match frequency with
    | .daily => wall / day + interval
    | .weekly => wall / day + interval * 7
    | .monthly =>
        let later := Series.addMonths date interval
        rolledOver later.1 later.2 date.day
    | .yearly => rolledOver (date.year + interval) date.month date.day
  instantOf clock (ordinal * day + wall % day)

/-- The date after some repeats. -/
def dateAfter (frequency : Frequency) (interval : Nat) (startsAt : Int) (repeats : Nat) : Int :=
  localDate clock ((advance clock frequency interval)^[repeats] startsAt)

end Clock

/-! ## The draft -/

structure CalendarEditorDraft where
  title : String
  description : String
  eventLocation : String
  startsAt : Int
  endsAt : Int
  allDay : Bool
  recurrenceMode : Option Frequency
  recurrenceInterval : Nat
  recurrenceWeekdays : List Nat
  recurrenceEndsOn : Option Int

section Draft

variable (clock : Zone)

def toLocalDateTimeInput (instant : Int) : Int := localTime clock instant / minute * minute

/-- The weekdays in order, each once. -/
def sortedWeekdays (weekdays : List Nat) : List Nat := weekdays.dedup.insertionSort (· ≤ ·)

def getInitialWeeklySelection (startsAt : Int) (recurrence : Option RecurrenceRule) : List Nat :=
  match recurrence with
  | none => []
  | some rule =>
      if rule.frequency = .weekly then
        match rule.byWeekday with
        | some (first :: rest) => sortedWeekdays (first :: rest)
        | _ => [weekdayOf (localDate clock startsAt)]
      else []

def deriveRecurrenceEndDate (startsAt : Int) (rule : RecurrenceRule) : Option Int :=
  match rule.untilAt, rule.count with
  | some untilAt, _ => some (localDate clock untilAt)
  | none, some count =>
      if count ≤ 1 then none
      else some (dateAfter clock rule.frequency rule.interval startsAt (count - 1))
  | none, none => none

def createCalendarEditorDraftFromEvent (event : CalendarEvent) : CalendarEditorDraft where
  title := event.title
  description := event.description.getD ""
  eventLocation := event.location.getD ""
  startsAt := toLocalDateTimeInput clock event.startsAt
  endsAt := toLocalDateTimeInput clock event.endsAt
  allDay := event.allDay
  recurrenceMode := event.recurrence.map (·.frequency)
  recurrenceInterval := event.recurrence.elim 1 (·.interval)
  recurrenceWeekdays := getInitialWeeklySelection clock event.startsAt event.recurrence
  recurrenceEndsOn := event.recurrence.bind (deriveRecurrenceEndDate clock event.startsAt)

/-! ## The submit of the editor -/

def shiftDateValue (date days : Int) : Int :=
  localDate clock (instantOf clock ((date + days) * day))

def inclusiveAllDayEndDate (startsAt endsAt : Int) : Int :=
  let startDate := startsAt / day
  match parsed clock endsAt with
  | none => startDate
  | some finish =>
      let lastCoveredDate := localDate clock (finish - millisecond)
      if FourDigitYear startDate ∧ lastCoveredDate < startDate then startDate else lastCoveredDate

def exclusiveAllDayEnd (inclusiveEndDate : Int) : Int :=
  shiftDateValue clock inclusiveEndDate 1 * day

/-- `scheduleError`: the end of a timed event is not after its start. -/
def scheduleError (draft : CalendarEditorDraft) : Prop :=
  draft.allDay = false ∧ ∃ start ∈ parsed clock draft.startsAt,
    ∃ finish ∈ parsed clock draft.endsAt, finish ≤ start

instance (draft : CalendarEditorDraft) : Decidable (scheduleError clock draft) :=
  inferInstanceAs (Decidable (_ ∧ ∃ start ∈ parsed clock draft.startsAt, _))

/-- The draft that the editor hands on. -/
def submittedDraft (draft : CalendarEditorDraft) : CalendarEditorDraft :=
  { draft with
    endsAt :=
      if draft.allDay then
        exclusiveAllDayEnd clock (inclusiveAllDayEndDate clock draft.startsAt draft.endsAt)
      else draft.endsAt }

/-- `handleSubmit` of `CalendarEditor`. -/
def handleSubmit (draft : CalendarEditorDraft) : Option CalendarEditorDraft :=
  if scheduleError clock draft then none else some (submittedDraft clock draft)

/-! ## The body of the request -/

/-- `String.prototype.trim`. -/
def trim (text : String) : String :=
  let isSpace := fun character : Char =>
    "\t\n\u000B\u000C\r \u00A0\u1680\u2000\u2001\u2002\u2003\u2004\u2005\u2006\u2007\u2008\u2009\u200A\u2028\u2029\u202F\u205F\u3000\uFEFF".toList.contains
      character
  String.ofList ((text.toList.dropWhile isSpace).reverse.dropWhile isSpace).reverse

/-- `text || null`. -/
def orNull (text : String) : Option String := if text = "" then none else some text

def toRecurrenceUntilIso (endsOn : Int) : Option Int :=
  (parsed clock (endsOn * day + lastSecond)).bind toIsoString

/-- A rule without a count, if `RecurrenceRule` accepts it. -/
def recurrenceRule (frequency : Frequency) (interval : Nat) (byWeekday : Option (List Nat))
    (untilAt : Option Int) : Option RecurrenceRule :=
  if accepted : (1 ≤ interval ∧ interval ≤ 366) ∧ (frequency = .weekly →
      ∃ days ∈ byWeekday, days ≠ [] ∧ ∀ weekday ∈ days, weekday ≤ 6) then
    some ⟨frequency, interval, byWeekday, untilAt, none, accepted.1,
      RecurrenceRule.uncounted_bounds, accepted.2⟩
  else none

/-- The recurrence of a draft. -/
def draftRecurrence (draft : CalendarEditorDraft) : Option (Option RecurrenceRule) :=
  match draft.recurrenceMode with
  | none => some none
  | some frequency => do
      let untilAt ← draft.recurrenceEndsOn.elim (some none) fun endsOn =>
        (toRecurrenceUntilIso clock endsOn).map some
      let rule ← recurrenceRule frequency
        (if draft.recurrenceInterval = 0 then 1 else draft.recurrenceInterval)
        (if frequency = .weekly then some (draft.recurrenceWeekdays.insertionSort (· ≤ ·))
        else none)
        untilAt
      some (some rule)

def buildEventUpdateFromDraft (draft : CalendarEditorDraft) (recurrence : Option RecurrenceRule)
    (timezone : TimezoneName) : Option CalendarEventUpdate := do
  let startsAt ← (parsed clock draft.startsAt).bind toIsoString
  let endsAt ← (parsed clock draft.endsAt).bind toIsoString
  some
    { title := some (trim draft.title), description := some (orNull (trim draft.description))
      location := some (orNull (trim draft.eventLocation)), startsAt := some startsAt
      endsAt := some endsAt, timezone := some timezone, allDay := some draft.allDay
      recurrence := some recurrence }

/-- `handleEditorSubmit`: the body of its request, unless there is none or it is refused. -/
def handleEditorSubmit (timezone : TimezoneName) (draft : CalendarEditorDraft) :
    Option CalendarEventUpdate :=
  if trim draft.title = "" then none
  else do
    let recurrence ← draftRecurrence clock draft
    buildEventUpdateFromDraft clock draft recurrence timezone

end Draft

/-- The request of an event that is opened and submitted, in a browser of a timezone. -/
def resubmitted (zoneInfo : TimezoneName → Zone) (timezone : TimezoneName)
    (event : CalendarEvent) : Option CalendarEventUpdate :=
  let clock := zoneInfo timezone
  (handleSubmit clock (createCalendarEditorDraftFromEvent clock event)).bind
    (handleEditorSubmit clock timezone)

/-- The tables once an event is opened and saved. -/
def resaved (zoneInfo : TimezoneName → Zone) (timezone : TimezoneName) (tables : Tables)
    (eventId : EventId) (caller : UserId) : Tables :=
  match (tables.liveEvent eventId).bind (resubmitted zoneInfo timezone) with
  | none => tables
  | some body => (tables.updateEvent zoneInfo eventId caller body).toOption.getD tables

end FrontDashboard.EventEditor
