import Mathlib.Data.List.Basic

/-! # Calendar events and their overrides

An instant is the number of microseconds since midnight UTC before day 1 of the
proleptic calendar less one day, so that day `n` begins at `n * day`. A wall-clock time
is counted in the same way. Instants outside years 1 to 9999 overflow.
-/

namespace FrontDashboard.Calendar

abbrev EventId := Nat
abbrev DashboardId := Nat
abbrev UserId := Nat
abbrev TimezoneName := String

/-- A day in microseconds. -/
def day : Int := 86400000000

/-- `date.max.toordinal()`. -/
def maxOrdinal : Int := 3652059

inductive CalendarExpansionError
  | range
  | duration
  | budget
  deriving DecidableEq

def CalendarExpansionError.message : CalendarExpansionError → String
  | .range => "An event extends beyond the supported date range. Adjust its dates or timezone."
  | .duration => "A repeating event's occurrence cannot be longer than 31 days. Shorten it, or " ++
      "make it a one-off event."
  | .budget => "An event produces too many occurrences. Shorten its duration or recurrence range."

/-- A `datetime`, unless it overflows. -/
def checked (instant : Int) : Except CalendarExpansionError Int :=
  if day ≤ instant ∧ instant < (maxOrdinal + 1) * day then .ok instant else .error .range

/-- A `ZoneInfo`: the UTC offset at an instant, and the one a wall-clock time is read with,
the earlier of the two where the clock is set back. -/
structure Zone where
  utcOffset : Int → Int
  wallOffset : Int → Int

namespace Zone

/-- `astimezone` of an instant. -/
def toLocal (zone : Zone) (instant : Int) : Except CalendarExpansionError Int :=
  checked (instant + zone.utcOffset instant)

/-- `_local_to_utc`, of the day with an ordinal. -/
def localToUtc (zone : Zone) (localDate localTime : Int) : Except CalendarExpansionError Int :=
  checked (localDate * day + localTime - zone.wallOffset (localDate * day + localTime))

end Zone

inductive Frequency
  | daily
  | weekly
  | monthly
  | yearly
  deriving DecidableEq

/-- A rule that `RecurrenceRule` accepts. -/
structure RecurrenceRule where
  frequency : Frequency
  interval : Nat
  byWeekday : Option (List Nat)
  untilAt : Option Int
  count : Option Nat
  interval_bounds : 1 ≤ interval ∧ interval ≤ 366
  count_bounds : ∀ limit ∈ count, 1 ≤ limit ∧ limit ≤ 1000
  weekdays : frequency = .weekly →
    ∃ days ∈ byWeekday, days ≠ [] ∧ ∀ weekday ∈ days, weekday ≤ 6
  deriving DecidableEq

namespace RecurrenceRule

theorem one_bounds : 1 ≤ 1 ∧ 1 ≤ 366 := by decide

theorem uncounted_bounds : ∀ limit ∈ (none : Option Nat), 1 ≤ limit ∧ limit ≤ 1000 := by simp

theorem weekdays_of_daily : Frequency.daily = .weekly →
    ∃ days ∈ (none : Option (List Nat)), days ≠ [] ∧ ∀ weekday ∈ days, weekday ≤ 6 := by simp

theorem weekdays_of_monthly : Frequency.monthly = .weekly →
    ∃ days ∈ (none : Option (List Nat)), days ≠ [] ∧ ∀ weekday ∈ days, weekday ≤ 6 := by simp

end RecurrenceRule

structure CalendarEvent where
  id : EventId
  dashboardId : DashboardId
  createdBy : UserId
  updatedBy : UserId
  title : String
  description : Option String
  location : Option String
  startsAt : Int
  endsAt : Int
  timezone : TimezoneName
  allDay : Bool
  recurrence : Option RecurrenceRule
  deletedAt : Option Int
  deriving DecidableEq

/-- `ends_at - starts_at`. -/
def CalendarEvent.duration (event : CalendarEvent) : Int := event.endsAt - event.startsAt

structure CalendarEventOverride where
  calendarEventId : EventId
  occurrenceStart : Int
  createdBy : UserId
  updatedBy : UserId
  cancelled : Bool
  title : Option String
  description : Option String
  location : Option String
  startsAt : Option Int
  endsAt : Option Int
  timezone : Option TimezoneName
  allDay : Option Bool
  deriving DecidableEq

structure ExpandedOccurrence where
  eventId : EventId
  occurrenceStart : Int
  occurrenceEnd : Int
  originalStart : Int
  title : String
  description : Option String
  location : Option String
  timezone : TimezoneName
  allDay : Bool
  createdBy : UserId
  recurring : Bool
  isException : Bool
  deriving DecidableEq

end FrontDashboard.Calendar
