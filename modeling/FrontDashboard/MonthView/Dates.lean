import FrontDashboard.Library.CivilDays
import FrontDashboard.Library.LocalClock

/-! # The month view's dates

`calendarUtils` in the timezone of the viewer. A `Date` is its instant in milliseconds, without
the bound of its range; an occurrence's times are what `Date` makes of their texts.
-/

namespace FrontDashboard.MonthView

open LocalClock (Zone msPerDay)

/-! ## `Date` -/

section Fields

variable (zone : Zone)

/-- The year on the viewer's calendar. -/
def getFullYear (date : Int) : Int := CivilDays.year (zone.dayOf date)

/-- Months count from 0. -/
def getMonth (date : Int) : Nat := CivilDays.month (zone.dayOf date) - 1

/-- The day of the month. -/
def getDate (date : Int) : Int := CivilDays.dayOfMonth (zone.dayOf date)

/-- The weekday, from Sunday on. -/
def getDay (date : Int) : Nat := CivilDays.weekday (zone.dayOf date)

/-- The milliseconds since the day began. -/
def timeWithinDay (wall : Int) : Int := wall % msPerDay

/-- The hour on the viewer's clock. -/
def getHours (date : Int) : Nat := (timeWithinDay (zone.localTime date) / 3600000).toNat

/-- The minute on the viewer's clock. -/
def getMinutes (date : Int) : Nat := (timeWithinDay (zone.localTime date) / 60000 % 60).toNat

/-- The number of a day, of which the month may be short. -/
def makeDay (year : Int) (month : Nat) (date : Int) : Int :=
  CivilDays.number year (month + 1) date

/-- The wall time on a day. -/
def makeDate (day time : Int) : Int := day * msPerDay + time

/-- `setDate`: another day of the month, at the same time of day. -/
def setDate (date dayOfMonth : Int) : Int :=
  zone.utc (makeDate (makeDay (getFullYear zone date) (getMonth zone date) dayOfMonth)
    (timeWithinDay (zone.localTime date)))

/-- `setHours(0, 0, 0, 0)`. -/
def setMidnight (date : Int) : Int := zone.utc (makeDate (zone.localTime date / msPerDay) 0)

/-- A year of two digits is one of the twentieth century. -/
def makeFullYear (year : Int) : Int := if 0 ≤ year ∧ year ≤ 99 then 1900 + year else year

/-- `new Date(year, month, date)`. -/
def newDate (year : Int) (month : Nat) (date : Int) : Int :=
  zone.utc (makeDate (makeDay (makeFullYear year) month date) 0)

end Fields

/-! ## `calendarUtils` -/

/-- What the month view reads of an occurrence. -/
structure CalendarOccurrence where
  occurrenceStart : Int
  occurrenceEnd : Int
  allDay : Bool

/-- `padStart` with zeros. -/
def padStart (width : Nat) (text : String) : String :=
  String.ofList (List.replicate (width - text.length) '0' ++ text.toList)

section Grid

variable (zone : Zone)

/-- `addDays` goes by the calendar, not by hours. -/
def addDays (date days : Int) : Int := setDate zone date (getDate zone date + days)

/-- `startOfDay` goes back to midnight. -/
def startOfDay (date : Int) : Int := setMidnight zone date

/-- `startOfMonth` goes back to the first of the month. -/
def startOfMonth (date : Int) : Int := newDate zone (getFullYear zone date) (getMonth zone date) 1

/-- `startOfWeek` goes back to the Sunday before. -/
def startOfWeek (date : Int) : Int :=
  let next := startOfDay zone date
  addDays zone next (-getDay zone next)

/-- The instants that are asked for. -/
structure Window where
  start : Int
  stop : Int

/-- Six weeks from the Sunday before the first of the month on. -/
def calendarWindow (monthDate : Int) : Window :=
  let monthStart := startOfMonth zone monthDate
  let gridStart := startOfWeek zone monthStart
  let gridEnd := addDays zone gridStart 42
  ⟨gridStart, gridEnd⟩

/-- A day as its text, such as 2026-01-31. -/
def dateKey (date : Int) : String :=
  toString (getFullYear zone date) ++ "-" ++
    padStart 2 (toString (getMonth zone date + 1)) ++ "-" ++
    padStart 2 (toString (getDate zone date))

/-- An occurrence is on each day that it overlaps. -/
def occursOnDate (occurrence : CalendarOccurrence) (day : Int) : Bool :=
  let dayStart := startOfDay zone day
  let dayEnd := addDays zone dayStart 1
  decide (occurrence.occurrenceStart < dayEnd) && decide (occurrence.occurrenceEnd > dayStart)

/-- An end belongs to the millisecond before it. -/
def lastCoveredDay (stop : Int) : Int := stop - 1

/-- Whether a time covers more than one day. -/
def spansDays (start stop : Int) : Bool := dateKey zone start != dateKey zone (lastCoveredDay stop)

/-- Whether an occurrence covers more than one day. -/
def isMultiDayOccurrence (occurrence : CalendarOccurrence) : Bool :=
  spansDays zone occurrence.occurrenceStart occurrence.occurrenceEnd

/-- The 42 days of the grid. -/
def monthGridDays (monthDate : Int) : List Int :=
  let monthStart := startOfMonth zone monthDate
  let gridStart := startOfWeek zone monthStart
  (List.range 42).map fun index : Nat => addDays zone gridStart index

/-- The weeks up to the last that shows a day of the month, out of so many. -/
def weeksInView (month : Nat) (days : List Int) : Nat → List Int
  | 0 => days
  | weeks + 1 =>
      let week := (days.drop (weeks * 7)).take 7
      if week.any fun day => getMonth zone day = month then days.take ((weeks + 1) * 7)
      else weeksInView month days weeks

/-- The days of the grid without the weeks after the month. -/
def monthWeeksInView (monthDate : Int) : List Int :=
  let month := getMonth zone monthDate
  let days := monthGridDays zone monthDate
  weeksInView zone month days (days.length / 7)

end Grid

/-! ## Labels -/

/-- The two widths of a cell's label. -/
inductive Variant
  | full
  | compact

section Labels

variable (zone : Zone) (timeFormat : Int → String)

/-- `formatCellTime`, where `timeFormat` is the `Intl` format of a time. -/
def formatCellTime (value : Int) : Variant → String
  | .compact =>
      let hours := getHours zone value
      let minutes := getMinutes zone value
      let ampm := if 12 ≤ hours then "PM" else "AM"
      let hours := if hours % 12 = 0 then 12 else hours % 12
      if minutes = 0 then toString hours ++ ampm
      else toString hours ++ ":" ++ padStart 2 (toString minutes) ++ ampm
  | .full => timeFormat value

/-- What a label says on the first day. -/
def startWord : Variant → String
  | .compact => "Start"
  | .full => "Starts"

/-- What a label says on the last day. -/
def endWord : Variant → String
  | .compact => "End"
  | .full => "Ends"

/-- What stands before the title of an occurrence in the cell of a day. -/
def calendarOccurrenceCellPrefix (occurrence : CalendarOccurrence) (day : Int)
    (variant : Variant) : String :=
  if occurrence.allDay then
    match variant with
    | .compact => ""
    | .full => "All day"
  else if !isMultiDayOccurrence zone occurrence then
    formatCellTime zone timeFormat occurrence.occurrenceStart variant
  else if dateKey zone day = dateKey zone occurrence.occurrenceStart then
    startWord variant ++ " " ++ formatCellTime zone timeFormat occurrence.occurrenceStart variant
  else if dateKey zone day = dateKey zone (lastCoveredDay occurrence.occurrenceEnd) then
    endWord variant ++ " " ++ formatCellTime zone timeFormat occurrence.occurrenceEnd variant
  else
    match variant with
    | .compact => "Cont."
    | .full => "Continues"

end Labels

end FrontDashboard.MonthView
