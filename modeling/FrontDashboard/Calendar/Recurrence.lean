import FrontDashboard.Calendar.Event
import FrontDashboard.Library.Gregorian
import Mathlib.Data.List.Sort

/-! # The walk of a recurrence

`_iter_recurrence_starts`. Each frequency names its candidates one after another, by
the local day they fall on, and may begin at a later one; the loop over them is the same
for all. An index of the walk is an iteration of the source's loop, which a weekly series
enters once a weekday.
-/

namespace FrontDashboard.Calendar

/-- What an iteration looks at: nothing further, a day that does not exist, or the day with
an ordinal. -/
inductive Candidate
  | exhausted
  | skipped
  | on (ordinal : Int)
  deriving DecidableEq

/-- `toordinal` of `_safe_date(year, month, day)`, for a year that may be out of range. -/
def safeDate (year month dayOfMonth : Nat) : Candidate :=
  if 9999 < year then .exhausted
  else if dayOfMonth ≤ Gregorian.daysInMonth year month then
    .on (Gregorian.toOrdinal year month dayOfMonth)
  else .skipped

/-- `date.weekday`, Monday being 0. -/
def weekdayOf (ordinal : Int) : Nat := ((ordinal + 6) % 7).toNat

/-- What the walk reads of an event: its own times, the local day and time it begins at, and
its rule. -/
structure Series where
  startsAt : Int
  duration : Int
  zone : Zone
  baseDate : Int
  localTime : Int
  rule : RecurrenceRule

namespace Series

/-- `max(1, int(rule["interval"]))`. -/
def interval (series : Series) : Nat := max 1 series.rule.interval

/-- `base_local.date()`. -/
def base (series : Series) : Gregorian.Date := Gregorian.ofOrdinal series.baseDate.toNat

/-- The weekdays of a weekly series, sorted and without duplicates. -/
def weekdays (series : Series) : List Nat :=
  (series.rule.byWeekday.getD [weekdayOf series.baseDate]).dedup.insertionSort (· ≤ ·)

/-- The Monday of the first week. -/
def weekStart (series : Series) : Int := series.baseDate - weekdayOf series.baseDate

/-- `_add_months(base_local.year, base_local.month, months_added)`. -/
def addMonths (base : Gregorian.Date) (monthsAdded : Nat) : Nat × Nat :=
  let totalMonths := base.month - 1 + monthsAdded
  (base.year + totalMonths / 12, totalMonths % 12 + 1)

/-- The candidate of an iteration. -/
def candidate (series : Series) (index : Nat) : Candidate :=
  match series.rule.frequency with
  | .daily =>
      let ordinal := series.baseDate + index * series.interval
      if maxOrdinal < ordinal then .exhausted else .on ordinal
  | .weekly =>
      let weekIndex := index / series.weekdays.length
      match series.weekdays[index % series.weekdays.length]? with
      | none => .exhausted
      | some weekday =>
          let ordinal := series.weekStart + 7 * weekIndex * series.interval + weekday
          if maxOrdinal < ordinal then .exhausted else .on ordinal
  | .monthly =>
      let date := addMonths series.base (index * series.interval)
      safeDate date.1 date.2 series.base.day
  | .yearly =>
      safeDate (series.base.year + index * series.interval) series.base.month series.base.day

/-- The iteration a walk to a window begins with. -/
def firstIndex (series : Series) (windowStart : Int) : Nat :=
  if series.rule.count.isSome ∨ windowStart ≤ series.startsAt then 0
  else
    let interval : Int := series.interval
    let durationDays := series.duration / day
    match series.rule.frequency with
    | .daily =>
        let daysAhead := windowStart / day - series.baseDate
        let intervalsBack := max 1 ((durationDays + interval - 1) / interval)
        (daysAhead / interval - intervalsBack).toNat
    | .weekly =>
        let daysAhead := max 0 (windowStart / day - series.weekStart)
        let intervalsBack := max 1 ((durationDays + 7 * interval - 1) / (7 * interval))
        (daysAhead / (7 * interval) - intervalsBack).toNat * series.weekdays.length
    | .monthly =>
        let date := Gregorian.ofOrdinal (windowStart / day).toNat
        let monthsAhead : Int :=
          ((date.year : Int) - series.base.year) * 12 + date.month - series.base.month
        let monthsBack := durationDays / 28 + interval + 1
        ((monthsAhead - monthsBack) / interval).toNat
    | .yearly =>
        let date := Gregorian.ofOrdinal (windowStart / day).toNat
        let yearsBack := durationDays / 365 + interval + 1
        (((date.year : Int) - series.base.year - yearsBack) / interval).toNat

/-- After the end the rule names. -/
def afterUntil (series : Series) (instant : Int) : Prop :=
  ∃ untilAt ∈ series.rule.untilAt, untilAt < instant

/-- `count` occurrences have been emitted. -/
def reached (series : Series) (emitted : Nat) : Prop :=
  ∃ limit ∈ series.rule.count, limit ≤ emitted

instance (series : Series) (instant : Int) : Decidable (series.afterUntil instant) :=
  inferInstanceAs (Decidable (∃ untilAt ∈ series.rule.untilAt, untilAt < instant))

instance (series : Series) (emitted : Nat) : Decidable (series.reached emitted) :=
  inferInstanceAs (Decidable (∃ limit ∈ series.rule.count, limit ≤ emitted))

/-- The iterations of the loop from an index on, after some occurrences were emitted, until
as many more have been as are wanted. -/
def walk (series : Series) (windowEnd : Int) :
    (iterations wanted index emitted : Nat) → Except CalendarExpansionError (List Int)
  | 0, _, _, _ => .ok []
  | _ + 1, 0, _, _ => .ok []
  | iterations + 1, wanted + 1, index, emitted =>
      match series.candidate index with
      | .exhausted => .ok []
      | .skipped => walk series windowEnd iterations (wanted + 1) (index + 1) emitted
      | .on ordinal => do
          let candidateUtc ← series.zone.localToUtc ordinal series.localTime
          if windowEnd ≤ candidateUtc ∨ series.afterUntil candidateUtc then .ok []
          else if series.reached emitted then .ok []
          else if candidateUtc < series.startsAt then
            walk series windowEnd iterations (wanted + 1) (index + 1) emitted
          else
            let rest ← walk series windowEnd iterations wanted (index + 1) (emitted + 1)
            .ok (candidateUtc :: rest)

/-- More iterations than any walk makes: the candidates of every series are exhausted by
then. -/
def iterationLimit : Nat := 3652061

end Series

/-- `_to_utc` of the end of a rule, which may overflow. -/
def toUtc (untilAt : Option Int) : Except CalendarExpansionError (Option Int) :=
  untilAt.elim (.ok none) fun instant => (checked instant).map some

/-- The beginning of `_iter_recurrence_starts`. -/
def seriesOf (zone : Zone) (event : CalendarEvent) (rule : RecurrenceRule) :
    Except CalendarExpansionError Series := do
  let _ ← toUtc rule.untilAt
  let baseLocal ← zone.toLocal event.startsAt
  .ok
    { startsAt := event.startsAt, duration := event.duration, zone := zone
      baseDate := baseLocal / day, localTime := baseLocal % day, rule := rule }

/-- `_iter_recurrence_starts`, and the number of items that are taken from it. -/
def iterRecurrenceStarts (zone : Zone) (event : CalendarEvent) (rule : RecurrenceRule)
    (windowStart windowEnd : Int) (wanted : Nat) : Except CalendarExpansionError (List Int) := do
  let series ← seriesOf zone event rule
  series.walk windowEnd Series.iterationLimit wanted (series.firstIndex windowStart) 0

end FrontDashboard.Calendar
