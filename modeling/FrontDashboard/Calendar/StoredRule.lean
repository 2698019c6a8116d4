import FrontDashboard.Calendar.Recurrence

/-! # The walk of a stored rule

`_iter_recurrence_starts` of whatever rule the column holds, of one of the four frequencies: any
interval, any weekdays, any count. The generator is run to its end, with fuel.
-/

namespace FrontDashboard.Calendar

/-- A rule as it is stored. -/
structure StoredRule where
  frequency : Frequency
  interval : Int
  byWeekday : Option (List Int)
  untilAt : Option Int
  count : Option Int
  deriving DecidableEq

/-- What the walk reads of an event and its rule. -/
structure StoredSeries where
  startsAt : Int
  duration : Int
  zone : Zone
  baseDate : Int
  localTime : Int
  rule : StoredRule

/-- How a generator ends. -/
inductive Ended
  | finished
  | overflowError
  deriving DecidableEq

namespace StoredSeries

/-- `max(1, int(rule.get("interval", 1)))`. -/
def interval (series : StoredSeries) : Nat := (max 1 series.rule.interval).toNat

/-- `base_local.date()`. -/
def base (series : StoredSeries) : Gregorian.Date := Gregorian.ofOrdinal series.baseDate.toNat

/-- `sorted(set(...))` of the weekdays. -/
def weekdays (series : StoredSeries) : List Int :=
  (series.rule.byWeekday.getD [(weekdayOf series.baseDate : Int)]).dedup.insertionSort (· ≤ ·)

/-- The Monday of the first week. -/
def weekStart (series : StoredSeries) : Int := series.baseDate - weekdayOf series.baseDate

/-- The iterations of a week: one where there are no weekdays. -/
def turns (series : StoredSeries) : Nat := max 1 series.weekdays.length

/-- The candidate of an iteration. -/
def candidate (series : StoredSeries) (index : Nat) : Candidate :=
  match series.rule.frequency with
  | .daily =>
      let ordinal := series.baseDate + index * series.interval
      if maxOrdinal < ordinal then .exhausted else .on ordinal
  | .weekly =>
      let weekOrdinal := series.weekStart + 7 * (index / series.turns : Nat) * series.interval
      if maxOrdinal < weekOrdinal then .exhausted
      else
        match series.weekdays[index % series.turns]? with
        | none => .skipped
        | some weekday =>
            if maxOrdinal < weekOrdinal + weekday then .exhausted else .on (weekOrdinal + weekday)
  | .monthly =>
      let date := Series.addMonths series.base (index * series.interval)
      safeDate date.1 date.2 series.base.day
  | .yearly =>
      safeDate (series.base.year + index * series.interval) series.base.month series.base.day

/-- The iteration that a walk to a later window skips to. -/
def skippedTo (series : StoredSeries) (windowStart : Int) : Nat :=
  let interval : Int := series.interval
  let durationDays := series.duration / day
  match series.rule.frequency with
  | .daily =>
      let daysAhead := windowStart / day - series.baseDate
      let intervalsBack := max 1 ((durationDays + interval - 1) / interval)
      (daysAhead / interval - intervalsBack).toNat
  | .weekly =>
      let daysAhead := max 0 (windowStart / day - series.weekStart)
      let intervalsBack := max 1 ((durationDays + 7 * interval - 1) / (7 * interval))
      (daysAhead / (7 * interval) - intervalsBack).toNat * series.turns
  | .monthly =>
      let date := Gregorian.ofOrdinal (windowStart / day).toNat
      let monthsAhead : Int :=
        ((date.year : Int) - series.base.year) * 12 + date.month - series.base.month
      let monthsBack := durationDays / 28 + interval + 1
      ((monthsAhead - monthsBack) / interval).toNat
  | .yearly =>
      let date := Gregorian.ofOrdinal (windowStart / day).toNat
      let yearsBack := durationDays / 365 + interval + 1
      (((date.year : Int) - series.base.year - yearsBack) / interval).toNat

/-- The iteration a walk to a window begins with. -/
def firstIndex (series : StoredSeries) (windowStart : Int) : Nat :=
  if series.rule.count.isSome ∨ windowStart ≤ series.startsAt then 0
  else series.skippedTo windowStart

/-- The instant of a candidate. A weekday may name a day before the first. -/
def read (series : StoredSeries) (ordinal : Int) : Except CalendarExpansionError Int :=
  if ordinal < 1 then .error .range else series.zone.localToUtc ordinal series.localTime

/-- After the end the rule names. -/
def afterUntil (series : StoredSeries) (instant : Int) : Prop :=
  ∃ untilAt ∈ series.rule.untilAt, untilAt < instant

/-- `count_limit is not None and emitted >= count_limit`. -/
def reached (series : StoredSeries) (emitted : Nat) : Prop :=
  ∃ limit ∈ series.rule.count, limit ≤ emitted

instance (series : StoredSeries) (instant : Int) : Decidable (series.afterUntil instant) :=
  inferInstanceAs (Decidable (∃ untilAt ∈ series.rule.untilAt, untilAt < instant))

instance (series : StoredSeries) (emitted : Nat) : Decidable (series.reached emitted) :=
  inferInstanceAs (Decidable (∃ limit ∈ series.rule.count, limit ≤ (emitted : Int)))

/-- The loop from an iteration on, after some starts were emitted: what it emits and how it
ends, unless the fuel does not last. -/
def walk (series : StoredSeries) (windowEnd : Int) :
    (fuel index emitted : Nat) → Option (List Int × Ended)
  | 0, _, _ => none
  | fuel + 1, index, emitted =>
      match series.candidate index with
      | .exhausted => some ([], .finished)
      | .skipped => walk series windowEnd fuel (index + 1) emitted
      | .on ordinal =>
          match series.read ordinal with
          | .error _ => some ([], .overflowError)
          | .ok candidateUtc =>
              if windowEnd ≤ candidateUtc ∨ series.afterUntil candidateUtc then some ([], .finished)
              else if series.reached emitted then some ([], .finished)
              else if candidateUtc < series.startsAt then
                walk series windowEnd fuel (index + 1) emitted
              else
                (walk series windowEnd fuel (index + 1) (emitted + 1)).map fun rest =>
                  (candidateUtc :: rest.1, rest.2)

end StoredSeries

/-- The beginning of `_iter_recurrence_starts`. -/
def storedSeriesOf (zone : Zone) (startsAt endsAt : Int) (rule : StoredRule) :
    Except CalendarExpansionError StoredSeries := do
  let _ ← toUtc rule.untilAt
  let baseLocal ← zone.toLocal startsAt
  .ok
    { startsAt := startsAt, duration := endsAt - startsAt, zone := zone
      baseDate := baseLocal / day, localTime := baseLocal % day, rule := rule }

/-- `_iter_recurrence_starts`, run to its end. -/
def iterStored (zone : Zone) (startsAt endsAt : Int) (rule : StoredRule)
    (windowStart windowEnd : Int) (fuel : Nat) : Option (List Int × Ended) :=
  match storedSeriesOf zone startsAt endsAt rule with
  | .error _ => some ([], .overflowError)
  | .ok series => series.walk windowEnd fuel (series.firstIndex windowStart) 0

end FrontDashboard.Calendar
