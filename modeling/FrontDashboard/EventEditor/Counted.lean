import Mathlib.Data.Int.ConditionallyCompleteOrder
import Mathlib.Order.ConditionallyCompleteLattice.Basic
import FrontDashboard.Calendar.Alike
import FrontDashboard.EventEditor.Draft
import Mathlib.Tactic.Ring

/-! # A count as an end date

The end date that the editor derives from a count is that of the last occurrence counted, where
the days that are counted are there and the browser's clock stays on each of them.
-/

namespace FrontDashboard.EventEditor

open Outcomes
open Calendar

/-- The last second of a date. -/
def endOfDate (clock : Zone) (date : Int) : Int := instantOf clock (date * day + lastSecond)

/-! ## Repeats -/

section Repeats

variable {clock : Zone} {frequency : Frequency} {interval : Nat} {instant : Int}

theorem rolledOver_eq {year month dayOfMonth : Nat} :
    rolledOver year month dayOfMonth = Gregorian.toOrdinal year month dayOfMonth := by
  unfold rolledOver Gregorian.toOrdinal
  omega

/-- The ordinal of the day one interval after another. -/
def nextOrdinal (frequency : Frequency) (interval : Nat) (ordinal : Int) : Int :=
  let date := Gregorian.ofOrdinal ordinal.toNat
  match frequency with
  | .daily => ordinal + interval
  | .weekly => ordinal + interval * 7
  | .monthly =>
      let later := Series.addMonths date interval
      rolledOver later.1 later.2 date.day
  | .yearly => rolledOver (date.year + interval) date.month date.day

/-- A repeat is read at the time of day that the clock showed before. -/
theorem advance_eq : advance clock frequency interval instant =
    instantOf clock (nextOrdinal frequency interval (localDate clock instant) * day +
      localTime clock instant % day) := rfl

end Repeats

/-! ## Candidates -/

section Candidates

variable {series : Series}

theorem interval_eq : series.interval = series.rule.interval :=
  max_eq_right series.rule.interval_bounds.1

theorem addMonths_add {base : Gregorian.Date} {earlier later : Nat} :
    Series.addMonths ⟨(Series.addMonths base earlier).1, (Series.addMonths base earlier).2,
      base.day⟩ later = Series.addMonths base (earlier + later) := by
  unfold Series.addMonths
  dsimp only
  refine Prod.ext ?_ ?_
  · dsimp only
    omega
  · dsimp only
    omega

/-- A frequency that counts days, and how many. -/
inductive ByDays : Frequency → Nat → Prop
  | daily : ByDays .daily 1
  | weekly : ByDays .weekly 7

/-- A frequency that counts months, and how many. -/
inductive ByMonths : Frequency → Nat → Prop
  | monthly : ByMonths .monthly 1
  | yearly : ByMonths .yearly 12

theorem byDays_or_byMonths (frequency : Frequency) :
    (∃ days, ByDays frequency days) ∨ ∃ months, ByMonths frequency months := by
  cases frequency with
  | daily => exact .inl ⟨_, .daily⟩
  | weekly => exact .inl ⟨_, .weekly⟩
  | monthly => exact .inr ⟨_, .monthly⟩
  | yearly => exact .inr ⟨_, .yearly⟩

theorem addMonths_twelve {date : Gregorian.Date} {years : Nat}
    (valid : 1 ≤ date.month ∧ date.month ≤ 12) :
    Series.addMonths date (years * 12) = (date.year + years, date.month) := by
  unfold Series.addMonths
  refine Prod.ext ?_ ?_
  · dsimp only
    omega
  · dsimp only
    omega

theorem nextOrdinal_byDays {frequency : Frequency} {days interval : Nat} {ordinal : Int}
    (unit : ByDays frequency days) :
    nextOrdinal frequency interval ordinal = ordinal + interval * days := by
  cases unit with
  | daily => simp [nextOrdinal]
  | weekly => rfl

theorem nextOrdinal_byMonths {frequency : Frequency} {months interval year month dayOfMonth : Nat}
    (unit : ByMonths frequency months) (valid : Gregorian.Valid year month dayOfMonth) :
    nextOrdinal frequency interval (Gregorian.toOrdinal year month dayOfMonth) =
      rolledOver (Series.addMonths ⟨year, month, dayOfMonth⟩ (interval * months)).1
        (Series.addMonths ⟨year, month, dayOfMonth⟩ (interval * months)).2 dayOfMonth := by
  unfold nextOrdinal
  rw [Int.toNat_natCast, Gregorian.ofOrdinal_toOrdinal valid]
  cases unit with
  | monthly => rw [Nat.mul_one]
  | yearly => rw [addMonths_twelve valid.months]

theorem candidate_byDays {days : Nat} (unit : ByDays series.rule.frequency days)
    (single : series.rule.frequency = .weekly →
      series.weekdays = [weekdayOf series.baseDate]) (index : Nat) :
    series.candidate index =
      if maxOrdinal < series.baseDate + index * (series.rule.interval * days : Nat) then .exhausted
      else .on (series.baseDate + index * (series.rule.interval * days : Nat)) := by
  unfold Series.candidate
  rw [interval_eq]
  generalize frequency : series.rule.frequency = unit' at unit single
  cases unit with
  | daily => simp
  | weekly =>
      have named : series.weekStart + 7 * (index : Int) * series.rule.interval +
          weekdayOf series.baseDate =
          series.baseDate + index * (series.rule.interval * 7 : Nat) := by
        unfold Series.weekStart
        push_cast
        ring
      simp only [single rfl, List.length_singleton, Nat.div_one, Nat.mod_one,
        List.getElem?_cons_zero, named]

theorem candidate_byMonths {months : Nat} (unit : ByMonths series.rule.frequency months)
    (valid : 1 ≤ series.base.month ∧ series.base.month ≤ 12) (index : Nat) :
    series.candidate index =
      safeDate (Series.addMonths series.base (index * (series.rule.interval * months))).1
        (Series.addMonths series.base (index * (series.rule.interval * months))).2
        series.base.day := by
  unfold Series.candidate
  rw [interval_eq]
  generalize frequency : series.rule.frequency = unit' at unit
  cases unit with
  | monthly => rw [Nat.mul_one]
  | yearly => rw [← Nat.mul_assoc, addMonths_twelve valid]

/-- **The next day** of a series that names one day of the week, month or year is that of a
repeat. -/
theorem nextOrdinal_eq {index : Nat} {ordinal next : Int}
    (single : series.rule.frequency = .weekly → series.weekdays = [weekdayOf series.baseDate])
    (valid : Gregorian.Valid series.base.year series.base.month series.base.day)
    (on : series.candidate index = .on ordinal) (on' : series.candidate (index + 1) = .on next) :
    nextOrdinal series.rule.frequency series.rule.interval ordinal = next := by
  rcases byDays_or_byMonths series.rule.frequency with ⟨days, unit⟩ | ⟨months, unit⟩
  · rw [candidate_byDays unit single] at on on'
    split at on <;> cases on
    split at on' <;> cases on'
    rw [nextOrdinal_byDays unit]
    push_cast
    ring
  · rw [candidate_byMonths unit valid.months] at on on'
    obtain ⟨present, rfl⟩ := safeDate_eq_on on
    rw [nextOrdinal_byMonths unit (addMonths_valid valid present), addMonths_add, ← Nat.succ_mul,
      rolledOver_eq, (safeDate_eq_on on').2]

end Candidates

/-! ## The end date -/

section EndDate

variable {clock : Zone} {series : Series} {count : Nat}

/-- The days that a series names, one after the other, as a clock shows them: each at the time of
day that it showed on the one before. -/
def shown (clock : Zone) (series : Series) : Nat → Int
  | 0 => series.startsAt
  | index + 1 =>
      match series.candidate (index + 1) with
      | .on ordinal =>
          instantOf clock (ordinal * day + localTime clock (shown clock series index) % day)
      | _ => shown clock series index

/-- What a clock reads the time of day of a series as, on one day. -/
def readOn (clock : Zone) (series : Series) (ordinal : Int) : Int :=
  instantOf clock (ordinal * day + series.localTime)

/-- **A counted series that ends on its date**: it names one day of the week, month or year, every
day that it counts is there, and the clock stays on each of them, has none of them before the start,
and the end of the last one after all of them and before the next day that the series names. -/
structure EndsOnItsDate (clock : Zone) (series : Series) (count : Nat) : Prop where
  single : series.rule.frequency = .weekly → series.weekdays = [weekdayOf series.baseDate]
  present : ∀ index < count, ∃ ordinal, series.candidate index = .on ordinal
  stays : ∀ index < count, ∀ ordinal, series.candidate index = .on ordinal →
    localDate clock (shown clock series index) = ordinal
  begins : ∀ index < count, ∀ ordinal, series.candidate index = .on ordinal →
    series.startsAt ≤ readOn clock series ordinal
  closes : ∀ last, series.candidate (count - 1) = .on last →
    ∀ index < count, ∀ ordinal, series.candidate index = .on ordinal →
      readOn clock series ordinal ≤ endOfDate clock last
  precedes : ∀ last, series.candidate (count - 1) = .on last →
    ∀ index ordinal, count ≤ index → (∀ earlier < index, count ≤ earlier →
      series.candidate earlier = .skipped) → series.candidate index = .on ordinal →
        endOfDate clock last < readOn clock series ordinal

/-- The series of an event's rule as it is read on a clock. -/
structure ReadOn (clock : Zone) (series : Series) : Prop where
  zone : series.zone = clock
  positive : 1 ≤ series.baseDate
  started : day ≤ series.startsAt

theorem ReadOn.valid (read : ReadOn clock series) :
    Gregorian.Valid series.base.year series.base.month series.base.day := by
  have positive := read.positive
  obtain ⟨valid, _⟩ := @Gregorian.toOrdinal_ofOrdinal series.baseDate.toNat (by omega)
  exact valid

/-- **The repeats** are those that the clock shows on the days counted. -/
theorem advance_iterate (read : ReadOn clock series) (ends : EndsOnItsDate clock series count)
    {index : Nat} (counted : index < count) :
    (advance clock series.rule.frequency series.rule.interval)^[index] series.startsAt =
      shown clock series index := by
  induction index with
  | zero => rfl
  | succ index ih =>
      have earlier := Nat.lt_of_succ_lt counted
      obtain ⟨ordinal, on⟩ := ends.present index earlier
      obtain ⟨next, on'⟩ := ends.present (index + 1) counted
      rw [Function.iterate_succ_apply', ih earlier, advance_eq, ends.stays index earlier ordinal on,
        nextOrdinal_eq ends.single read.valid on on', shown, on']

/-- The date that is derived is the last one counted. -/
theorem dateAfter_eq (read : ReadOn clock series) (ends : EndsOnItsDate clock series count)
    {index : Nat} (counted : index < count) {ordinal : Int}
    (on : series.candidate index = .on ordinal) :
    dateAfter clock series.rule.frequency series.rule.interval series.startsAt index = ordinal := by
  rw [dateAfter, advance_iterate read ends counted]
  exact ends.stays index counted ordinal on

/-- The reading of a series is that of its clock. -/
theorem localToUtc_eq_ok {ordinal instant : Int} (read : ReadOn clock series) :
    series.zone.localToUtc ordinal series.localTime = .ok instant ↔
      instant = readOn clock series ordinal ∧ day ≤ instant ∧ instant < (maxOrdinal + 1) * day := by
  rw [read.zone]
  constructor
  · intro named
    obtain ⟨same, within⟩ := checked_eq_ok.mp named
    refine ⟨same, ?_⟩
    rw [same]
    exact within
  · rintro ⟨same, within⟩
    rw [same] at within ⊢
    exact checked_eq_ok.mpr ⟨rfl, within⟩

/-- Where a later day is in the calendar, each that is counted has a slot. -/
theorem slotsBefore_eq_count {last instant : Int} (read : ReadOn clock series)
    (ends : EndsOnItsDate clock series count) (endless : series.rule.untilAt = none)
    (on : series.candidate (count - 1) = .on last) (after : endOfDate clock last < instant)
    (within : instant < (maxOrdinal + 1) * day) : series.slotsBefore count = count := by
  apply Series.slotsBefore_eq_of_all
  intro index counted
  obtain ⟨ordinal, there⟩ := ends.present index counted
  have floor := ends.begins index counted ordinal there
  have ceiling := (ends.closes last on index counted ordinal there).trans_lt (after.trans within)
  have outcome := (localToUtc_eq_ok read).mpr ⟨rfl, read.started.trans floor, ceiling⟩
  have unended : ¬ series.afterUntil (readOn clock series ordinal) := by
    rintro ⟨untilAt, given, _⟩
    rw [endless] at given
    cases given
  rw [Series.slotAt_of_on there outcome, if_neg (not_or.mpr ⟨Int.not_lt.mpr floor, unended⟩)]
  rfl

/-- Once all are counted, the rule runs over days that are not there only. -/
theorem skipped_of_runs {last : Int} {index : Nat} (read : ReadOn clock series)
    (ends : EndsOnItsDate clock series count) (counted : series.rule.count = some count)
    (endless : series.rule.untilAt = none) (on : series.candidate (count - 1) = .on last)
    (runs : series.Runs index) :
    ∀ earlier < index, count ≤ earlier → series.candidate earlier = .skipped := by
  intro earlier
  induction earlier using Nat.strong_induction_on with
  | _ earlier ih =>
      intro before later
      have continues := runs earlier before
      have skipped : ∀ first < earlier, count ≤ first → series.candidate first = .skipped :=
        fun first sooner => ih first sooner (sooner.trans before)
      unfold Series.Continues Series.reading at continues
      cases candidate : series.candidate earlier with
      | skipped => rfl
      | exhausted => simp [candidate] at continues
      | on ordinal =>
          have after := ends.precedes last on earlier ordinal later skipped candidate
          cases named : series.zone.localToUtc ordinal series.localTime with
          | error failure => simp [candidate, named] at continues
          | ok instant =>
              obtain ⟨rfl, _, high⟩ := (localToUtc_eq_ok read).mp named
              simp only [candidate, named] at continues
              have all := slotsBefore_eq_count read ends endless on after high
              have many := series.slotsBefore_mono later
              rw [all] at many
              exact absurd ⟨count, counted, many⟩ continues.2

/-- **The end date** that is derived from a count leaves out what the count does. -/
theorem endOfDate_lt_iff_reached {index : Nat} {last instant : Int} (read : ReadOn clock series)
    (ends : EndsOnItsDate clock series count) (counted : series.rule.count = some count)
    (endless : series.rule.untilAt = none) (on : series.candidate (count - 1) = .on last)
    (runs : series.Runs index) (named : series.reading index = .named (.ok instant)) :
    endOfDate clock last < instant ↔ series.reached (series.slotsBefore index) := by
  obtain ⟨ordinal, there, read_eq⟩ := Series.reading_eq_named named
  obtain ⟨instant_eq, _, high⟩ := (localToUtc_eq_ok read).mp read_eq
  have reached_iff : series.reached (series.slotsBefore index) ↔
      count ≤ series.slotsBefore index := by
    unfold Series.reached
    rw [counted]
    simp
  rw [reached_iff]
  by_cases inside : index < count
  · apply iff_of_false
    · rw [instant_eq]
      exact Int.not_lt.mpr (ends.closes last on index inside ordinal there)
    · exact Nat.not_le.mpr (series.slotsBefore_le index |>.trans_lt inside)
  · have later := Nat.le_of_not_lt inside
    have after : endOfDate clock last < instant := by
      rw [instant_eq]
      exact ends.precedes last on index ordinal later
        (skipped_of_runs read ends counted endless on runs) there
    have all := slotsBefore_eq_count read ends endless on after high
    apply iff_of_true after
    rw [← all]
    exact Series.slotsBefore_mono later

end EndDate

end FrontDashboard.EventEditor
