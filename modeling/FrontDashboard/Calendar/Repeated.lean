import FrontDashboard.Calendar.Skipped
import FrontDashboard.Calendar.StoredRule
import Mathlib.Data.Set.Card

/-! # The starts that a stored rule repeats

Two starts are equal where their dates are read as one instant: the same date, or one whose time
the clock skips together with the whole day. A walk comes to both unless its window skips the
first or something ends it before the second.
-/

namespace FrontDashboard.Calendar

open Outcomes

namespace StoredSeries

variable {series : StoredSeries} {windowStart windowEnd : Int}

theorem interval_pos (series : StoredSeries) : (1 : Int) ≤ series.interval := by
  unfold interval
  omega

theorem turns_pos (series : StoredSeries) : 0 < series.turns :=
  Nat.lt_of_lt_of_le Nat.zero_lt_one (le_max_left _ _)

theorem le_mul_interval (series : StoredSeries) (index : Nat) :
    (index : Int) ≤ index * series.interval := by
  have advanced := Int.mul_le_mul_of_nonneg_left series.interval_pos (Int.natCast_nonneg index)
  rwa [Int.mul_one] at advanced

/-! ## One iteration -/

/-- The instant at which a date starts by the clock. -/
def instantAt (series : StoredSeries) (date : Int) : Int :=
  date * day + series.localTime - series.zone.wallOffset (date * day + series.localTime)

/-- A date and the instant at which it starts are in the calendar of the years 1 to 9999. -/
def InCalendar (series : StoredSeries) (date : Int) : Prop :=
  1 ≤ date ∧ day ≤ series.instantAt date ∧ series.instantAt date < (maxOrdinal + 1) * day

/-- Nothing ends the rule at an iteration: it names no date, or one of the calendar that starts
before the window ends and not after the end of the rule. -/
def GoesOn (series : StoredSeries) (windowEnd : Int) (index : Nat) : Prop :=
  series.candidate index = .skipped ∨
    ∃ date, series.candidate index = .on date ∧ series.InCalendar date ∧
      series.instantAt date < windowEnd ∧ ¬ series.afterUntil (series.instantAt date)

/-- The start that an iteration names. -/
def startAt (series : StoredSeries) (index : Nat) : Option Int :=
  match series.candidate index with
  | .on date => if series.instantAt date < series.startsAt then none
    else some (series.instantAt date)
  | _ => none

/-- How many starts the first iterations name. -/
def startsBefore (series : StoredSeries) : Nat → Nat
  | 0 => 0
  | index + 1 => series.startsBefore index + (series.startAt index).toList.length

theorem read_eq_ok {date instant : Int} :
    series.read date = .ok instant ↔ series.InCalendar date ∧ instant = series.instantAt date := by
  unfold StoredSeries.read InCalendar
  split
  next early => exact iff_of_false (fun ok => by cases ok) fun inside => by omega
  next late =>
    refine checked_eq_ok.trans ⟨fun ⟨same, inside⟩ => ⟨⟨Int.not_lt.mp late, inside⟩, same⟩,
      fun ⟨⟨_, inside⟩, same⟩ => ⟨same, inside⟩⟩

theorem startAt_of_skipped {index : Nat} (skipped : series.candidate index = .skipped) :
    series.startAt index = none := by
  unfold startAt
  rw [skipped]

theorem startAt_of_on {index : Nat} {date : Int} (on : series.candidate index = .on date) :
    series.startAt index =
      if series.instantAt date < series.startsAt then none else some (series.instantAt date) := by
  unfold startAt
  rw [on]

theorem startAt_eq_some {index : Nat} {instant : Int} :
    series.startAt index = some instant ↔ ∃ date, series.candidate index = .on date ∧
      instant = series.instantAt date ∧ series.startsAt ≤ instant := by
  constructor
  · intro named
    unfold startAt at named
    split at named
    next date on =>
      split at named
      next => cases named
      next begun =>
        cases named
        exact ⟨date, on, rfl, Int.not_lt.mp begun⟩
    next => cases named
  · rintro ⟨date, on, rfl, begun⟩
    rw [startAt_of_on on, if_neg (Int.not_lt.mpr begun)]

theorem startsBefore_mono {earlier later : Nat} (before : earlier ≤ later) :
    series.startsBefore earlier ≤ series.startsBefore later := by
  induction later, before using Nat.le_induction with
  | base => exact le_rfl
  | succ later _ ih => exact ih.trans (Nat.le_add_right _ _)

/-! ## Weekdays -/

theorem weekly_eq_on {index : Nat} {ordinal : Int} (weekly : series.rule.frequency = .weekly)
    (on : series.candidate index = .on ordinal) :
    ∃ weekday, series.weekdays[index % series.turns]? = some weekday ∧
      ordinal = series.weekStart + (index / series.turns : Nat) *
        (7 * series.interval) + weekday := by
  unfold candidate at on
  rw [weekly] at on
  dsimp only at on
  split at on
  next => cases on
  next =>
    split at on
    next => cases on
    next weekday named =>
      split at on
      next => cases on
      next =>
        cases on
        refine ⟨weekday, named, ?_⟩
        rw [Int.mul_comm 7, Int.mul_assoc]

theorem weekly_lt {earlier later : Nat} {ordinal ordinal' : Int}
    (weekly : series.rule.frequency = .weekly)
    (week : ∀ weekday ∈ series.weekdays, 0 ≤ weekday ∧ weekday ≤ 6) (before : earlier < later)
    (on : series.candidate earlier = .on ordinal) (on' : series.candidate later = .on ordinal') :
    ordinal < ordinal' := by
  obtain ⟨weekday, named, rfl⟩ := weekly_eq_on weekly on
  obtain ⟨weekday', named', rfl⟩ := weekly_eq_on weekly on'
  have forward := series.interval_pos
  have whole := Nat.div_add_mod earlier series.turns
  have whole' := Nat.div_add_mod later series.turns
  rcases Nat.lt_or_eq_of_le (Nat.div_le_div_right before.le : _ ≤ later / series.turns) with
    weeks | same
  · have first := week weekday (List.mem_of_getElem? named)
    have last := week weekday' (List.mem_of_getElem? named')
    have further := Int.mul_le_mul_of_nonneg_right (Int.ofNat_le.mpr (Nat.succ_le_of_lt weeks))
      (by omega : (0 : Int) ≤ 7 * series.interval)
    rw [Nat.succ_eq_add_one, Int.natCast_add, Int.add_mul] at further
    omega
  · rw [same] at whole
    have turn : earlier % series.turns < later % series.turns := by omega
    have days := sorted_lt turn named named'
    rw [same]
    omega

/-- The dates of a rule whose weekdays are those of a week are in order. -/
theorem candidate_lt {earlier later : Nat} {ordinal ordinal' : Int} (positive : 1 ≤ series.baseDate)
    (week : ∀ weekday ∈ series.weekdays, 0 ≤ weekday ∧ weekday ≤ 6) (before : earlier < later)
    (on : series.candidate earlier = .on ordinal) (on' : series.candidate later = .on ordinal') :
    ordinal < ordinal' := by
  have forward := series.interval_pos
  have valid : Gregorian.Valid series.base.year series.base.month series.base.day :=
    (Gregorian.toOrdinal_ofOrdinal (by omega)).1
  have further : earlier * series.interval < later * series.interval :=
    Nat.mul_lt_mul_of_pos_right before (by omega)
  cases frequency : series.rule.frequency with
  | daily =>
      unfold candidate at on on'
      rw [frequency] at on on'
      dsimp only at on on'
      split at on <;> cases on
      split at on' <;> cases on'
      exact_mod_cast Int.add_lt_add_left (Int.ofNat_lt.mpr further) series.baseDate
  | weekly => exact weekly_lt frequency week before on on'
  | monthly =>
      unfold candidate at on on'
      rw [frequency] at on on'
      dsimp only at on on'
      exact safeDate_lt (addMonths_valid valid (safeDate_eq_on on).1)
        (addMonths_lt further valid.months) on on'
  | yearly =>
      unfold candidate at on on'
      rw [frequency] at on on'
      dsimp only at on on'
      have years := valid.years
      exact safeDate_lt ⟨by omega, valid.months, valid.days.1, (safeDate_eq_on on).1⟩
        (.inl (by omega)) on on'

/-! ## Equal starts -/

/-- The clock is set forward by a whole day between a time of a date and that of the next. -/
def SkipsDay (zone : Zone) (localTime date : Int) : Prop :=
  zone.wallOffset ((date + 1) * day + localTime) - zone.wallOffset (date * day + localTime) = day

/-- Two dates are the same, or a day is skipped from one to the other. -/
def Meet (zone : Zone) (localTime date other : Int) : Prop :=
  date = other ∨ (other = date + 1 ∧ SkipsDay zone localTime date) ∨
    (date = other + 1 ∧ SkipsDay zone localTime other)

/-- The days by which a daily or weekly rule advances. -/
def span (series : StoredSeries) : Option Int :=
  match series.rule.frequency with
  | .daily => some series.interval
  | .weekly => some (7 * series.interval)
  | .monthly | .yearly => none

/-- One span, and as many as cover the whole days of the duration, one at least. -/
def lead (series : StoredSeries) (days : Int) : Int :=
  days + max 1 ((series.duration / day + days - 1) / days) * days

/-- The day of an iteration that the lead is counted from: for a weekly rule the Monday. -/
def anchor (series : StoredSeries) (index : Nat) : Int :=
  match series.rule.frequency with
  | .weekly => series.weekStart + (index / series.turns : Nat) * (7 * series.interval)
  | _ => series.baseDate + index * series.interval

/-- A daily or weekly rule without a count is not walked, for a later window, where it lies the
lead before the day on which the window starts. -/
def Skips (series : StoredSeries) (windowStart : Int) (index : Nat) : Prop :=
  series.rule.count = none ∧ series.startsAt < windowStart ∧
    ∃ days ∈ series.span, series.anchor index + series.lead days ≤ windowStart / day

/-- **A start is repeated** in a window: two iterations that the window does not skip name dates
that meet, the first of them not before the event's own start, and neither the rule nor the
window ends by the second, nor is the count used up before it. -/
structure Repeats (series : StoredSeries) (windowStart windowEnd : Int) (earlier later : Nat) :
    Prop where
  ordered : earlier < later
  meets : ∃ date other, series.candidate earlier = .on date ∧ series.candidate later = .on other ∧
    Meet series.zone series.localTime date other
  kept : ¬ series.Skips windowStart earlier
  begun : (series.startAt earlier).isSome
  goesOn : ∀ index ≤ later, ¬ series.Skips windowStart index → series.GoesOn windowEnd index
  counted : ¬ series.reached (series.startsBefore later)

/-- **Two dates are one instant** exactly where they meet. -/
theorem instantAt_eq_iff (offsets : ShortOffsets series.zone) {date other : Int} :
    series.instantAt date = series.instantAt other ↔
      Meet series.zone series.localTime date other := by
  unfold instantAt
  have first := offsets.wall (date * day + series.localTime)
  have second := offsets.wall (other * day + series.localTime)
  constructor
  · intro same
    have near : other = date ∨ other = date + 1 ∨ date = other + 1 := by
      unfold day at *
      omega
    rcases near with rfl | rfl | rfl
    · exact .inl rfl
    · refine .inr (.inl ⟨rfl, ?_⟩)
      unfold SkipsDay
      unfold day at *
      omega
    · refine .inr (.inr ⟨rfl, ?_⟩)
      unfold SkipsDay
      unfold day at *
      omega
  · rintro (rfl | ⟨rfl, skips⟩ | ⟨rfl, skips⟩)
    · rfl
    · unfold SkipsDay at skips
      unfold day at *
      omega
    · unfold SkipsDay at skips
      unfold day at *
      omega

/-- The days of a number that two months share are four weeks apart. -/
theorem safeDate_far {year month year' month' dayOfMonth : Nat} {date other : Int}
    (valid : Gregorian.Valid year month dayOfMonth)
    (later : year < year' ∨ year = year' ∧ month < month')
    (on : safeDate year month dayOfMonth = .on date)
    (on' : safeDate year' month' dayOfMonth = .on other) : date + 27 < other := by
  have present := (safeDate_eq_on on).1
  have long := Gregorian.le_daysInMonth year month
  have last : Gregorian.Valid year month (Gregorian.daysInMonth year month) :=
    ⟨valid.years, valid.months, by omega, le_rfl⟩
  have before := Gregorian.toOrdinal_lt last later
  rw [(safeDate_eq_on on).2, (safeDate_eq_on on').2]
  unfold Gregorian.toOrdinal at before ⊢
  omega

/-- The base of a series is a day of the calendar. -/
theorem base_valid (positive : 1 ≤ series.baseDate) :
    Gregorian.Valid series.base.year series.base.month series.base.day :=
  (Gregorian.toOrdinal_ofOrdinal (by omega)).1

/-- Rules by months and years have no dates that meet. -/
theorem span_of_meet (positive : 1 ≤ series.baseDate) {earlier later : Nat} {date other : Int}
    (ordered : earlier < later) (on : series.candidate earlier = .on date)
    (on' : series.candidate later = .on other)
    (meet : Meet series.zone series.localTime date other) :
    ∃ days, series.span = some days := by
  have valid := base_valid positive
  have forward := series.interval_pos
  have further : earlier * series.interval < later * series.interval :=
    Nat.mul_lt_mul_of_pos_right ordered (by omega)
  have near : other ≤ date + 1 := by
    rcases meet with same | ⟨next, _⟩ | ⟨next, _⟩ <;> omega
  unfold candidate at on on'
  unfold span
  cases frequency : series.rule.frequency with
  | daily => exact ⟨_, rfl⟩
  | weekly => exact ⟨_, rfl⟩
  | monthly =>
      rw [frequency] at on on'
      dsimp only at on on'
      have far := safeDate_far (addMonths_valid valid (safeDate_eq_on on).1)
        (addMonths_lt further valid.months) on on'
      omega
  | yearly =>
      rw [frequency] at on on'
      dsimp only at on on'
      have years := valid.years
      have far := safeDate_far ⟨by omega, valid.months, valid.days.1, (safeDate_eq_on on).1⟩
        (.inl (by omega)) on on'
      omega

/-! ## The first iteration -/

/-- **What a daily or weekly walk skips.** -/
theorem lt_firstIndex_iff {index : Nat} {days : Int} (spans : series.span = some days) :
    index < series.firstIndex windowStart ↔ series.Skips windowStart index := by
  have positive := series.interval_pos
  unfold firstIndex Skips
  by_cases whole : series.rule.count.isSome = true ∨ windowStart ≤ series.startsAt
  · rw [if_pos whole]
    refine iff_of_false (Nat.not_lt_zero _) fun ⟨uncounted, late, _⟩ => ?_
    rw [uncounted] at whole
    exact whole.elim Bool.false_ne_true (Int.not_le.mpr late)
  · obtain ⟨counted, late⟩ := not_or.mp whole
    rw [Bool.not_eq_true, Option.isSome_eq_false_iff, Option.isNone_iff_eq_none] at counted
    rw [if_neg whole, and_iff_right counted, and_iff_right (Int.not_le.mp late), spans]
    simp only [Option.mem_def, Option.some.injEq, exists_eq_left']
    unfold skippedTo anchor lead
    unfold span at spans
    cases frequency : series.rule.frequency with
    | daily =>
        rw [frequency] at spans
        cases spans
        dsimp only
        rw [Series.lt_skip_iff (by omega), Int.add_mul, Int.add_mul, Int.one_mul]
        omega
    | weekly =>
        rw [frequency] at spans
        cases spans
        dsimp only
        have further : (0 : Int) ≤ (index / series.turns : Nat) * (7 * series.interval) :=
          Int.mul_nonneg (Int.natCast_nonneg _) (by omega)
        have back : 0 ≤ max 1 ((series.duration / day + 7 * series.interval - 1) /
            (7 * series.interval)) * (7 * series.interval) := Int.mul_nonneg (by omega) (by omega)
        rw [← Nat.div_lt_iff_lt_mul series.turns_pos, Series.lt_skip_iff (by omega), Int.add_mul,
          Int.add_mul, Int.one_mul]
        omega
    | monthly =>
        rw [frequency] at spans
        cases spans
    | yearly =>
        rw [frequency] at spans
        cases spans

/-! ## Weekdays of a week -/

/-- The weekdays of a rule are numbers from 0 to 6, as those of every rule that was validated. -/
def OfWeek (rule : StoredRule) : Prop :=
  ∀ weekdays ∈ rule.byWeekday, ∀ weekday ∈ weekdays, 0 ≤ weekday ∧ weekday ≤ 6

theorem weekdays_of_week (week : OfWeek series.rule) :
    ∀ weekday ∈ series.weekdays, 0 ≤ weekday ∧ weekday ≤ 6 := by
  intro weekday member
  have named := List.mem_dedup.mp ((List.mem_insertionSort _).mp member)
  cases given : series.rule.byWeekday with
  | none =>
      rw [given] at named
      obtain rfl := List.mem_singleton.mp named
      unfold weekdayOf
      omega
  | some weekdays =>
      rw [given] at named
      exact week weekdays given weekday named

/-- The rule names a date. -/
def Names (series : StoredSeries) (date : Int) : Prop :=
  ∃ index, series.candidate index = .on date

/-- The day of a date that the lead is counted from: for a weekly rule the Monday. -/
def anchorOf (series : StoredSeries) (date : Int) : Int :=
  match series.rule.frequency with
  | .weekly => date - weekdayOf date
  | _ => date

/-- A daily or weekly rule without a count is not walked, for a later window, on the dates that
lie the lead before the day on which the window starts. -/
def SkipsDate (series : StoredSeries) (windowStart date : Int) : Prop :=
  series.rule.count = none ∧ series.startsAt < windowStart ∧
    ∃ days ∈ series.span, series.anchorOf date + series.lead days ≤ windowStart / day

/-- **A date and the next start at one instant** in a window: the rule names both, the clock skips
the day between them, the instant is that of no date that the window skips, not before the event's
own start, before the window ends and not after the end of the rule, which counts on after it. -/
structure Doubles (series : StoredSeries) (windowStart windowEnd date : Int) : Prop where
  names : series.Names date
  next : series.Names (date + 1)
  skips : SkipsDay series.zone series.localTime date
  kept : ¬ series.SkipsDate windowStart date
  begun : series.startsAt ≤ series.instantAt date
  before : series.instantAt date < windowEnd
  early : ¬ series.afterUntil (series.instantAt date)
  inCalendar : ∀ other ≤ date, series.Names other → ¬ series.SkipsDate windowStart other →
    series.InCalendar other
  counted : ¬ series.reached
    {other | series.Names other ∧ other ≤ date ∧ series.startsAt ≤ series.instantAt other}.ncard

section Week

variable (week : ∀ weekday ∈ series.weekdays, 0 ≤ weekday ∧ weekday ≤ 6)
include week

/-- The day that the lead of an iteration is counted from. -/
theorem anchor_eq {index : Nat} {date : Int} (on : series.candidate index = .on date)
    (spans : series.span.isSome) : series.anchor index = series.anchorOf date := by
  unfold anchor anchorOf
  cases frequency : series.rule.frequency with
  | daily =>
      unfold candidate at on
      rw [frequency] at on
      dsimp only at on ⊢
      split at on <;> cases on
      rfl
  | weekly =>
      obtain ⟨weekday, named, rfl⟩ := weekly_eq_on frequency on
      have days := week weekday (List.mem_of_getElem? named)
      dsimp only
      have weeks : ((index / series.turns : Nat) : Int) * (7 * series.interval) =
          7 * ((index / series.turns : Nat) * series.interval) := Int.mul_left_comm _ _ _
      rw [weeks]
      unfold weekStart weekdayOf
      omega
  | monthly =>
      rw [span, frequency] at spans
      cases spans
  | yearly =>
      rw [span, frequency] at spans
      cases spans

theorem skips_iff {index : Nat} {date : Int} (on : series.candidate index = .on date) :
    series.Skips windowStart index ↔ series.SkipsDate windowStart date := by
  refine and_congr_right fun _ => and_congr_right fun _ => exists_congr fun days =>
    and_congr_right fun spans => ?_
  rw [anchor_eq week on (Option.isSome_of_mem spans)]

/-- A daily or weekly rule that is exhausted stays so. -/
theorem not_exhausted {earlier later : Nat} {date : Int} (spans : series.span.isSome)
    (before : earlier ≤ later) (on : series.candidate later = .on date) :
    series.candidate earlier ≠ .exhausted := by
  intro exhausted
  have forward := series.interval_pos
  cases frequency : series.rule.frequency with
  | daily =>
      unfold candidate at exhausted on
      rw [frequency] at exhausted on
      dsimp only at exhausted on
      split at on
      next => cases on
      next within =>
        split at exhausted
        next far =>
          have further : (earlier : Int) * series.interval ≤ later * series.interval :=
            Int.mul_le_mul_of_nonneg_right (Int.ofNat_le.mpr before) (by omega)
          omega
        next => cases exhausted
  | weekly =>
      obtain ⟨weekday, named, rfl⟩ := weekly_eq_on frequency on
      have days := week weekday (List.mem_of_getElem? named)
      have whole := Nat.div_add_mod earlier series.turns
      have whole' := Nat.div_add_mod later series.turns
      have weeks : earlier / series.turns ≤ later / series.turns :=
        Nat.div_le_div_right before
      have further : ((earlier / series.turns : Nat) : Int) * (7 * series.interval) ≤
          (later / series.turns : Nat) * (7 * series.interval) :=
        Int.mul_le_mul_of_nonneg_right (Int.ofNat_le.mpr weeks) (by omega)
      have assoc : ∀ weeks : Nat, (7 : Int) * weeks * series.interval =
          weeks * (7 * series.interval) := fun weeks => by
        rw [Int.mul_comm 7, Int.mul_assoc]
      unfold candidate at exhausted on
      rw [frequency] at exhausted on
      dsimp only at exhausted on
      rw [assoc] at exhausted on
      split at on
      next => cases on
      next within =>
        rw [named] at on
        dsimp only at on
        split at on
        next => cases on
        next inside =>
          split at exhausted
          next far => omega
          next near =>
            split at exhausted
            next => cases exhausted
            next other named' =>
              split at exhausted
              next far =>
                have days' := week other (List.mem_of_getElem? named')
                rcases Nat.lt_or_eq_of_le weeks with sooner | same
                · have next := Int.mul_le_mul_of_nonneg_right
                    (Int.ofNat_le.mpr (Nat.succ_le_of_lt sooner))
                    (by omega : (0 : Int) ≤ 7 * series.interval)
                  rw [Nat.succ_eq_add_one, Int.natCast_add, Int.add_mul] at next
                  omega
                · rw [same] at far whole
                  rcases Nat.lt_or_eq_of_le (by omega :
                      earlier % series.turns ≤ later % series.turns) with turn | turn
                  · have ordered := sorted_lt turn named' named
                    omega
                  · rw [turn] at named'
                    cases named.symm.trans named'
                    exact inside far
              next => cases exhausted
  | monthly =>
      rw [span, frequency] at spans
      cases spans
  | yearly =>
      rw [span, frequency] at spans
      cases spans

variable (positive : 1 ≤ series.baseDate)
include positive

/-- Iterations are in the order of their dates. -/
theorem candidate_lt_iff {earlier later : Nat} {date other : Int}
    (on : series.candidate earlier = .on date) (on' : series.candidate later = .on other) :
    date < other ↔ earlier < later := by
  refine ⟨fun before => ?_, fun before => candidate_lt positive week before on on'⟩
  rcases Nat.lt_trichotomy earlier later with sooner | rfl | sooner
  · exact sooner
  · cases on.symm.trans on'
    exact absurd before (lt_irrefl _)
  · exact absurd before (candidate_lt positive week sooner on' on).asymm

/-- What the starts before a date are counted as. -/
theorem startsBefore_eq_ncard (index : Nat) :
    series.startsBefore index = {date | ∃ before < index, series.candidate before = .on date ∧
      series.startsAt ≤ series.instantAt date}.ncard := by
  induction index with
  | zero => simp [startsBefore]
  | succ index ih =>
      rw [startsBefore, ih]
      cases named : series.startAt index with
      | none =>
          rw [Option.toList_none, List.length_nil, Nat.add_zero]
          congr 1
          ext date
          constructor
          · rintro ⟨before, earlier, rest⟩
            exact ⟨before, Nat.lt_succ_of_lt earlier, rest⟩
          · rintro ⟨before, earlier, on, begun⟩
            refine ⟨before, (Nat.le_of_lt_succ earlier).lt_of_ne ?_, on, begun⟩
            rintro rfl
            rw [startAt_eq_some.mpr ⟨date, on, rfl, begun⟩] at named
            cases named
      | some start =>
          obtain ⟨date, on, rfl, begun⟩ := startAt_eq_some.mp named
          rw [Option.toList_some, List.length_singleton]
          have fresh : date ∉ {date | ∃ before < index, series.candidate before = .on date ∧
              series.startsAt ≤ series.instantAt date} := by
            rintro ⟨before, earlier, on', -⟩
            exact lt_irrefl _ (candidate_lt positive week earlier on' on)
          have finite : {date | ∃ before < index, series.candidate before = .on date ∧
              series.startsAt ≤ series.instantAt date}.Finite := by
            refine ((Set.finite_lt_nat index).image fun before =>
              match series.candidate before with | .on date => date | _ => 0).subset ?_
            rintro other ⟨before, earlier, on', -⟩
            exact ⟨before, earlier, by simp only [on']⟩
          rw [← Set.ncard_insert_of_notMem fresh finite]
          congr 1
          ext other
          constructor
          · rintro (rfl | ⟨before, earlier, rest⟩)
            · exact ⟨index, Nat.lt_succ_self index, on, begun⟩
            · exact ⟨before, Nat.lt_succ_of_lt earlier, rest⟩
          · rintro ⟨before, earlier, on', begun'⟩
            rcases Nat.lt_or_eq_of_le (Nat.le_of_lt_succ earlier) with sooner | rfl
            · exact .inr ⟨before, sooner, on', begun'⟩
            · cases on.symm.trans on'
              exact .inl rfl

end Week

/-- Before a day that the clock skips, it puts a later date later. -/
theorem SkipsDay.instantAt_le (offsets : ShortOffsets series.zone) {date other : Int}
    (skips : SkipsDay series.zone series.localTime date) (before : other ≤ date) :
    series.instantAt other ≤ series.instantAt date := by
  rcases Int.lt_or_eq_of_le before with earlier | rfl
  · have own := offsets.wall (date * day + series.localTime)
    have next := offsets.wall ((date + 1) * day + series.localTime)
    have past := offsets.wall (other * day + series.localTime)
    unfold SkipsDay at skips
    unfold instantAt
    unfold day at *
    omega
  · exact le_rfl

/-- **The repeated starts of a validated rule** are those of dates that double. -/
theorem exists_repeats_iff (offsets : ShortOffsets series.zone) (positive : 1 ≤ series.baseDate)
    (week : OfWeek series.rule) :
    (∃ earlier later, series.Repeats windowStart windowEnd earlier later) ↔
      ∃ date, series.Doubles windowStart windowEnd date := by
  have days := weekdays_of_week week
  have starts : ∀ {later : Nat} {date : Int}, series.candidate later = .on (date + 1) →
      series.startsBefore later = {other | series.Names other ∧ other ≤ date ∧
        series.startsAt ≤ series.instantAt other}.ncard := by
    intro later date on
    rw [startsBefore_eq_ncard days positive]
    congr 1
    ext other
    constructor
    · rintro ⟨before, earlier, named, begun⟩
      exact ⟨⟨before, named⟩, Int.lt_add_one_iff.mp (candidate_lt positive days earlier named on),
        begun⟩
    · rintro ⟨⟨before, named⟩, earlier, begun⟩
      exact ⟨before, (candidate_lt_iff days positive named on).mp (Int.lt_add_one_of_le earlier),
        named, begun⟩
  constructor
  · rintro ⟨earlier, later, repeats⟩
    obtain ⟨date, other, on, on', meet⟩ := repeats.meets
    have ordered := candidate_lt positive days repeats.ordered on on'
    obtain ⟨rfl, skips⟩ : other = date + 1 ∧ SkipsDay series.zone series.localTime date := by
      rcases meet with same | here | ⟨back, -⟩
      · omega
      · exact here
      · omega
    obtain ⟨start, named⟩ := Option.isSome_iff_exists.mp repeats.begun
    obtain ⟨own, found, rfl, begun⟩ := startAt_eq_some.mp named
    cases on.symm.trans found
    have goes : ∀ {index : Nat} {other : Int}, index ≤ later → series.candidate index = .on other →
        ¬ series.SkipsDate windowStart other → series.InCalendar other ∧
          series.instantAt other < windowEnd ∧ ¬ series.afterUntil (series.instantAt other) := by
      intro index other upper at_ kept
      rcases repeats.goesOn index upper ((skips_iff days at_).not.mpr kept) with
        skipped | ⟨date', at_', inside⟩
      · cases skipped.symm.trans at_
      · cases at_.symm.trans at_'
        exact inside
    have kept := (skips_iff days on).not.mp repeats.kept
    obtain ⟨-, before, early⟩ := goes repeats.ordered.le on kept
    refine ⟨date, ⟨earlier, on⟩, ⟨later, on'⟩, skips, kept, begun, before, early, ?_, ?_⟩
    · rintro other upper ⟨index, at_⟩ kept'
      have sooner := (candidate_lt_iff days positive at_ on').mp (Int.lt_add_one_of_le upper)
      exact (goes sooner.le at_ kept').1
    · rw [← starts on']
      exact repeats.counted
  · rintro ⟨date, doubles⟩
    obtain ⟨earlier, on⟩ := doubles.names
    obtain ⟨later, on'⟩ := doubles.next
    have ordered := (candidate_lt_iff days positive on on').mp (Int.lt_succ date)
    have meet : Meet series.zone series.localTime date (date + 1) :=
      .inr (.inl ⟨rfl, doubles.skips⟩)
    obtain ⟨_, spans⟩ := span_of_meet positive ordered on on' meet
    have spans' : series.span.isSome := by
      rw [spans]
      rfl
    refine ⟨earlier, later, ordered, ⟨date, date + 1, on, on', meet⟩,
      (skips_iff days on).not.mpr doubles.kept, ?_, ?_, ?_⟩
    · rw [startAt_eq_some.mpr ⟨date, on, rfl, doubles.begun⟩]
      rfl
    · intro index upper kept
      cases found : series.candidate index with
      | exhausted => exact absurd found (not_exhausted days spans' upper on')
      | skipped => exact .inl found
      | on other =>
          refine .inr ⟨other, found, ?_⟩
          have kept' := (skips_iff days found).not.mp kept
          rcases Nat.lt_or_eq_of_le upper with sooner | rfl
          · have below := Int.lt_add_one_iff.mp (candidate_lt positive days sooner found on')
            have instant := doubles.skips.instantAt_le offsets below
            refine ⟨doubles.inCalendar other below ⟨index, found⟩ kept',
              instant.trans_lt doubles.before, ?_⟩
            rintro ⟨untilAt, given, past⟩
            exact doubles.early ⟨untilAt, given, past.trans_le instant⟩
          · cases on'.symm.trans found
            have same := (instantAt_eq_iff offsets).mpr meet
            obtain ⟨first, inside⟩ := doubles.inCalendar date le_rfl doubles.names doubles.kept
            rw [← same]
            exact ⟨⟨by omega, same ▸ inside⟩, doubles.before, doubles.early⟩
    · rw [starts on']
      exact doubles.counted

end StoredSeries

end FrontDashboard.Calendar
