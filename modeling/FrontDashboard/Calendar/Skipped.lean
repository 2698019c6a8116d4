import FrontDashboard.Calendar.InOrder

/-! # What a walk to a window skips

A walk to a later window begins some intervals before it. By days it skips the dates that lie a
lead before the day on which the window starts, whether their occurrences have ended or not. By
months and years it skips only occurrences that have.
-/

namespace FrontDashboard.Calendar.Series

variable {series : Series} {windowStart : Int} {index : Nat}

/-- The days by which a daily or weekly series advances. -/
def span (series : Series) : Option Int :=
  match series.rule.frequency with
  | .daily => some series.interval
  | .weekly => some (7 * series.interval)
  | .monthly | .yearly => none

theorem span_eq_some {days : Int} : series.span = some days ↔
    series.rule.frequency = .daily ∧ days = series.interval ∨
      series.rule.frequency = .weekly ∧ days = 7 * series.interval := by
  unfold span
  cases series.rule.frequency <;> simp [eq_comm]

theorem span_eq_none : series.span = none ↔
    series.rule.frequency = .monthly ∨ series.rule.frequency = .yearly := by
  unfold span
  cases series.rule.frequency <;> simp

/-- One span, and as many as cover the whole days of the duration, one at least. -/
def lead (series : Series) (days : Int) : Int :=
  days + max 1 ((series.duration / day + days - 1) / days) * days

/-- The day of a date that the lead is counted from: for a weekly series the Monday. -/
def anchor (series : Series) (date : Int) : Int :=
  match series.rule.frequency with
  | .weekly => date - weekdayOf date
  | _ => date

theorem lt_skip_iff {ahead interval back : Int} (positive : 0 < interval) :
    index < (ahead / interval - back).toNat ↔ (index + 1 + back) * interval ≤ ahead := by
  rw [← Int.le_ediv_iff_mul_le positive]
  omega

theorem lt_div_iff {ahead interval : Int} (positive : 0 < interval) :
    index < (ahead / interval).toNat ↔ index * interval + interval ≤ ahead := by
  have skip := @lt_skip_iff index ahead interval 0 positive
  rwa [Int.sub_zero, Int.add_zero, Int.add_mul, Int.one_mul] at skip

theorem weekdayOf_weekly {weeks weekday : Int} (series : Series)
    (week : 0 ≤ weekday ∧ weekday ≤ 6) :
    weekdayOf (series.weekStart + 7 * weeks + weekday) = weekday := by
  unfold weekStart weekdayOf
  omega

/-- **By days**, a walk skips the dates that lie the lead before its window. -/
theorem skipped_iff {date days : Int} (uncounted : series.rule.count = none)
    (late : series.startsAt < windowStart) (spans : series.span = some days)
    (on : series.candidate index = .on date) :
    index < series.firstIndex windowStart ↔
      series.anchor date + series.lead days ≤ windowStart / day := by
  have positive := series.interval_pos
  have skips : ¬ (series.rule.count.isSome = true ∨ windowStart ≤ series.startsAt) := by
    simp [uncounted, late]
  unfold firstIndex anchor lead
  rw [if_neg skips]
  rcases span_eq_some.mp spans with ⟨daily, rfl⟩ | ⟨weekly, rfl⟩
  · unfold candidate at on
    rw [daily] at on ⊢
    dsimp only at on ⊢
    split at on <;> cases on
    rw [lt_skip_iff positive, Int.add_mul, Int.add_mul, Int.one_mul]
    omega
  · obtain ⟨weekday, named, rfl, _⟩ := weekly_eq_on weekly on
    have some : 0 < series.weekdays.length :=
      Nat.zero_lt_of_lt (Nat.lt_of_le_of_lt (Nat.zero_le _)
        (List.getElem?_eq_some_iff.mp named).1)
    have week := weekday_le weekly weekday (List.mem_of_getElem? named)
    have monday := @weekdayOf_weekly
      ((index / series.weekdays.length : Nat) * series.interval) weekday series (by omega)
    have further : (0 : Int) ≤ (index / series.weekdays.length : Nat) * series.interval :=
      Int.mul_nonneg (Int.natCast_nonneg _) positive.le
    have back : 0 ≤ max 1 ((series.duration / day + 7 * series.interval - 1) /
        (7 * series.interval)) * (7 * series.interval) := Int.mul_nonneg (by omega) (by omega)
    have weeks : ((index / series.weekdays.length : Nat) : Int) * (7 * series.interval) =
        7 * ((index / series.weekdays.length : Nat) * series.interval) := Int.mul_left_comm _ _ _
    rw [weekly]
    dsimp only
    rw [← Nat.div_lt_iff_lt_mul some, lt_skip_iff (by omega), Int.add_mul, Int.add_mul,
      Int.one_mul, weeks, monday]
    omega

/-- A candidate whose date lies so many days before the window has ended when it starts. -/
theorem ended_of_date {date instant : Int} (offsets : ShortOffsets series.zone)
    (clock : series.localTime < day) (before : date + series.duration / day + 3 ≤ windowStart / day)
    (read : series.zone.localToUtc date series.localTime = .ok instant) :
    instant + series.duration ≤ windowStart := by
  have offset := (offsets.wall (date * day + series.localTime)).1
  rw [(checked_eq_ok.mp read).1]
  unfold day at *
  omega

/-- **By months and years**, a walk skips only what has ended. -/
theorem ended_of_skipped {date instant : Int} (offsets : ShortOffsets series.zone)
    (inOrder : series.InOrder) (lasts : 0 ≤ series.duration)
    (spans : series.span = none) (skipped : index < series.firstIndex windowStart)
    (on : series.candidate index = .on date)
    (read : series.zone.localToUtc date series.localTime = .ok instant) :
    instant + series.duration ≤ windowStart := by
  have positive := series.interval_pos
  have valid := base_valid inOrder.based
  have nonneg : 0 ≤ series.duration / day := Int.ediv_nonneg lasts (by decide)
  have years := valid.years
  have months := valid.months
  have first : Gregorian.ofOrdinal 0 = ⟨1, 1, 1⟩ := by decide
  have further : (0 : Int) ≤ index * series.interval :=
    Int.mul_nonneg (Int.natCast_nonneg _) positive.le
  apply ended_of_date offsets inOrder.clock.2 _ read
  unfold firstIndex at skipped
  split at skipped
  next => exact absurd skipped (Nat.not_lt_zero _)
  next =>
    unfold candidate at on
    rcases span_eq_none.mp spans with monthly | yearly
    · rw [monthly] at on skipped
      dsimp only at on skipped
      rw [lt_div_iff positive] at skipped
      obtain ⟨present, rfl⟩ := safeDate_eq_on on
      have today : 1 ≤ (windowStart / day).toNat := by
        by_contra early
        rw [Nat.lt_one_iff.mp (Nat.not_le.mp early), first] at skipped
        dsimp only at skipped
        omega
      have month : 12 * (addMonths series.base (index * series.interval)).1 +
          (addMonths series.base (index * series.interval)).2 =
          12 * series.base.year + series.base.month + index * series.interval := by
        dsimp only [addMonths]
        omega
      have passed := @Gregorian.days_between_months _ _ _
        ((series.duration / day).toNat / 28 + 2) _ (addMonths_valid valid present) today (by
          rw [month]
          omega)
      omega
    · rw [yearly] at on skipped
      dsimp only at on skipped
      rw [lt_div_iff positive] at skipped
      obtain ⟨present, rfl⟩ := safeDate_eq_on on
      have today : 1 ≤ (windowStart / day).toNat := by
        by_contra early
        rw [Nat.lt_one_iff.mp (Nat.not_le.mp early), first] at skipped
        dsimp only at skipped
        omega
      have passed := @Gregorian.days_between_years _ _ _
        ((series.duration / day).toNat / 365 + 2) _
        ⟨by omega, valid.months, valid.days.1, present⟩ today (by omega)
      omega

end FrontDashboard.Calendar.Series
