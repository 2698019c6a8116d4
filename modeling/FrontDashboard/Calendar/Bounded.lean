import FrontDashboard.Calendar.Rows
import FrontDashboard.Events.WellFormed
import Mathlib.Data.List.Dedup
import Mathlib.Data.List.Perm.Subperm

/-! # An accepted event can be listed

Skipping ahead falls short of a window by two intervals and the length of the event at most, so
that a few hundred iterations pass its end whatever the rule. A rule that counts skips nothing,
and is done when it has counted.
-/

namespace FrontDashboard.Calendar

open Outcomes
open Events (flushed_checked)

/-- The offsets of a `ZoneInfo` are shorter than a day. -/
structure ShortOffsets (zone : Zone) : Prop where
  utc : ∀ instant, -day < zone.utcOffset instant ∧ zone.utcOffset instant < day
  wall : ∀ wall, -day < zone.wallOffset wall ∧ zone.wallOffset wall < day

/-! ## Skipping ahead -/

/-- Whole intervals up to a point, less those that cover a length, fall short of the point by the
length and two intervals at most. -/
theorem skip_ahead {interval length : Int} (ahead : Int) (positive : 0 < interval)
    (covered : 0 ≤ length) :
    ahead - length - 2 * interval ≤
      (ahead / interval - max 1 ((length + interval - 1) / interval)) * interval := by
  have whole := Int.lt_ediv_add_one_mul_self ahead positive
  rw [Int.add_mul, Int.one_mul] at whole
  have back : max 1 ((length + interval - 1) / interval) * interval ≤ length + interval := by
    rcases le_total 1 ((length + interval - 1) / interval) with more | one
    · rw [max_eq_right more]
      have fits := Int.ediv_mul_le (length + interval - 1) (Int.ne_of_gt positive)
      omega
    · rw [max_eq_left one, Int.one_mul]
      omega
  rw [Int.sub_mul]
  omega

/-- The same for a point that lies some distance back. -/
theorem skip_back {interval : Int} (ahead back : Int) (positive : 0 < interval) :
    ahead - back - interval < (ahead - back) / interval * interval := by
  have whole := Int.lt_ediv_add_one_mul_self (ahead - back) positive
  rw [Int.add_mul, Int.one_mul] at whole
  omega

/-- Iterations past the first advance by the interval each. -/
theorem le_index_mul {first : Int} {index reach : Nat} {interval : Int} (positive : 0 < interval)
    (further : first.toNat + reach ≤ index) :
    first * interval + reach * interval ≤ index * interval := by
  have bound : first + reach ≤ index := by omega
  have advanced := Int.mul_le_mul_of_nonneg_right bound positive.le
  rwa [Int.add_mul] at advanced

namespace Series

variable {series : Series} {windowStart windowEnd : Int}

/-- From an iteration on, the candidates are past the window. -/
def Past (series : Series) (windowEnd : Int) (bound : Nat) : Prop :=
  ∀ index, bound ≤ index → ∀ ordinal instant, series.candidate index = .on ordinal →
    series.zone.localToUtc ordinal series.localTime = .ok instant → windowEnd ≤ instant

/-- A slot is a candidate's date, read at the series' local time. -/
theorem exists_on_of_slotAt {index : Nat} {instant : Int}
    (slot : series.slotAt index = some instant) :
    ∃ ordinal, series.candidate index = .on ordinal ∧
      series.zone.localToUtc ordinal series.localTime = .ok instant := by
  unfold slotAt at slot
  split at slot
  next ordinal on =>
    split at slot
    next read =>
      split at slot
      next => cases slot
      next =>
        cases slot
        exact ⟨ordinal, on, read⟩
    next => cases slot
  next => cases slot

/-- **A walk** emits once an iteration at most, before its candidates are past the window. -/
theorem length_walk_le_past {bound iterations wanted index emitted : Nat} {starts : List Int}
    (past : series.Past windowEnd bound)
    (walked : series.walk windowEnd iterations wanted index emitted = .ok starts) :
    starts.length ≤ bound - index := by
  induction iterations generalizing wanted index emitted starts with
  | zero =>
      cases walked
      exact Nat.zero_le _
  | succ iterations ih =>
      cases wanted with
      | zero =>
          cases walked
          exact Nat.zero_le _
      | succ wanted =>
          rcases walk_cases walked with ⟨_, nothing⟩ | ⟨_, remaining⟩ |
            ⟨instant, rest, slot, inside, _, built, remaining⟩
          · rw [nothing]
            exact Nat.zero_le _
          · have fewer := ih remaining
            omega
          · have before : index < bound := by
              by_contra further
              obtain ⟨ordinal, on, read⟩ := exists_on_of_slotAt slot
              exact absurd (past index (Nat.not_lt.mp further) ordinal instant on read)
                (Int.not_le.mpr inside)
            have fewer := ih remaining
            rw [built, List.length_cons]
            omega

/-- A walk that counts emits no more than it may. -/
theorem length_walk_le_count {limit iterations wanted index emitted : Nat} {starts : List Int}
    (counted : series.rule.count = some limit)
    (walked : series.walk windowEnd iterations wanted index emitted = .ok starts) :
    starts.length ≤ limit - emitted := by
  induction iterations generalizing wanted index emitted starts with
  | zero =>
      cases walked
      exact Nat.zero_le _
  | succ iterations ih =>
      cases wanted with
      | zero =>
          cases walked
          exact Nat.zero_le _
      | succ wanted =>
          rcases walk_cases walked with ⟨_, nothing⟩ | ⟨_, remaining⟩ |
            ⟨instant, rest, _, _, unreached, built, remaining⟩
          · rw [nothing]
            exact Nat.zero_le _
          · exact ih remaining
          · have before : emitted < limit := by
              by_contra done
              exact unreached ⟨limit, counted, Nat.not_lt.mp done⟩
            have fewer := ih remaining
            rw [built, List.length_cons]
            omega

/-- The days of a series and of a window that the listing admits. -/
structure Listed (series : Series) (windowStart windowEnd : Int) : Prop where
  offsets : ShortOffsets series.zone
  clock : 0 ≤ series.localTime
  opening : series.startsAt / day ≤ series.baseDate + 1
  nonneg : 0 ≤ series.duration / day
  short : series.duration / day ≤ 31
  window : windowEnd / day ≤ windowStart / day + 366

/-- Candidates on days after the window are past it. -/
theorem past_of_later {bound : Nat} (listed : series.Listed windowStart windowEnd)
    (later : ∀ index, bound ≤ index → ∀ ordinal, series.candidate index = .on ordinal →
      windowStart / day + 368 ≤ ordinal) : series.Past windowEnd bound := by
  intro index further ordinal instant on read
  have date := later index further ordinal on
  have wall := (listed.offsets.wall (ordinal * day + series.localTime)).2
  have clock := listed.clock
  have window := listed.window
  rw [(checked_eq_ok.mp read).1]
  unfold day at *
  omega

/-- The interval is at least one. -/
theorem interval_pos (series : Series) : (0 : Int) < series.interval :=
  Int.natCast_pos.mpr (Nat.lt_of_lt_of_le Nat.zero_lt_one (le_max_left _ _))

/-- A walk that skips nothing begins at the start, which is not before the window. -/
theorem firstIndex_cases (uncounted : series.rule.count = none) :
    (series.firstIndex windowStart = 0 ∧ windowStart ≤ series.startsAt) ∨
      ¬ (series.rule.count.isSome = true ∨ windowStart ≤ series.startsAt) := by
  by_cases early : windowStart ≤ series.startsAt
  · left
    refine ⟨?_, early⟩
    unfold firstIndex
    exact if_pos (.inr early)
  · right
    rw [uncounted]
    exact fun either => either.elim (fun some => nomatch some) early

/-- A window that opens by the start of the series opens no later than the day after its first. -/
theorem Listed.startsBefore (listed : series.Listed windowStart windowEnd)
    (early : windowStart ≤ series.startsAt) : windowStart / day ≤ series.baseDate + 1 :=
  (Int.ediv_le_ediv (by decide) early).trans listed.opening

/-- A daily series passes the window in 500 candidates after the first. -/
theorem daily_past (listed : series.Listed windowStart windowEnd)
    (uncounted : series.rule.count = none) (daily : series.rule.frequency = .daily) :
    series.Past windowEnd (series.firstIndex windowStart + 500) := by
  apply past_of_later listed
  intro index further ordinal on
  have positive := series.interval_pos
  have short := listed.short
  unfold candidate at on
  rw [daily] at on
  dsimp only at on
  split at on
  next => cases on
  next =>
    cases on
    rcases firstIndex_cases uncounted with ⟨first, early⟩ | late
    · rw [first] at further
      have advanced := @le_index_mul 0 _ _ _ positive further
      have starts := listed.startsBefore early
      omega
    · unfold firstIndex at further
      rw [if_neg late, daily] at further
      have advanced := le_index_mul positive further
      have skipped := skip_ahead (windowStart / day - series.baseDate) positive listed.nonneg
      omega

/-! ## Weekly -/

/-- Weekdays are numbered up to six. -/
theorem weekday_le (weekly : series.rule.frequency = .weekly) :
    ∀ weekday ∈ series.weekdays, weekday ≤ 6 := by
  obtain ⟨days, given, _, within⟩ := series.rule.weekdays weekly
  intro weekday member
  unfold weekdays at member
  rw [given, Option.getD_some, List.mem_insertionSort, List.mem_dedup] at member
  exact within weekday member

/-- A week has seven days. -/
theorem length_weekdays_le (weekly : series.rule.frequency = .weekly) :
    series.weekdays.length ≤ 7 := by
  have unique : series.weekdays.Nodup :=
    (List.perm_insertionSort _ _).nodup_iff.mpr (List.nodup_dedup _)
  have inside : series.weekdays ⊆ List.range 7 := by
    intro weekday member
    exact List.mem_range.mpr (Nat.lt_succ_of_le (weekday_le weekly weekday member))
  exact (unique.subperm inside).length_le.trans_eq List.length_range

/-- The first week begins up to six days before the first date. -/
theorem weekStart_bounds (series : Series) :
    series.weekStart ≤ series.baseDate ∧ series.baseDate ≤ series.weekStart + 6 := by
  unfold weekStart weekdayOf
  omega

/-- A weekly series passes it in sixty weeks. -/
theorem weekly_past (listed : series.Listed windowStart windowEnd)
    (uncounted : series.rule.count = none) (weekly : series.rule.frequency = .weekly) :
    series.Past windowEnd (series.firstIndex windowStart + 60 * series.weekdays.length) := by
  apply past_of_later listed
  intro index further ordinal on
  have positive := series.interval_pos
  have weeks : (0 : Int) < 7 * series.interval := by omega
  have short := listed.short
  have monday := series.weekStart_bounds
  unfold candidate at on
  rw [weekly] at on
  dsimp only at on
  split at on
  next => cases on
  next weekday named =>
    split at on
    next => cases on
    next =>
      cases on
      rw [Int.mul_comm 7, Int.mul_assoc]
      have some : 0 < series.weekdays.length :=
        Nat.zero_lt_of_lt (List.getElem?_eq_some_iff.mp named).1
      rcases firstIndex_cases uncounted with ⟨first, early⟩ | late
      · rw [first, Nat.zero_add, ← Nat.le_div_iff_mul_le some] at further
        have advanced := @le_index_mul 0 _ 60 _ weeks further
        have starts := listed.startsBefore early
        omega
      · unfold firstIndex at further
        rw [if_neg late, weekly] at further
        dsimp only at further
        rw [← Nat.add_mul, ← Nat.le_div_iff_mul_le some] at further
        have advanced := le_index_mul weeks further
        have skipped := skip_ahead (max 0 (windowStart / day - series.weekStart)) weeks
          listed.nonneg
        have reaches := le_max_right 0 (windowStart / day - series.weekStart)
        omega

/-! ## Monthly and yearly -/

/-- Three years after a day, a date is past a window that begins with the day. -/
theorem safeDate_past {year month dayOfMonth : Nat} {ordinal date : Int}
    (on : safeDate year month dayOfMonth = .on ordinal)
    (later : (Gregorian.ofOrdinal date.toNat).year + 3 ≤ year) : date + 730 ≤ ordinal := by
  unfold safeDate at on
  split at on
  next => cases on
  next =>
    split at on
    next =>
      cases on
      have passed := @Gregorian.add_years_le_toOrdinal date.toNat 2 year month dayOfMonth (by omega)
      omega
    next => cases on

/-- A monthly series passes it in fifty months. -/
theorem monthly_past (listed : series.Listed windowStart windowEnd)
    (uncounted : series.rule.count = none) (monthly : series.rule.frequency = .monthly) :
    series.Past windowEnd (series.firstIndex windowStart + 50) := by
  apply past_of_later listed
  intro index further ordinal on
  have positive := series.interval_pos
  have short := listed.short
  have nonneg := listed.nonneg
  unfold candidate at on
  rw [monthly] at on
  dsimp only [addMonths] at on
  rcases firstIndex_cases uncounted with ⟨first, early⟩ | late
  · rw [first] at further
    have advanced := @le_index_mul 0 _ _ _ positive further
    have starts := listed.startsBefore early
    have passed := @safeDate_past _ _ _ _ series.baseDate on (by
      unfold base
      omega)
    omega
  · unfold firstIndex at further
    rw [if_neg late, monthly] at further
    dsimp only at further
    have advanced := le_index_mul positive further
    have skipped := skip_back
      (((Gregorian.ofOrdinal (windowStart / day).toNat).year - series.base.year : Int) * 12 +
        (Gregorian.ofOrdinal (windowStart / day).toNat).month - series.base.month)
      (series.duration / day / 28 + series.interval + 1) positive
    have passed := @safeDate_past _ _ _ _ (windowStart / day) on (by omega)
    omega

/-- A yearly series passes it in ten years. -/
theorem yearly_past (listed : series.Listed windowStart windowEnd)
    (uncounted : series.rule.count = none) (yearly : series.rule.frequency = .yearly) :
    series.Past windowEnd (series.firstIndex windowStart + 10) := by
  apply past_of_later listed
  intro index further ordinal on
  have positive := series.interval_pos
  have short := listed.short
  have nonneg := listed.nonneg
  unfold candidate at on
  rw [yearly] at on
  dsimp only at on
  rcases firstIndex_cases uncounted with ⟨first, early⟩ | late
  · rw [first] at further
    have advanced := @le_index_mul 0 _ _ _ positive further
    have starts := listed.startsBefore early
    have passed := @safeDate_past _ _ _ _ series.baseDate on (by
      unfold base
      omega)
    omega
  · unfold firstIndex at further
    rw [if_neg late, yearly] at further
    dsimp only at further
    have advanced := le_index_mul positive further
    have skipped := skip_back
      ((Gregorian.ofOrdinal (windowStart / day).toNat).year - series.base.year : Int)
      (series.duration / day / 365 + series.interval + 1) positive
    have passed := @safeDate_past _ _ _ _ (windowStart / day) on (by omega)
    omega

/-- **Whatever the frequency**, a few hundred iterations pass the window. -/
theorem exists_past (listed : series.Listed windowStart windowEnd)
    (uncounted : series.rule.count = none) :
    ∃ reach ≤ 500, series.Past windowEnd (series.firstIndex windowStart + reach) := by
  cases frequency : series.rule.frequency with
  | daily => exact ⟨500, le_rfl, daily_past listed uncounted frequency⟩
  | weekly =>
      have week := length_weekdays_le frequency
      exact ⟨60 * series.weekdays.length, by omega, weekly_past listed uncounted frequency⟩
  | monthly => exact ⟨50, by decide, monthly_past listed uncounted frequency⟩
  | yearly => exact ⟨10, by decide, yearly_past listed uncounted frequency⟩

/-- The walk over a listed series returns 1000 starts at most. -/
theorem length_walk_le (listed : series.Listed windowStart windowEnd) {iterations wanted : Nat}
    {starts : List Int}
    (walked : series.walk windowEnd iterations wanted (series.firstIndex windowStart) 0 =
      .ok starts) : starts.length ≤ 1000 := by
  cases counted : series.rule.count with
  | none =>
      obtain ⟨reach, few, past⟩ := exists_past listed counted
      have fewer := length_walk_le_past past walked
      omega
  | some limit =>
      have fewer := length_walk_le_count counted walked
      have most := (series.rule.count_bounds limit counted).2
      omega

end Series

/-! ## Accepted events -/

variable {zoneInfo : TimezoneName → Zone}

/-- A repeating event lasts 31 days at most, and ends after it starts. -/
theorem duration_written : KeptByWrites zoneInfo fun event => event.startsAt < event.endsAt ∧
    (event.recurrence.isSome = true → event.duration ≤ maxOccurrenceDuration) where
  created := by
    intro id caller body event created
    obtain ⟨_, _, _, _, _, _, _, written⟩ := createdEvent_eq_ok created
    rw [flushed_eq_ok written]
    exact flushed_checked written
  revised := by
    intro event caller body revised _ patched
    obtain ⟨_, _, _, _, _, _, _, _, written⟩ := revisedEvent_eq_ok patched
    rw [flushed_eq_ok written]
    exact flushed_checked written
  trashed := fun _ _ _ checks => checks

/-- The series of a stored event is listed in a window that the route lets through. -/
theorem listed_of_seriesOf {event : CalendarEvent} {rule : RecurrenceRule} {series : Series}
    {windowStart windowEnd : Int} (offsets : ShortOffsets (zoneInfo event.timezone))
    (ordered : event.startsAt < event.endsAt) (short : event.duration ≤ maxOccurrenceDuration)
    (window : windowEnd - windowStart ≤ 366 * day)
    (based : seriesOf (zoneInfo event.timezone) event rule = .ok series) :
    series.Listed windowStart windowEnd := by
  obtain ⟨-, baseLocal, opens, rfl⟩ := seriesOf_eq_ok.mp based
  obtain ⟨rfl, _⟩ := checked_eq_ok.mp opens
  have offset := offsets.utc event.startsAt
  unfold CalendarEvent.duration maxOccurrenceDuration at short
  constructor
  case offsets => exact offsets
  case clock => exact Int.emod_nonneg _ (by decide)
  case opening =>
    dsimp only
    unfold day at *
    omega
  case window =>
    unfold day at *
    omega
  all_goals
    dsimp only [CalendarEvent.duration]
    unfold day at *
    omega

/-- Whatever fails, fails for the range of dates. -/
def FailsByRange {α : Type} (outcome : Except CalendarExpansionError α) : Prop :=
  ∀ error, outcome = .error error → error = .range

/-- What succeeds fails by no budget. -/
theorem failsByRange_ok {α : Type} (value : α) : FailsByRange (.ok value) := nofun

/-- A checked instant fails by its range alone. -/
theorem failsByRange_checked (instant : Int) : FailsByRange (checked instant) := by
  intro error failed
  unfold checked at failed
  split at failed
  next => cases failed
  next =>
    cases failed
    rfl

/-- What is made of parts that fail by a range alone fails so. -/
theorem FailsByRange.bind {α β : Type} {outcome : Except CalendarExpansionError α}
    {next : α → Except CalendarExpansionError β} (first : FailsByRange outcome)
    (rest : ∀ value, outcome = .ok value → FailsByRange (next value)) :
    FailsByRange (outcome >>= next) := by
  cases found : outcome with
  | error error =>
      intro other failed
      cases failed
      exact first error found
  | ok value => exact rest value found

theorem failsByRange_toUtc (untilAt : Option Int) : FailsByRange (toUtc untilAt) := by
  cases untilAt with
  | none => exact failsByRange_ok none
  | some instant =>
      intro error failed
      change (checked instant).map some = .error error at failed
      cases found : checked instant with
      | error other =>
          rw [found] at failed
          cases failed
          exact failsByRange_checked instant _ found
      | ok value =>
          rw [found] at failed
          cases failed

theorem failsByRange_walk (series : Series) (windowEnd : Int)
    (iterations wanted index emitted : Nat) :
    FailsByRange (series.walk windowEnd iterations wanted index emitted) := by
  induction iterations generalizing wanted index emitted with
  | zero => exact failsByRange_ok []
  | succ iterations ih =>
      cases wanted with
      | zero => exact failsByRange_ok []
      | succ wanted =>
          cases found : series.candidate index with
          | exhausted =>
              rw [Series.walk_exhausted found]
              exact failsByRange_ok []
          | skipped =>
              rw [Series.walk_skipped found]
              exact ih _ _ _
          | on ordinal =>
              cases read : series.zone.localToUtc ordinal series.localTime with
              | error failure =>
                  rw [Series.walk_failed found read]
                  intro error failed
                  cases failed
                  exact failsByRange_checked _ failure read
              | ok instant =>
                  rw [Series.walk_on found read]
                  split_ifs
                  · exact failsByRange_ok []
                  · exact failsByRange_ok []
                  · exact ih _ _ _
                  · exact (ih _ _ _).bind fun _ _ => failsByRange_ok _

theorem failsByRange_generatedStarts (event : CalendarEvent) (windowStart windowEnd : Int)
    (walkLimit : Nat) :
    FailsByRange (generatedStarts zoneInfo event windowStart windowEnd walkLimit) := by
  unfold generatedStarts
  cases event.recurrence with
  | none => exact failsByRange_ok _
  | some rule =>
      refine FailsByRange.bind ?_ fun series _ => failsByRange_walk series _ _ _ _ _
      exact (failsByRange_toUtc _).bind fun _ _ =>
        (failsByRange_checked _).bind fun _ _ => failsByRange_ok _

theorem failsByRange_buildOccurrence (event : CalendarEvent)
    (override : Option CalendarEventOverride) (start duration : Int) :
    FailsByRange (buildOccurrence event override start duration) := by
  unfold buildOccurrence
  split
  next => exact failsByRange_ok none
  next =>
    refine FailsByRange.bind ?_ fun _ _ => failsByRange_ok _
    cases override.bind (·.endsAt) with
    | none => exact failsByRange_checked _
    | some endsAt => exact failsByRange_ok endsAt

theorem failsByRange_buildAll (event : CalendarEvent) (overrides : List CalendarEventOverride)
    (windowStart windowEnd : Int) (starts : List Int) :
    FailsByRange (buildAll event overrides windowStart windowEnd starts) := by
  induction starts with
  | nil => exact failsByRange_ok []
  | cons start rest ih =>
      refine (failsByRange_buildOccurrence _ _ _ _).bind fun _ _ => ?_
      exact ih.bind fun _ _ => failsByRange_ok _

/-- **An accepted event can be listed**: its walk over a window of the listing yields no more
starts than an event may have, and without overrides it is never refused for its budget. -/
theorem length_starts_le {settings : Settings} {tables : Tables} {event : CalendarEvent}
    {windowStart windowEnd : Int} (offsets : ∀ name, ShortOffsets (zoneInfo name))
    (reached : (system zoneInfo settings).Reachable tables) (stored : event ∈ tables.events)
    (window : windowEnd - windowStart ≤ 366 * day) :
    (∀ rule ∈ event.recurrence, ∀ series,
      seriesOf (zoneInfo event.timezone) event rule = .ok series →
        ∀ iterations wanted starts,
          series.walk windowEnd iterations wanted (series.firstIndex windowStart) 0 = .ok starts →
            starts.length ≤ maxEventOccurrences) ∧
      expandEventOccurrences zoneInfo event [] windowStart windowEnd ≠ .error .budget := by
  obtain ⟨ordered, short⟩ := duration_written.of_reachable reached event stored
  have walks : ∀ rule ∈ event.recurrence, ∀ series,
      seriesOf (zoneInfo event.timezone) event rule = .ok series →
        ∀ iterations wanted starts,
          series.walk windowEnd iterations wanted (series.firstIndex windowStart) 0 = .ok starts →
            starts.length ≤ maxEventOccurrences := by
    intro rule repeats series based iterations wanted starts walked
    have lasts := short (Option.isSome_iff_exists.mpr ⟨rule, repeats⟩)
    have listed := listed_of_seriesOf (offsets _) ordered lasts window based
    exact (Series.length_walk_le listed walked).trans (by decide)
  refine ⟨walks, fun refused => ?_⟩
  have range : FailsByRange (expandEventOccurrences zoneInfo event [] windowStart windowEnd) := by
    refine (failsByRange_generatedStarts _ _ _ _).bind fun starts generated => ?_
    have few : starts.length ≤ maxEventOccurrences := by
      unfold generatedStarts at generated
      cases repeats : event.recurrence with
      | none =>
          rw [repeats] at generated
          cases generated
          exact (by decide : 1 ≤ maxEventOccurrences)
      | some rule =>
          rw [repeats] at generated
          obtain ⟨series, based, walked⟩ := bind_eq_ok.mp generated
          exact walks rule repeats series based _ _ starts walked
    have fits : ¬ (maxEventOccurrences < starts.length ∨
        maxEventOccurrences < ([] : List CalendarEventOverride).length) :=
      not_or.mpr ⟨Nat.not_lt.mpr few, Nat.not_lt_zero _⟩
    unfold expandStarts
    rw [if_neg fits]
    exact failsByRange_buildAll _ _ _ _ _
  exact nomatch range _ refused

/-- A daily series, listed for a year. -/
theorem standup_within_budget : expandEventOccurrences utc standup [] (hourOf 739628 0)
    (hourOf 739994 0) ≠ .error .budget := by
  have short : -day < 0 ∧ 0 < day := by decide
  exact (length_starts_le (fun _ => ⟨fun _ => short, fun _ => short⟩) created_reached.reachable
    (List.mem_singleton.mpr rfl) (by decide)).2

end FrontDashboard.Calendar
