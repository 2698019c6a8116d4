import FrontDashboard.Calendar.Skipped

/-! # What a window shows of a series

The occurrences of a window are those of the whole series that overlap it, unless one that a
walk skips still runs when the window starts.
-/

namespace FrontDashboard.Calendar

open Outcomes

variable (zoneInfo : TimezoneName → Zone)

/-- The slots of a daily or weekly series that lie the lead before a window have ended when it
starts. -/
def Series.EndsInTime (series : Series) (windowStart : Int) : Prop :=
  series.rule.count = none → series.startsAt < windowStart → ∀ days ∈ series.span,
    ∀ index date instant, series.candidate index = .on date →
      series.slotAt index = some instant →
        series.anchor date + series.lead days ≤ windowStart / day →
          instant + series.duration ≤ windowStart

/-- **The unwindowed reference**: an occurrence of a slot, or of a start that an override names,
that overlaps the window. -/
def Series.Shows (series : Series) (event : CalendarEvent) (overrides : List CalendarEventOverride)
    (windowStart windowEnd : Int) (occurrence : ExpandedOccurrence) : Prop :=
  ∃ start, (series.IsSlot start ∨ start ∈ overrides.map (·.occurrenceStart)) ∧
    buildOccurrence event (overrideAt overrides start) start event.duration =
      .ok (some occurrence) ∧
    overlaps occurrence.occurrenceStart occurrence.occurrenceEnd windowStart windowEnd

/-- The walk and the expansion of a window find what the whole series has in it, each once. -/
structure Windowed (series : Series) (event : CalendarEvent) (rule : RecurrenceRule)
    (overrides : List CalendarEventOverride) (windowStart windowEnd : Int)
    (result : List ExpandedOccurrence) : Prop where
  walked : ∀ wanted starts,
    iterRecurrenceStarts (zoneInfo event.timezone) event rule windowStart windowEnd wanted =
      .ok starts → starts.length < wanted →
        ∀ start, start ∈ starts ∧ overlaps start (start + event.duration) windowStart windowEnd ↔
          series.IsSlot start ∧ overlaps start (start + event.duration) windowStart windowEnd
  shown : ∀ occurrence, occurrence ∈ result ↔
    series.Shows event overrides windowStart windowEnd occurrence
  once : (overrides.map (·.occurrenceStart)).Nodup → (result.map (·.originalStart)).Nodup

/-! ## The walk -/

namespace Series

variable {series : Series} {windowStart windowEnd : Int}

/-- What a walk skips has ended, where the slots end in time. -/
theorem EndsInTime.ended {index : Nat} {instant : Int} (inTime : series.EndsInTime windowStart)
    (offsets : ShortOffsets series.zone) (inOrder : series.InOrder) (lasts : 0 ≤ series.duration)
    (skipped : index < series.firstIndex windowStart)
    (slot : series.slotAt index = some instant) : instant + series.duration ≤ windowStart := by
  have skips : ¬ (series.rule.count.isSome = true ∨ windowStart ≤ series.startsAt) := by
    intro whole
    unfold firstIndex at skipped
    rw [if_pos whole] at skipped
    exact Nat.not_lt_zero _ skipped
  rw [not_or, Bool.not_eq_true, Option.isSome_eq_false_iff, Option.isNone_iff_eq_none,
    Int.not_le] at skips
  obtain ⟨date, on, read⟩ := exists_on_of_slotAt slot
  cases spans : series.span with
  | none => exact ended_of_skipped offsets inOrder lasts spans skipped on read
  | some days =>
      exact inTime skips.1 skips.2 days spans index date instant on slot
        ((skipped_iff skips.1 skips.2 spans on).mp skipped)

/-- A slot that lies the lead before a window begins before it. -/
theorem before_of_lead {index : Nat} {date instant days : Int} (offsets : ShortOffsets series.zone)
    (inOrder : series.InOrder) (spans : series.span = some days)
    (slot : series.slotAt index = some instant) (on : series.candidate index = .on date)
    (early : series.anchor date + series.lead days ≤ windowStart / day) :
    instant < windowStart := by
  obtain ⟨date', on', read⟩ := exists_on_of_slotAt slot
  cases on.symm.trans on'
  have positive := series.interval_pos
  have offset := (offsets.wall (date * day + series.localTime)).1
  have clock := inOrder.clock.2
  have near : date + 2 ≤ windowStart / day := by
    unfold anchor lead at early
    rcases span_eq_some.mp spans with ⟨daily, rfl⟩ | ⟨weekly, rfl⟩
    · have back := Int.mul_le_mul_of_nonneg_right (le_max_left 1
        ((series.duration / day + series.interval - 1) / series.interval)) positive.le
      rw [daily] at early
      dsimp only at early
      omega
    · have back := Int.mul_le_mul_of_nonneg_right (le_max_left 1
        ((series.duration / day + 7 * series.interval - 1) / (7 * series.interval)))
        (by omega : 0 ≤ 7 * (series.interval : Int))
      rw [weekly] at early
      dsimp only [weekdayOf] at early
      omega
  rw [(checked_eq_ok.mp read).1]
  unfold day at *
  omega

theorem walked_iff {wanted : Nat} {starts : List Int} (offsets : ShortOffsets series.zone)
    (inOrder : series.InOrder) (lasts : 0 ≤ series.duration) (opens : windowStart < windowEnd)
    (walked : series.walk windowEnd iterationLimit wanted (series.firstIndex windowStart) 0 =
      .ok starts) (ended : starts.length < wanted) :
    (∀ start, start ∈ starts ∧ overlaps start (start + series.duration) windowStart windowEnd ↔
      series.IsSlot start ∧ overlaps start (start + series.duration) windowStart windowEnd) ↔
    series.EndsInTime windowStart := by
  constructor
  · intro exact_ uncounted late days spans index date instant on slot early
    have skipped := (skipped_iff uncounted late spans on).mpr early
    by_contra runs
    have before := before_of_lead offsets inOrder spans slot on early
    obtain ⟨found, _⟩ := (exact_ instant).mpr
      ⟨⟨index, slot, not_reached uncounted _⟩, before.trans opens, Int.not_le.mp runs⟩
    obtain ⟨later, further, again⟩ := slotAt_of_mem_walk walked instant found
    exact (slotAt_lt inOrder (skipped.trans_le further) slot again).ne rfl
  · intro inTime start
    refine and_congr_left fun inside => ⟨fun member => ?_, fun slot => ?_⟩
    · exact (walk_isSlot (counts_firstIndex windowStart) walked start member).1
    · obtain ⟨index, found, unreached⟩ := slot
      have kept : series.firstIndex windowStart ≤ index := by
        by_contra skipped
        have over_ := inTime.ended offsets inOrder lasts (Nat.not_le.mp skipped) found
        exact Int.not_le.mpr inside.2 over_
      obtain ⟨date, on, _⟩ := exists_on_of_slotAt found
      exact mem_walk inOrder (counts_firstIndex windowStart) walked ended kept
        (Nat.lt_add_left _ (index_lt_iterationLimit inOrder.based on)) found inside.1 unreached

end Series

/-! ## The expansion -/

variable {zoneInfo}
variable {event : CalendarEvent} {overrides : List CalendarEventOverride}
  {windowStart windowEnd : Int}

theorem shownAt_eq_some {override : Option CalendarEventOverride} {start : Int}
    {occurrence : ExpandedOccurrence} :
    shownAt event override windowStart windowEnd start = some occurrence ↔
      buildOccurrence event override start event.duration = .ok (some occurrence) ∧
        overlaps occurrence.occurrenceStart occurrence.occurrenceEnd windowStart windowEnd := by
  refine ⟨shownAt_some, ?_⟩
  rintro ⟨built, inside⟩
  rw [shownAt_of_built built]
  exact Option.filter_eq_some_iff.mpr ⟨rfl, decide_eq_true inside⟩

theorem mem_starts_or_edited {starts : List Int} {start : Int} :
    start ∈ starts ++ editedStarts overrides starts ↔
      start ∈ starts ∨ start ∈ overrides.map (·.occurrenceStart) := by
  by_cases generated : start ∈ starts <;> simp [editedStarts, generated]

/-- What an unedited start is built to lies where the start does. -/
theorem times_of_unedited {start : Int} {occurrence : ExpandedOccurrence}
    (unedited : overrideAt overrides start = none)
    (built : buildOccurrence event (overrideAt overrides start) start event.duration =
      .ok (some occurrence)) :
    occurrence.occurrenceStart = start ∧ occurrence.occurrenceEnd = start + event.duration := by
  rw [unedited] at built
  obtain ⟨_, _, _, starts, ends⟩ := buildOccurrence_some built
  exact ⟨starts, ends⟩

theorem mem_of_overrideAt {start : Int} {override : CalendarEventOverride}
    (found : overrideAt overrides start = some override) :
    start ∈ overrides.map (·.occurrenceStart) := by
  obtain ⟨member, same⟩ := overrideAt_eq_some found
  exact List.mem_map.mpr ⟨override, member, same⟩

theorem shown_of_walked {series : Series} {starts : List Int}
    (walked : ∀ start,
      start ∈ starts ∧ overlaps start (start + event.duration) windowStart windowEnd ↔
        series.IsSlot start ∧ overlaps start (start + event.duration) windowStart windowEnd)
    (slots : ∀ start ∈ starts, series.IsSlot start) (occurrence : ExpandedOccurrence) :
    occurrence ∈ ((starts ++ editedStarts overrides starts).filterMap fun start =>
        shownAt event (overrideAt overrides start) windowStart windowEnd start) ↔
      series.Shows event overrides windowStart windowEnd occurrence := by
  simp only [List.mem_filterMap, mem_starts_or_edited, shownAt_eq_some]
  constructor
  · rintro ⟨start, named, built, inside⟩
    exact ⟨start, named.imp_left (slots start), built, inside⟩
  · rintro ⟨start, slot | edited, built, inside⟩
    · refine ⟨start, ?_, built, inside⟩
      cases found : overrideAt overrides start with
      | some override => exact .inr (mem_of_overrideAt found)
      | none =>
          obtain ⟨starts, ends⟩ := times_of_unedited found built
          rw [starts, ends] at inside
          exact .inl ((walked start).mpr ⟨slot, inside⟩).1
    · exact ⟨start, .inr edited, built, inside⟩

theorem shown_once {starts : List Int} (distinct : starts.Nodup)
    (unique : (overrides.map (·.occurrenceStart)).Nodup) :
    (((starts ++ editedStarts overrides starts).filterMap fun start =>
      shownAt event (overrideAt overrides start) windowStart windowEnd start).map
        (·.originalStart)).Nodup := by
  have whole : (starts ++ editedStarts overrides starts).Nodup := by
    refine List.nodup_append.mpr ⟨distinct, unique.filter _, ?_⟩
    intro start generated other edited same
    rw [same] at generated
    exact (mem_editedStarts.mp edited).2 generated
  have original : ∀ start occurrence,
      shownAt event (overrideAt overrides start) windowStart windowEnd start = some occurrence →
        occurrence.originalStart = start := by
    intro start occurrence shown
    exact (buildOccurrence_some (shownAt_eq_some.mp shown).1).2.1
  rw [List.map_filterMap]
  refine whole.filterMap fun start other name one two => ?_
  obtain ⟨occurrence, shown, rfl⟩ := Option.map_eq_some_iff.mp one
  obtain ⟨occurrence', shown', same⟩ := Option.map_eq_some_iff.mp two
  rw [← original _ _ shown, ← same, original _ _ shown']

theorem expandEventOccurrences_eq_ok {rule : RecurrenceRule} {result : List ExpandedOccurrence}
    (repeats : event.recurrence = some rule)
    (expanded : expandEventOccurrences zoneInfo event overrides windowStart windowEnd =
      .ok result) :
    ∃ starts, iterRecurrenceStarts (zoneInfo event.timezone) event rule windowStart windowEnd
        (maxEventOccurrences + 1) = .ok starts ∧ starts.length < maxEventOccurrences + 1 ∧
      result = (starts ++ editedStarts overrides starts).filterMap fun start =>
        shownAt event (overrideAt overrides start) windowStart windowEnd start := by
  obtain ⟨starts, generated, built⟩ := bind_eq_ok.mp expanded
  unfold generatedStarts at generated
  rw [repeats] at generated
  obtain ⟨⟨few, _⟩, all⟩ := expandStarts_eq_ok.mp built
  exact ⟨starts, generated, Nat.lt_succ_of_le few, (buildAll_eq_ok.mp all).2⟩

/-- **A window shows what the whole series has in it** exactly when the slots end in time. -/
theorem windowed_iff_of_expanded {series : Series} {rule : RecurrenceRule}
    {result : List ExpandedOccurrence} (offsets : ShortOffsets (zoneInfo event.timezone))
    (advances : (zoneInfo event.timezone).Advances) (repeats : event.recurrence = some rule)
    (ordered : event.startsAt < event.endsAt) (opens : windowStart < windowEnd)
    (based : seriesOf (zoneInfo event.timezone) event rule = .ok series)
    (expanded : expandEventOccurrences zoneInfo event overrides windowStart windowEnd =
      .ok result) :
    Windowed zoneInfo series event rule overrides windowStart windowEnd result ↔
      series.EndsInTime windowStart := by
  obtain ⟨starts, iterated, ended, rfl⟩ := expandEventOccurrences_eq_ok repeats expanded
  obtain ⟨_, duration, zone, _⟩ := seriesOf_ok based
  have inOrder := inOrder_of_seriesOf advances based
  have lasts : 0 ≤ event.duration := by
    unfold CalendarEvent.duration
    omega
  rw [← duration] at lasts
  rw [← zone] at offsets
  have exact_ : ∀ wanted starts, iterRecurrenceStarts (zoneInfo event.timezone) event rule
      windowStart windowEnd wanted = .ok starts → starts.length < wanted →
        ((∀ start,
          start ∈ starts ∧ overlaps start (start + event.duration) windowStart windowEnd ↔
            series.IsSlot start ∧
              overlaps start (start + event.duration) windowStart windowEnd) ↔
          series.EndsInTime windowStart) := by
    intro wanted starts iterated ended
    obtain ⟨same, based', walked⟩ := bind_eq_ok.mp iterated
    cases based.symm.trans based'
    rw [← duration]
    exact Series.walked_iff offsets inOrder lasts opens walked ended
  constructor
  · intro windowed
    exact (exact_ _ _ iterated ended).mp (windowed.walked _ _ iterated ended)
  · intro inTime
    obtain ⟨same, based', walked⟩ := bind_eq_ok.mp iterated
    cases based.symm.trans based'
    have slots := Series.walk_isSlot (Series.counts_firstIndex windowStart) walked
    have distinct : starts.Nodup :=
      (Series.walk_pairwise inOrder walked).imp fun before => before.ne
    exact
      { walked := fun wanted starts iterated ended =>
          (exact_ wanted starts iterated ended).mpr inTime
        shown := shown_of_walked ((exact_ _ _ iterated ended).mpr inTime)
          fun start member => (slots start member).1
        once := shown_once distinct }

/-- An expansion that is refused is so for the range of dates, or for its budget where the window,
the event or its overrides exceed theirs. -/
theorem refused_or_expanded {rule : RecurrenceRule}
    (offsets : ShortOffsets (zoneInfo event.timezone)) (repeats : event.recurrence = some rule)
    (ordered : event.startsAt < event.endsAt) :
    expandEventOccurrences zoneInfo event overrides windowStart windowEnd = .error .range ∨
      (expandEventOccurrences zoneInfo event overrides windowStart windowEnd = .error .budget ∧
        (366 * day < windowEnd - windowStart ∨ maxOccurrenceDuration < event.duration ∨
          maxEventOccurrences < overrides.length)) ∨
      ∃ series result, seriesOf (zoneInfo event.timezone) event rule = .ok series ∧
        expandEventOccurrences zoneInfo event overrides windowStart windowEnd = .ok result := by
  cases generated : generatedStarts zoneInfo event windowStart windowEnd maxEventOccurrences with
  | error error =>
      left
      rw [expandEventOccurrences, generated,
        failsByRange_generatedStarts event windowStart windowEnd maxEventOccurrences
          error generated]
      rfl
  | ok starts =>
      have found := generated
      unfold generatedStarts at found
      rw [repeats] at found
      obtain ⟨series, based, walked⟩ := bind_eq_ok.mp found
      have continues : expandEventOccurrences zoneInfo event overrides windowStart windowEnd =
          expandStarts event overrides windowStart windowEnd starts := by
        rw [expandEventOccurrences, generated]
        rfl
      rw [continues]
      unfold expandStarts
      split
      next exceeds =>
        refine .inr (.inl ⟨rfl, ?_⟩)
        by_contra within
        simp only [not_or, Int.not_lt, Nat.not_lt] at within
        have listed := listed_of_seriesOf offsets ordered within.2.1 within.1 based
        have few := Series.length_walk_le listed walked
        unfold maxEventOccurrences at *
        omega
      next =>
        cases built : buildAll event overrides windowStart windowEnd
            (starts ++ editedStarts overrides starts) with
        | error error =>
            left
            rw [failsByRange_buildAll _ _ _ _ _ error built]
        | ok result => exact .inr (.inr ⟨series, result, based, rfl⟩)

/-- **What a window shows**, unless the expansion is refused. -/
theorem windowed_iff {rule : RecurrenceRule} (offsets : ShortOffsets (zoneInfo event.timezone))
    (advances : (zoneInfo event.timezone).Advances) (repeats : event.recurrence = some rule)
    (ordered : event.startsAt < event.endsAt) (opens : windowStart < windowEnd) :
    expandEventOccurrences zoneInfo event overrides windowStart windowEnd = .error .range ∨
      (expandEventOccurrences zoneInfo event overrides windowStart windowEnd = .error .budget ∧
        (366 * day < windowEnd - windowStart ∨ maxOccurrenceDuration < event.duration ∨
          maxEventOccurrences < overrides.length)) ∨
      ∃ series result, seriesOf (zoneInfo event.timezone) event rule = .ok series ∧
        expandEventOccurrences zoneInfo event overrides windowStart windowEnd = .ok result ∧
        (Windowed zoneInfo series event rule overrides windowStart windowEnd result ↔
          series.EndsInTime windowStart) := by
  rcases @refused_or_expanded zoneInfo event overrides windowStart windowEnd rule offsets repeats
    ordered with range | budget | ⟨series, result, based, expanded⟩
  · exact .inl range
  · exact .inr (.inl budget)
  · exact .inr (.inr ⟨series, result, based, expanded,
      windowed_iff_of_expanded offsets advances repeats ordered opens based expanded⟩)

/-! ## Two events in UTC -/

theorem utc_offsets (name : TimezoneName) : ShortOffsets (utc name) := by
  have short : -day < 0 ∧ 0 < day := by decide
  exact ⟨fun _ => short, fun _ => short⟩

theorem utc_advances (name : TimezoneName) : (utc name).Advances := by
  intro localTime _ _ earlier _ later _ before
  simp only [utc, day]
  omega

def standupSeries : Series :=
  ⟨hourOf 739621 9, 3600000000, utc "UTC", 739621, 9 * 3600000000, mondays⟩

/-- An hour every Monday has ended a fortnight later. -/
theorem standup_endsInTime (windowStart : Int) : standupSeries.EndsInTime windowStart := by
  intro _ _ days spans index date instant on slot early
  obtain ⟨date', on', read⟩ := Series.exists_on_of_slotAt slot
  cases on.symm.trans on'
  cases spans
  rw [show standupSeries.lead (7 * standupSeries.interval) = 14 by decide] at early
  rw [(checked_eq_ok.mp read).1]
  simp only [Series.anchor, standupSeries, mondays, utc, weekdayOf, day] at early ⊢
  omega

theorem standup_windowed :
    ∃ result, expandEventOccurrences utc standup [] (hourOf 739676 0) (hourOf 739683 0) =
        .ok result ∧
      Windowed utc standupSeries standup mondays [] (hourOf 739676 0) (hourOf 739683 0) result := by
  have expanded : ((expandEventOccurrences utc standup [] (hourOf 739676 0)
      (hourOf 739683 0)).toOption.map List.length) = some 1 := by decide
  obtain ⟨result, shown, _⟩ := exists_of_toOption_map expanded
  rcases @windowed_iff utc standup [] (hourOf 739676 0) (hourOf 739683 0) mondays
    (utc_offsets _) (utc_advances _) rfl (by decide) (by decide) with
    range | ⟨budget, _⟩ | ⟨series, result', based, shown', exact_⟩
  · rw [shown] at range
    cases range
  · rw [shown] at budget
    cases budget
  · have same : seriesOf (utc "UTC") standup mondays = .ok standupSeries := rfl
    cases same.symm.trans based
    exact ⟨result', shown', exact_.mpr (standup_endsInTime _)⟩

def nightly : RecurrenceRule where
  frequency := .daily
  interval := 1
  byWeekday := none
  untilAt := none
  count := none
  interval_bounds := RecurrenceRule.one_bounds
  count_bounds := RecurrenceRule.uncounted_bounds
  weekdays := RecurrenceRule.weekdays_of_daily

/-- Two nights and the day between them, every night from the first of January 2026 on. -/
def vigil : CalendarEvent :=
  { standup with
    title := "Vigil", startsAt := hourOf 739617 23, endsAt := hourOf 739619 22
    recurrence := some nightly }

def vigilSeries : Series :=
  ⟨hourOf 739617 23, 47 * 3600000000, utc "UTC", 739617, 23 * 3600000000, nightly⟩

/-- **The occurrence of the thirtieth of January** runs until late on the first of February,
and is not shown on that day. -/
theorem vigil_skipped :
    ∃ result, seriesOf (utc "UTC") vigil nightly = .ok vigilSeries ∧
      expandEventOccurrences utc vigil [] (hourOf 739648 0) (hourOf 739649 0) = .ok result ∧
      ¬ Windowed utc vigilSeries vigil nightly [] (hourOf 739648 0) (hourOf 739649 0) result := by
  have expanded : ((expandEventOccurrences utc vigil [] (hourOf 739648 0)
      (hourOf 739649 0)).toOption.map fun result => result.map (·.originalStart)) =
        some [hourOf 739647 23, hourOf 739648 23] := by decide
  obtain ⟨result, shown, starts⟩ := exists_of_toOption_map expanded
  refine ⟨result, rfl, shown, fun windowed => ?_⟩
  have slot : vigilSeries.IsSlot (hourOf 739646 23) :=
    ⟨29, by decide, Series.not_reached rfl _⟩
  have found := (windowed.shown _).mpr ⟨hourOf 739646 23, .inl slot, rfl, by decide⟩
  have listed := List.mem_map_of_mem (f := fun row : ExpandedOccurrence => row.originalStart) found
  rw [starts] at listed
  revert listed
  decide

end FrontDashboard.Calendar
