import FrontDashboard.AllDay.Normalized

/-! # The local days of an occurrence

An occurrence of an all-day event begins at a slot of the local clock and lasts as long as the
event itself. It ends at a local midnight where the clock is set forward over its days as far as
over those of the event.
-/

namespace FrontDashboard.AllDay

open Outcomes
open Calendar
open EventEditor (localDate instantOf)

/-- From the midnight of a local day to the midnight some days later. -/
def CoversDays (zone : Zone) (count startsAt endsAt : Int) : Prop :=
  ∃ first, instantOf zone (first * day) = startsAt ∧
    instantOf zone ((first + count) * day) = endsAt

/-- The occurrence that starts at an instant has times of its own. -/
def retimed (overrides : List CalendarEventOverride) (start : Int) : Bool :=
  (overrideAt overrides start).any (·.startsAt.isSome)

/-- An occurrence covers whole local days, as many as its series unless it was retimed. -/
def KeepsDays (zone : Zone) (overrides : List CalendarEventOverride) (count : Int)
    (occurrence : ExpandedOccurrence) : Prop :=
  ∃ own, 0 < own ∧ CoversDays zone own occurrence.occurrenceStart occurrence.occurrenceEnd ∧
    (retimed overrides occurrence.originalStart = false → own = count)

/-- **The property**: every all-day event covers whole local days, and so does each occurrence
it is expanded to. -/
def CoverWholeDays (zoneInfo : TimezoneName → Zone) (tables : Tables) : Prop :=
  ∀ event ∈ tables.events, event.allDay = true →
    ∃ count, 0 < count ∧ CoversDays (zoneInfo event.timezone) count event.startsAt event.endsAt ∧
      ∀ windowStart windowEnd occurrences,
        expandEventOccurrences zoneInfo event (tables.overridesOf event.id) windowStart windowEnd =
          .ok occurrences →
        ∀ occurrence ∈ occurrences,
          KeepsDays (zoneInfo event.timezone) (tables.overridesOf event.id) count occurrence

/-- How far the clock is set forward over some days. -/
def setForward (zone : Zone) (first count : Int) : Int :=
  zone.wallOffset ((first + count) * day) - zone.wallOffset (first * day)

/-- **The days of an occurrence are kept.** The times it is given are midnights. Where it is given
none, its start is a midnight, and the clock is set forward over the days from it as far as over
those of its series. -/
def DaysKept (zone : Zone) (event : CalendarEvent) (count : Int)
    (override : Option CalendarEventOverride) (start : Int) : Prop :=
  match override.bind (·.startsAt), override.bind (·.endsAt) with
  | some startsAt, some endsAt => ∃ own, 0 < own ∧ CoversDays zone own startsAt endsAt
  | _, _ => ∃ first opening, instantOf zone (first * day) = start ∧
      instantOf zone (opening * day) = event.startsAt ∧
      instantOf zone ((opening + count) * day) = event.endsAt ∧
      setForward zone first count = setForward zone opening count

/-! ## Stored events -/

variable {zoneInfo : TimezoneName → Zone}

/-- The days that an all-day event is snapped to. -/
theorem coversDays_settled {startsAt endsAt : Int} {timezone : TimezoneName} {times : Int × Int}
    (settled : settledTimes zoneInfo true startsAt endsAt timezone = .ok times) :
    ∃ count, 0 < count ∧ CoversDays (zoneInfo timezone) count times.1 times.2 := by
  rw [(normalizeAllDayBounds_iff.mp (settledTimes_allDay settled)).2]
  have ordered := @firstDay_le_lastDay (zoneInfo timezone) startsAt endsAt
  have last : localDate (zoneInfo timezone) startsAt +
      (lastDay (zoneInfo timezone) startsAt endsAt + 1 -
        localDate (zoneInfo timezone) startsAt) =
      lastDay (zoneInfo timezone) startsAt endsAt + 1 := by omega
  refine ⟨lastDay (zoneInfo timezone) startsAt endsAt + 1 -
    localDate (zoneInfo timezone) startsAt, by omega, _, rfl, ?_⟩
  rw [last]
  rfl

theorem coversDays_written :
    KeptByWrites zoneInfo fun event => event.allDay = true → ∃ count, 0 < count ∧
      CoversDays (zoneInfo event.timezone) count event.startsAt event.endsAt where
  created := by
    intro id caller body event created all
    obtain ⟨startsAt, endsAt, times, _, _, _, settled, written⟩ := createdEvent_eq_ok created
    rw [flushed_eq_ok written] at all ⊢
    change body.allDay = true at all
    rw [all] at settled
    exact coversDays_settled settled
  revised := by
    intro event caller body revised _ patched all
    obtain ⟨startsAt, endsAt, times, recurrence, _, _, settled, _, written⟩ :=
      revisedEvent_eq_ok patched
    rw [flushed_eq_ok written] at all ⊢
    change body.allDay.getD event.allDay = true at all
    rw [all] at settled
    exact coversDays_settled settled
  trashed := fun _ _ _ covers => covers

/-! ## Expanded occurrences -/

/-- An occurrence is built from the start that it names. -/
theorem built_of_expanded {event : CalendarEvent} {overrides : List CalendarEventOverride}
    {windowStart windowEnd : Int} {occurrences : List ExpandedOccurrence}
    (expanded : expandEventOccurrences zoneInfo event overrides windowStart windowEnd =
      .ok occurrences) :
    ∀ occurrence ∈ occurrences,
      buildOccurrence event (overrideAt overrides occurrence.originalStart)
        occurrence.originalStart event.duration = .ok (some occurrence) := by
  obtain ⟨starts, _, expands⟩ := bind_eq_ok.mp expanded
  obtain ⟨_, shown⟩ := buildAll_eq_ok.mp (expandStarts_eq_ok.mp expands).2
  rw [shown]
  intro occurrence member
  obtain ⟨start, _, found⟩ := List.mem_filterMap.mp member
  have built := (shownAt_some found).1
  rw [(buildOccurrence_some built).2.1]
  exact built

variable {zone : Zone} {event : CalendarEvent} {count : Int}

/-- The midnight some days later comes by as much sooner as the clock is set forward. -/
theorem instantOf_add (zone : Zone) (first count : Int) :
    instantOf zone ((first + count) * day) =
      instantOf zone (first * day) + count * day - setForward zone first count := by
  unfold instantOf setForward
  rw [Int.add_mul]
  omega

/-- **A start is kept** by the duration of its series where the clock is set forward as far. -/
theorem coversDays_iff {start : Int}
    (series : CoversDays zone count event.startsAt event.endsAt) :
    CoversDays zone count start (start + event.duration) ↔
      ∃ first opening, instantOf zone (first * day) = start ∧
        instantOf zone (opening * day) = event.startsAt ∧
        instantOf zone ((opening + count) * day) = event.endsAt ∧
        setForward zone first count = setForward zone opening count := by
  constructor
  · rintro ⟨first, begins, ends⟩
    obtain ⟨opening, opens, closes⟩ := series
    refine ⟨first, opening, begins, opens, closes, ?_⟩
    have own := instantOf_add zone first count
    have whole := instantOf_add zone opening count
    unfold CalendarEvent.duration at ends
    omega
  · rintro ⟨first, opening, begins, opens, closes, same⟩
    refine ⟨first, begins, ?_⟩
    have own := instantOf_add zone first count
    have whole := instantOf_add zone opening count
    unfold CalendarEvent.duration
    omega

theorem keepsDays_untimed {startsAt endsAt : Int} (positive : 0 < count) :
    (∃ own, 0 < own ∧ CoversDays zone own startsAt endsAt ∧ (false = false → own = count)) ↔
      CoversDays zone count startsAt endsAt := by
  constructor
  · rintro ⟨own, _, covers, same⟩
    rw [← same rfl]
    exact covers
  · exact fun covers => ⟨count, positive, covers, fun _ => rfl⟩

theorem keepsDays_of_built {overrides : List CalendarEventOverride}
    {occurrence : ExpandedOccurrence}
    (paired : ∀ override ∈ overrides, Paired override) (positive : 0 < count)
    (series : CoversDays zone count event.startsAt event.endsAt)
    (built : buildOccurrence event (overrideAt overrides occurrence.originalStart)
      occurrence.originalStart event.duration = .ok (some occurrence)) :
    KeepsDays zone overrides count occurrence ↔
      DaysKept zone event count (overrideAt overrides occurrence.originalStart)
        occurrence.originalStart := by
  obtain ⟨_, _, _, starts, ends⟩ := buildOccurrence_some built
  unfold KeepsDays DaysKept retimed
  rw [starts, ends]
  cases found : overrideAt overrides occurrence.originalStart with
  | none =>
      exact (keepsDays_untimed positive).trans (coversDays_iff series)
  | some override =>
      have together := paired override (overrideAt_eq_some found).1
      unfold Paired at together
      cases first : override.startsAt with
      | none =>
          cases last : override.endsAt with
          | none =>
              rw [Option.any_some, Option.bind_some, Option.bind_some, first, last]
              exact (keepsDays_untimed positive).trans (coversDays_iff series)
          | some endsAt =>
              rw [first, last] at together
              cases together
      | some startsAt =>
          cases last : override.endsAt with
          | none =>
              rw [first, last] at together
              cases together
          | some endsAt =>
              rw [Option.any_some, Option.bind_some, Option.bind_some, first, last]
              constructor
              · exact fun ⟨own, positive, covers, _⟩ => ⟨own, positive, covers⟩
              · exact fun ⟨own, positive, covers⟩ =>
                  ⟨own, positive, covers, fun untimed => nomatch untimed⟩

/-- **Each occurrence** that an all-day event is expanded to covers whole local days exactly where
its days are kept. -/
theorem keepsDays_iff {settings : Settings} {tables : Tables} {event : CalendarEvent}
    (reached : (system zoneInfo settings).Reachable tables) (stored : event ∈ tables.events)
    (all : event.allDay = true) :
    ∃ count, 0 < count ∧ CoversDays (zoneInfo event.timezone) count event.startsAt event.endsAt ∧
      ∀ windowStart windowEnd occurrences,
        expandEventOccurrences zoneInfo event (tables.overridesOf event.id) windowStart windowEnd =
          .ok occurrences →
        ∀ occurrence ∈ occurrences,
          (KeepsDays (zoneInfo event.timezone) (tables.overridesOf event.id) count occurrence ↔
            DaysKept (zoneInfo event.timezone) event count
              (overrideAt (tables.overridesOf event.id) occurrence.originalStart)
              occurrence.originalStart) := by
  obtain ⟨count, positive, series⟩ := coversDays_written.of_reachable reached event stored all
  refine ⟨count, positive, series, ?_⟩
  intro windowStart windowEnd occurrences expanded occurrence member
  refine keepsDays_of_built ?_ positive series (built_of_expanded expanded occurrence member)
  exact fun override named => paired_of_reachable reached override (mem_overridesOf.mp named).1

/-! ## A series that meets summer time -/

def daily : RecurrenceRule where
  frequency := .daily
  interval := 1
  byWeekday := none
  untilAt := none
  count := none
  interval_bounds := RecurrenceRule.one_bounds
  count_bounds := RecurrenceRule.uncounted_bounds
  weekdays := RecurrenceRule.weekdays_of_daily

def holidayBody : CalendarEventCreate :=
  { dashboardId := 1, title := "Holiday", description := none, location := none
    startsAt := (workingDay 1).1, endsAt := (workingDay 1).2, timezone := "America/Sao_Paulo"
    allDay := true, recurrence := some daily }

def holiday : CalendarEvent :=
  { id := 1, dashboardId := 1, createdBy := 1, updatedBy := 1, title := "Holiday"
    description := none, location := none, startsAt := summerTime - 72 * hour
    endsAt := summerTime - 48 * hour, timezone := "America/Sao_Paulo", allDay := true
    recurrence := some daily, deletedAt := none }

theorem holiday_reachable : (system (fun _ => saoPaulo) roomy).Reachable ⟨[holiday], []⟩ := by
  have created : (system (fun _ => saoPaulo) roomy).step ⟨[], []⟩
      (.createEvent 1 1 holidayBody) = some ⟨[holiday], []⟩ := by rfl
  exact .step (.initial rfl) trivial created

def shownOn (startsAt : Int) : ExpandedOccurrence :=
  { eventId := 1, occurrenceStart := startsAt, occurrenceEnd := startsAt + 24 * hour
    originalStart := startsAt, title := "Holiday", description := none, location := none
    timezone := "America/Sao_Paulo", allDay := true, createdBy := 1, recurring := true
    isException := false }

theorem expanded_holiday : expandEventOccurrences (fun _ => saoPaulo) holiday []
    (summerTime - 48 * hour) (summerTime - 47 * hour) = .ok [shownOn (summerTime - 48 * hour)] := by
  decide +kernel

theorem expanded_summer : expandEventOccurrences (fun _ => saoPaulo) holiday [] summerTime
    (summerTime + hour) = .ok [shownOn summerTime] := by
  decide +kernel

theorem holiday_keepsDays : ∃ count,
    CoversDays saoPaulo count holiday.startsAt holiday.endsAt ∧
      KeepsDays saoPaulo [] count (shownOn (summerTime - 48 * hour)) := by
  have midnight : (Gregorian.toOrdinal 2018 11 4 : Int) = 737002 := by decide
  obtain ⟨count, positive, series, keeps⟩ :=
    keepsDays_iff holiday_reachable (List.mem_singleton.mpr rfl) rfl
  refine ⟨count, series, (keeps _ _ _ expanded_holiday _ (List.mem_singleton.mpr rfl)).mpr ?_⟩
  obtain ⟨opening, opens, closes⟩ := series
  refine ⟨opening + 1, opening, ?_, opens, closes, ?_⟩
  · simp only [instantOf, saoPaulo, holiday, summerTime, shownOn, midnight, hour, day] at *
    split_ifs at * <;> omega
  · simp only [setForward, instantOf, saoPaulo, holiday, summerTime, midnight, hour, day] at *
    split_ifs at * <;> omega

/-- On the day that summer time begins, the holiday ends at one in the morning. -/
theorem not_coverWholeDays : ∃ tables, (system (fun _ => saoPaulo) roomy).Reachable tables ∧
    ¬ CoverWholeDays (fun _ => saoPaulo) tables := by
  have midnight : (Gregorian.toOrdinal 2018 11 4 : Int) = 737002 := by decide
  refine ⟨_, holiday_reachable, ?_⟩
  intro covers
  obtain ⟨count, _, _, keeps⟩ := covers holiday (List.mem_singleton.mpr rfl) rfl
  obtain ⟨own, _, ⟨first, _, ends⟩, _⟩ :=
    keeps _ _ _ expanded_summer _ (List.mem_singleton.mpr rfl)
  simp only [instantOf, saoPaulo, summerTime, shownOn, midnight, hour, day] at ends
  split_ifs at ends <;> omega

end FrontDashboard.AllDay
