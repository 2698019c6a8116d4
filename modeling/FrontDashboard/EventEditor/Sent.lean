import FrontDashboard.EventEditor.Counted
import FrontDashboard.Events.WellFormed
import Mathlib.Data.List.Dedup

/-! # The request of an unchanged event

What of an event its draft keeps: times that are the browser's whole minutes or days, a rule
that comes to the same instants on the browser's clock, and an end that is the end of a date.
-/

namespace FrontDashboard.EventEditor

open Outcomes
open Calendar

/-- The clock shows the whole unit of what it shows at an instant at that instant. -/
def ReadBack (clock : Zone) (unit instant : Int) : Prop :=
  instantOf clock (localTime clock instant / unit * unit) = instant

/-- The clock shows a multiple of a unit at the instant, and no earlier instant is read from
that. -/
structure NamedTo (clock : Zone) (unit instant : Int) : Prop where
  whole : unit ∣ localTime clock instant
  returns : instantOf clock (localTime clock instant) = instant

/-- The last day before an end: that of the moment before, but none before the start's. -/
def lastCovered (clock : Zone) (startsAt endsAt : Int) : Int :=
  max (localDate clock startsAt) (localDate clock (endsAt - millisecond))

/-- **The days of a draft** are an all-day event's: it starts with the browser's midnight of a date,
on which its minute is read too, and ends with the midnight of a later date, which the day after its
last one begins on. -/
structure DaysKept (clock : Zone) (event : CalendarEvent) : Prop where
  starts : ReadBack clock day event.startsAt
  shown : localDate clock (instantOf clock (localTime clock event.startsAt / minute * minute)) =
    localDate clock event.startsAt
  ends : NamedTo clock day event.endsAt
  later : localDate clock event.startsAt < localDate clock event.endsAt
  within : localDate clock event.endsAt ≤ maxOrdinal
  covers : localDate clock
      (instantOf clock ((lastCovered clock event.startsAt event.endsAt + 1) * day)) =
    localDate clock event.endsAt

/-- **The times of a draft** are the event's: those of a timed event are the browser's whole
minutes, those of an all-day event its midnights. -/
def TimesKept (clock : Zone) (event : CalendarEvent) : Prop :=
  if event.allDay then DaysKept clock event
  else ReadBack clock minute event.startsAt ∧ ReadBack clock minute event.endsAt

/-- **An until that ends a date**: no instant that the rule names lies between it and the last
second of its date, and none that is not after it is beyond the count. -/
structure EndsADate (clock : Zone) (series : Series) (untilAt : Int) : Prop where
  beyond : ∀ index instant, series.Runs index → series.reading index = .named (.ok instant) →
    untilAt < instant → endOfDate clock (localDate clock untilAt) < instant
  upTo : ∀ index instant, series.Runs index → series.reading index = .named (.ok instant) →
    instant ≤ untilAt → instant ≤ endOfDate clock (localDate clock untilAt)
  uncounted : ∀ index instant, series.Runs index → series.reading index = .named (.ok instant) →
    instant ≤ untilAt → ¬ series.reached (series.slotsBefore index)

/-- **A rule whose end a draft keeps** has none, or an until that ends a date, or a count of more
than one of a series that ends on its date. -/
def EndKept (clock : Zone) (series : Series) : Prop :=
  match series.rule.untilAt, series.rule.count with
  | none, none => True
  | some untilAt, _ => EndsADate clock series untilAt
  | none, some count => 1 < count ∧ EndsOnItsDate clock series count

/-- **An event that its draft keeps.** -/
structure Faithful (zoneInfo : TimezoneName → Zone) (timezone : TimezoneName)
    (event : CalendarEvent) : Prop where
  times : TimesKept (zoneInfo timezone) event
  rule : ∀ rule ∈ event.recurrence, ∃ here there,
    seriesOf (zoneInfo timezone) event rule = .ok here ∧
      seriesOf (zoneInfo event.timezone) event rule = .ok there ∧ here.InStep there ∧
      EndKept (zoneInfo timezone) here

variable {zoneInfo : TimezoneName → Zone} {clock : Zone} {timezone : TimezoneName}
  {event : CalendarEvent}

/-- An all-day event's times are kept when its days are. -/
theorem TimesKept.ofAllDay (kept : TimesKept clock event) (all : event.allDay = true) :
    DaysKept clock event := by
  unfold TimesKept at kept
  rw [if_pos all] at kept
  exact kept

/-- A timed event's times are kept when they read back to the minute. -/
theorem TimesKept.ofTimed (kept : TimesKept clock event) (timed : ¬ event.allDay = true) :
    ReadBack clock minute event.startsAt ∧ ReadBack clock minute event.endsAt := by
  unfold TimesKept at kept
  rw [if_neg timed] at kept
  exact kept

/-! ## What is sent -/

/-- A parsed text is the instant of its wall time, in a year of four digits. -/
theorem parsed_eq_some {wall instant : Int} (ok : parsed clock wall = some instant) :
    instant = instantOf clock wall ∧ FourDigitYear (wall / day) := by
  unfold parsed at ok
  split at ok
  next dated =>
    cases ok
    exact ⟨rfl, dated⟩
  next => cases ok

/-- A checked instant is itself. -/
theorem checked_eq_self {instant result : Int} (ok : checked instant = .ok result) :
    result = instant ∧ checked instant = .ok instant := by
  have same := (checked_eq_ok.mp ok).1
  rw [same] at ok
  exact ⟨same, ok⟩

/-- An instant that is sent is itself. -/
theorem toIsoString_eq_some {instant sent : Int} (ok : toIsoString instant = some sent) :
    sent = instant ∧ checked instant = .ok instant := by
  unfold toIsoString at ok
  cases found : checked instant with
  | error error =>
      rw [found] at ok
      cases ok
  | ok result =>
      rw [found] at ok
      cases ok
      obtain ⟨same, within⟩ := checked_eq_self found
      rw [found] at within
      exact ⟨same, within⟩

/-- The text of the end that is handed on. -/
def submittedEnd (clock : Zone) (event : CalendarEvent) : Int :=
  if event.allDay then
    exclusiveAllDayEnd clock (inclusiveAllDayEndDate clock
      (toLocalDateTimeInput clock event.startsAt) (toLocalDateTimeInput clock event.endsAt))
  else toLocalDateTimeInput clock event.endsAt

/-- What a request for an unchanged event holds. -/
structure Sent (clock : Zone) (timezone : TimezoneName) (event : CalendarEvent)
    (body : CalendarEventUpdate) (recurrence : Option RecurrenceRule) : Prop where
  drafted : draftRecurrence clock (createCalendarEditorDraftFromEvent clock event) =
    some recurrence
  dated : FourDigitYear (toLocalDateTimeInput clock event.startsAt / day)
  started : checked (instantOf clock (toLocalDateTimeInput clock event.startsAt)) =
    .ok (instantOf clock (toLocalDateTimeInput clock event.startsAt))
  ended : checked (instantOf clock (submittedEnd clock event)) =
    .ok (instantOf clock (submittedEnd clock event))
  startsAt : body.startsAt = some (instantOf clock (toLocalDateTimeInput clock event.startsAt))
  endsAt : body.endsAt = some (instantOf clock (submittedEnd clock event))
  timezone : body.timezone = some timezone
  allDay : body.allDay = some event.allDay
  recurrence : body.recurrence = some recurrence

/-- What the form sends back, field by field. -/
theorem sent_of_resubmitted {body : CalendarEventUpdate}
    (sent : resubmitted zoneInfo timezone event = some body) :
    ∃ recurrence, Sent (zoneInfo timezone) timezone event body recurrence := by
  unfold resubmitted at sent
  obtain ⟨draft, handed, submitted⟩ := Option.bind_eq_some_iff.mp sent
  unfold handleSubmit at handed
  split at handed
  next => cases handed
  next =>
    cases handed
    unfold handleEditorSubmit at submitted
    split at submitted
    next => cases submitted
    next =>
      obtain ⟨recurrence, drafted, built⟩ := Option.bind_eq_some_iff.mp submitted
      obtain ⟨startsAt, started, built⟩ := Option.bind_eq_some_iff.mp built
      obtain ⟨endsAt, ended, built⟩ := Option.bind_eq_some_iff.mp built
      obtain ⟨start, start_parsed, start_sent⟩ := Option.bind_eq_some_iff.mp started
      obtain ⟨finish, end_parsed, end_sent⟩ := Option.bind_eq_some_iff.mp ended
      cases built
      obtain ⟨rfl, low⟩ := toIsoString_eq_some start_sent
      obtain ⟨rfl, high⟩ := toIsoString_eq_some end_sent
      obtain ⟨rfl, dated⟩ := parsed_eq_some start_parsed
      obtain ⟨rfl, _⟩ := parsed_eq_some end_parsed
      exact ⟨recurrence, drafted, dated, low, high, rfl, rfl, rfl, rfl, rfl⟩

/-! ## Its times -/

/-- The date of the input is the local date. -/
theorem toLocalDateTimeInput_div (instant : Int) :
    toLocalDateTimeInput clock instant / day = localDate clock instant := by
  unfold toLocalDateTimeInput localDate minute day
  omega

/-- An instant named to the minute comes back from its input. -/
theorem NamedTo.toLocalDateTimeInput {unit instant : Int} (named : NamedTo clock unit instant)
    (minutes : minute ∣ unit) :
    instantOf clock (EventEditor.toLocalDateTimeInput clock instant) = instant ∧
      EventEditor.toLocalDateTimeInput clock instant = localTime clock instant := by
  have whole := Int.ediv_mul_cancel (minutes.trans named.whole)
  unfold EventEditor.toLocalDateTimeInput
  rw [whole]
  exact ⟨named.returns, rfl⟩

/-- **The end of an all-day event** is handed on as it is. -/
theorem submittedEnd_eq (all : event.allDay = true) (kept : DaysKept clock event)
    (dated : FourDigitYear (toLocalDateTimeInput clock event.startsAt / day)) :
    submittedEnd clock event = localTime clock event.endsAt := by
  obtain ⟨returns, text⟩ := kept.ends.toLocalDateTimeInput (by decide)
  have midnight : localDate clock event.endsAt * day = localTime clock event.endsAt :=
    Int.ediv_mul_cancel kept.ends.whole
  rw [toLocalDateTimeInput_div] at dated
  have ends_dated : FourDigitYear (toLocalDateTimeInput clock event.endsAt / day) := by
    rw [toLocalDateTimeInput_div]
    exact ⟨dated.1.trans kept.later.le, kept.within⟩
  have covered : inclusiveAllDayEndDate clock (toLocalDateTimeInput clock event.startsAt)
      (toLocalDateTimeInput clock event.endsAt) =
      lastCovered clock event.startsAt event.endsAt := by
    unfold inclusiveAllDayEndDate parsed lastCovered
    rw [if_pos ends_dated]
    dsimp only
    rw [returns, toLocalDateTimeInput_div]
    split
    next clamped => exact (max_eq_left clamped.2.le).symm
    next kept => exact (max_eq_right (Int.not_lt.mp fun before => kept ⟨dated, before⟩)).symm
  unfold submittedEnd
  rw [if_pos all, covered]
  unfold exclusiveAllDayEnd shiftDateValue
  rw [kept.covers, midnight]

/-- What an all-day event is snapped to. -/
theorem normalizeAllDayBounds_steps {startsAt endsAt : Int} {bounds : Int × Int}
    (snapped : normalizeAllDayBounds zoneInfo startsAt endsAt timezone = .ok bounds) :
    ∃ lastDay, lastDay = max (localDate (zoneInfo timezone) startsAt)
        ((localTime (zoneInfo timezone) endsAt - 1) / day) ∧ lastDay + 1 ≤ maxOrdinal ∧
      bounds.1 = instantOf (zoneInfo timezone) (localDate (zoneInfo timezone) startsAt * day) ∧
      bounds.2 = instantOf (zoneInfo timezone) ((lastDay + 1) * day) := by
  obtain ⟨startLocal, starts, snapped⟩ := bind_eq_ok.mp snapped
  obtain ⟨endLocal, ends, snapped⟩ := bind_eq_ok.mp snapped
  obtain ⟨beforeEnd, stepped, snapped⟩ := bind_eq_ok.mp snapped
  have firstDay : startLocal / day = localDate (zoneInfo timezone) startsAt := by
    rw [(checked_eq_ok.mp starts).1]
    rfl
  have before : beforeEnd = localTime (zoneInfo timezone) endsAt - 1 := by
    rw [(checked_eq_ok.mp stepped).1, (checked_eq_ok.mp ends).1]
    rfl
  dsimp only at snapped
  rw [firstDay, before] at snapped
  refine ⟨_, rfl, ?_⟩
  split at snapped
  next => cases snapped
  next within =>
    obtain ⟨first, begun, snapped⟩ := bind_eq_ok.mp snapped
    obtain ⟨last, finished, snapped⟩ := bind_eq_ok.mp snapped
    cases snapped
    have begins := (checked_eq_ok.mp begun).1
    have finishes := (checked_eq_ok.mp finished).1
    rw [Int.add_zero] at begins finishes
    exact ⟨Int.not_lt.mp within, begins, finishes⟩

/-- **Snapping** an all-day event whose times are midnights leaves it as it is. -/
theorem normalizeAllDayBounds_of_daysKept {bounds : Int × Int}
    (kept : DaysKept (zoneInfo timezone) event)
    (snapped : normalizeAllDayBounds zoneInfo (instantOf (zoneInfo timezone)
      (toLocalDateTimeInput (zoneInfo timezone) event.startsAt)) event.endsAt timezone =
        .ok bounds) : bounds = (event.startsAt, event.endsAt) := by
  obtain ⟨lastDay, last_eq, _, begins, finishes⟩ := normalizeAllDayBounds_steps snapped
  have shown : localDate (zoneInfo timezone) (instantOf (zoneInfo timezone)
      (toLocalDateTimeInput (zoneInfo timezone) event.startsAt)) =
      localDate (zoneInfo timezone) event.startsAt := kept.shown
  rw [shown] at last_eq begins
  have whole := Int.ediv_mul_cancel kept.ends.whole
  have before : (localTime (zoneInfo timezone) event.endsAt - 1) / day =
      localDate (zoneInfo timezone) event.endsAt - 1 := by
    unfold localDate day at *
    omega
  have last : lastDay + 1 = localDate (zoneInfo timezone) event.endsAt := by
    rw [last_eq, before, max_eq_right (Int.le_sub_one_of_lt kept.later), Int.sub_add_cancel]
  rw [last] at finishes
  refine Prod.ext (begins.trans kept.starts) (finishes.trans ?_)
  unfold localDate
  rw [whole]
  exact kept.ends.returns

/-- **The times that are settled** are the event's. -/
theorem settledTimes_of_timesKept {times : Int × Int} (kept : TimesKept (zoneInfo timezone) event)
    (dated : FourDigitYear (toLocalDateTimeInput (zoneInfo timezone) event.startsAt / day))
    (settled : settledTimes zoneInfo event.allDay
      (instantOf (zoneInfo timezone) (toLocalDateTimeInput (zoneInfo timezone) event.startsAt))
      (instantOf (zoneInfo timezone) (submittedEnd (zoneInfo timezone) event)) timezone =
        .ok times) :
    times = (event.startsAt, event.endsAt) := by
  by_cases all : event.allDay = true
  · rw [all] at settled
    have days := kept.ofAllDay all
    have snapped := settledTimes_allDay settled
    rw [submittedEnd_eq all days dated, days.ends.returns] at snapped
    exact normalizeAllDayBounds_of_daysKept days snapped
  · rw [Bool.eq_false_iff.mpr all] at settled
    rw [settledTimes_timed settled]
    obtain ⟨starts, ends⟩ := kept.ofTimed all
    unfold submittedEnd
    rw [if_neg all]
    exact Prod.ext starts ends

/-! ### Only these times -/

/-- From a day on, the clock skips over no midnight, each of which comes right after the day
before. -/
structure Dawns (clock : Zone) (first : Int) : Prop where
  stays : ∀ wall, first * day ≤ wall → localDate clock (instantOf clock wall) = wall / day
  eve : ∀ date, first ≤ date →
    localDate clock (instantOf clock (date * day) - millisecond) = date - 1
  dawn : ∀ instant, first < localDate clock instant →
    localDate clock instant ≤ localDate clock (instant - millisecond) + 1

/-- The day of the start is that of its text. -/
theorem localDate_startText
    (dawns : Dawns clock (localDate clock event.startsAt)) :
    localDate clock (instantOf clock (toLocalDateTimeInput clock event.startsAt)) =
      localDate clock event.startsAt := by
  rw [← toLocalDateTimeInput_div event.startsAt]
  apply dawns.stays
  unfold localDate toLocalDateTimeInput minute day
  omega

/-- The day up to which an all-day draft is handed on is not before that of its start. -/
theorem le_inclusiveAllDayEndDate {startsAt endsAt : Int}
    (starts : FourDigitYear (startsAt / day)) :
    startsAt / day ≤ inclusiveAllDayEndDate clock startsAt endsAt := by
  unfold inclusiveAllDayEndDate
  dsimp only
  split
  next => exact le_rfl
  next =>
    split
    next => exact le_rfl
    next kept => exact Int.not_lt.mp fun earlier => kept ⟨starts, earlier⟩

/-- Nor is it before that of the moment before its end. -/
theorem eve_le_inclusiveAllDayEndDate {startsAt endsAt : Int}
    (ends : FourDigitYear (endsAt / day)) :
    localDate clock (instantOf clock endsAt - millisecond) ≤
      inclusiveAllDayEndDate clock startsAt endsAt := by
  unfold inclusiveAllDayEndDate parsed
  rw [if_pos ends]
  dsimp only
  split
  next clamped => exact clamped.2.le
  next => exact le_rfl

/-- **Only** midnights are settled as they were. -/
theorem daysKept_of_snapped
    (dawns : Dawns (zoneInfo timezone) (localDate (zoneInfo timezone) event.startsAt))
    (all : event.allDay = true)
    (dated : FourDigitYear (toLocalDateTimeInput (zoneInfo timezone) event.startsAt / day))
    (snapped : normalizeAllDayBounds zoneInfo
      (instantOf (zoneInfo timezone) (toLocalDateTimeInput (zoneInfo timezone) event.startsAt))
      (instantOf (zoneInfo timezone) (submittedEnd (zoneInfo timezone) event)) timezone =
        .ok (event.startsAt, event.endsAt)) :
    DaysKept (zoneInfo timezone) event := by
  have stays := dawns.stays
  have floor := @le_inclusiveAllDayEndDate (zoneInfo timezone) _
    (toLocalDateTimeInput (zoneInfo timezone) event.endsAt) dated
  rw [toLocalDateTimeInput_div] at floor dated
  obtain ⟨covered, covered_eq⟩ : ∃ covered, covered = inclusiveAllDayEndDate (zoneInfo timezone)
    (toLocalDateTimeInput (zoneInfo timezone) event.startsAt)
    (toLocalDateTimeInput (zoneInfo timezone) event.endsAt) := ⟨_, rfl⟩
  have midnight : ∀ date, localDate (zoneInfo timezone) event.startsAt ≤ date →
      localDate (zoneInfo timezone) (instantOf (zoneInfo timezone) (date * day)) = date := by
    intro date after
    rw [stays _ (Int.mul_le_mul_of_nonneg_right after (by decide)),
      Int.mul_ediv_cancel _ (by decide)]
  have ended : submittedEnd (zoneInfo timezone) event = (covered + 1) * day := by
    unfold submittedEnd exclusiveAllDayEnd shiftDateValue
    rw [if_pos all, ← covered_eq, midnight]
    omega
  rw [← covered_eq] at floor
  obtain ⟨lastDay, last_eq, within, begins, finishes⟩ := normalizeAllDayBounds_steps snapped
  rw [localDate_startText dawns] at last_eq begins
  rw [ended] at last_eq
  have endsOn := midnight (covered + 1) (by omega)
  dsimp only at begins finishes
  have finishesOn := midnight (lastDay + 1) (by omega)
  rw [← finishes] at finishesOn
  have exactly : localTime (zoneInfo timezone) event.endsAt = (lastDay + 1) * day := by
    have either : lastDay = covered ∧
        localTime (zoneInfo timezone) (instantOf (zoneInfo timezone) ((covered + 1) * day)) =
          (covered + 1) * day ∨ lastDay = covered + 1 := by
      unfold localDate at endsOn floor last_eq
      unfold day at *
      omega
    rcases either with ⟨same, midnight⟩ | further
    · rw [finishes, same]
      exact midnight
    · -- The midnight of the end would be skipped, and the minute that is sent be its own day's.
      have text := @toLocalDateTimeInput_div (zoneInfo timezone) event.endsAt
      have eve := @eve_le_inclusiveAllDayEndDate (zoneInfo timezone)
        (toLocalDateTimeInput (zoneInfo timezone) event.startsAt)
        (toLocalDateTimeInput (zoneInfo timezone) event.endsAt)
        (by rw [text, finishesOn]; exact ⟨by have := dated.1; omega, within⟩)
      rw [← covered_eq] at eve
      have sentOn := stays (toLocalDateTimeInput (zoneInfo timezone) event.endsAt) (by
        have late : localDate (zoneInfo timezone) event.startsAt ≤
          toLocalDateTimeInput (zoneInfo timezone) event.endsAt / day := by omega
        exact (Int.le_ediv_iff_mul_le (by decide)).mp late)
      have dawn := dawns.dawn (instantOf (zoneInfo timezone)
        (toLocalDateTimeInput (zoneInfo timezone) event.endsAt)) (by omega)
      omega
  have eve := dawns.eve (lastDay + 1) (by omega)
  rw [← finishes] at eve
  refine ⟨begins.symm, localDate_startText dawns, ⟨⟨lastDay + 1, ?_⟩, ?_⟩, ?_, ?_, ?_⟩
  · rw [exactly, Int.mul_comm]
  · rw [exactly]
    exact finishes.symm
  · rw [finishesOn]
    omega
  · rw [finishesOn]
    exact within
  · unfold lastCovered
    rw [eve, max_eq_right (by omega), Int.add_sub_cancel, midnight _ (by omega), finishesOn]

/-- **Only** times that the draft keeps are settled as they were. -/
theorem timesKept_of_settled
    (dawns : event.allDay = true → Dawns (zoneInfo timezone)
      (localDate (zoneInfo timezone) event.startsAt))
    (dated : FourDigitYear (toLocalDateTimeInput (zoneInfo timezone) event.startsAt / day))
    (settled : settledTimes zoneInfo event.allDay
      (instantOf (zoneInfo timezone) (toLocalDateTimeInput (zoneInfo timezone) event.startsAt))
      (instantOf (zoneInfo timezone) (submittedEnd (zoneInfo timezone) event)) timezone =
        .ok (event.startsAt, event.endsAt)) :
    TimesKept (zoneInfo timezone) event := by
  by_cases all : event.allDay = true
  · rw [all] at settled
    unfold TimesKept
    rw [if_pos all]
    exact daysKept_of_snapped (dawns all) all dated (settledTimes_allDay settled)
  · rw [Bool.eq_false_iff.mpr all] at settled
    obtain ⟨starts, ends⟩ := Prod.mk.inj (settledTimes_timed settled)
    unfold submittedEnd at ends
    rw [if_neg all] at ends
    unfold TimesKept
    rw [if_neg all]
    exact ⟨starts.symm, ends.symm⟩

/-! ## Its rule -/

/-- The end of a rule is sent as the end of its day. -/
theorem endOfDate_dated {endsOn untilAt : Int}
    (sent : toRecurrenceUntilIso clock endsOn = some untilAt) :
    untilAt = endOfDate clock endsOn ∧ FourDigitYear endsOn ∧ checked untilAt = .ok untilAt := by
  obtain ⟨instant, read, sent⟩ := Option.bind_eq_some_iff.mp sent
  obtain ⟨rfl, dated⟩ := parsed_eq_some read
  have date : (endsOn * day + lastSecond) / day = endsOn := by
    unfold day lastSecond
    omega
  rw [date] at dated
  obtain ⟨same, read⟩ := toIsoString_eq_some sent
  refine ⟨same, dated, ?_⟩
  rw [same]
  exact read

/-- The rule that a draft's is sent as. -/
structure SentRule (clock : Zone) (startsAt : Int) (rule sent : RecurrenceRule) : Prop where
  frequency : sent.frequency = rule.frequency
  interval : sent.interval = rule.interval
  weekdays : rule.frequency = .weekly → sent.byWeekday =
    some (((rule.byWeekday.getD []).dedup.insertionSort (· ≤ ·)).insertionSort (· ≤ ·))
  count : sent.count = none
  untilAt : sent.untilAt = (deriveRecurrenceEndDate clock startsAt rule).map (endOfDate clock)
  read : toUtc sent.untilAt = .ok sent.untilAt

/-- A single event is sent without a rule. -/
theorem draftRecurrence_none (oneOff : event.recurrence = none) {recurrence : Option RecurrenceRule}
    (drafted : draftRecurrence clock (createCalendarEditorDraftFromEvent clock event) =
      some recurrence) : recurrence = none := by
  unfold draftRecurrence createCalendarEditorDraftFromEvent at drafted
  rw [oneOff] at drafted
  cases drafted
  rfl

/-- A rule that is accepted has what was sent. -/
theorem recurrenceRule_eq_some {frequency : Frequency} {interval : Nat}
    {byWeekday : Option (List Nat)} {untilAt : Option Int} {sent : RecurrenceRule}
    (accepted : recurrenceRule frequency interval byWeekday untilAt = some sent) :
    sent.frequency = frequency ∧ sent.interval = interval ∧ sent.byWeekday = byWeekday ∧
      sent.untilAt = untilAt ∧ sent.count = none := by
  unfold recurrenceRule at accepted
  split at accepted
  next =>
    cases accepted
    exact ⟨rfl, rfl, rfl, rfl, rfl⟩
  next => cases accepted

/-- **The rule of a draft.** -/
theorem draftRecurrence_some {rule : RecurrenceRule} (repeats : event.recurrence = some rule)
    {recurrence : Option RecurrenceRule}
    (drafted : draftRecurrence clock (createCalendarEditorDraftFromEvent clock event) =
      some recurrence) :
    ∃ sent, recurrence = some sent ∧ SentRule clock event.startsAt rule sent := by
  unfold draftRecurrence createCalendarEditorDraftFromEvent at drafted
  rw [repeats] at drafted
  obtain ⟨untilAt, ended, drafted⟩ := Option.bind_eq_some_iff.mp drafted
  obtain ⟨sent, accepted, same⟩ := Option.bind_eq_some_iff.mp drafted
  cases same
  obtain ⟨frequency, interval, weekdays, until_eq, count⟩ := recurrenceRule_eq_some accepted
  have positive : ¬ rule.interval = 0 := Nat.ne_of_gt rule.interval_bounds.1
  change (deriveRecurrenceEndDate clock event.startsAt rule).elim (some none)
    (fun endsOn => (toRecurrenceUntilIso clock endsOn).map some) = some untilAt at ended
  refine ⟨sent, rfl, frequency, interval.trans (if_neg positive), ?_, count, ?_, ?_⟩
  · intro weekly
    dsimp only at weekdays
    rw [if_pos weekly] at weekdays
    obtain ⟨days, given, some, _⟩ := rule.weekdays weekly
    obtain ⟨first, rest, rfl⟩ := List.exists_cons_of_ne_nil some
    rw [Option.mem_def] at given
    rw [weekdays, given]
    unfold getInitialWeeklySelection sortedWeekdays
    dsimp only
    rw [if_pos weekly, given]
    rfl
  · rw [until_eq]
    cases derived : deriveRecurrenceEndDate clock event.startsAt rule with
    | none =>
        rw [derived] at ended
        cases ended
        rfl
    | some endsOn =>
        rw [derived] at ended
        obtain ⟨instant, sent, rfl⟩ := Option.map_eq_some_iff.mp ended
        rw [(endOfDate_dated sent).1]
        rfl
  · rw [until_eq]
    cases derived : deriveRecurrenceEndDate clock event.startsAt rule with
    | none =>
        rw [derived] at ended
        cases ended
        rfl
    | some endsOn =>
        rw [derived] at ended
        obtain ⟨instant, sent, rfl⟩ := Option.map_eq_some_iff.mp ended
        exact map_eq_ok.mpr ⟨instant, (endOfDate_dated sent).2.2, rfl⟩

/-- The series of a rule that is sent reads as that of the event's. -/
theorem reading_of_sentRule {series : Series} {sent : RecurrenceRule}
    (rule : SentRule clock series.startsAt series.rule sent) (index : Nat) :
    ({ series with rule := sent } : Series).reading index = series.reading index := by
  have candidates : ({ series with rule := sent } : Series).candidate index =
      series.candidate index := by
    have interval : ({ series with rule := sent } : Series).interval = series.interval := by
      unfold Series.interval
      rw [rule.interval]
    have weekdays : series.rule.frequency = .weekly →
        ({ series with rule := sent } : Series).weekdays = series.weekdays := by
      intro weekly
      obtain ⟨days, given, some, _⟩ := series.rule.weekdays weekly
      rw [Option.mem_def] at given
      unfold Series.weekdays
      dsimp only
      rw [rule.weekdays weekly, given, Option.getD_some, Option.getD_some, Option.getD_some]
      have sorted := List.pairwise_insertionSort (· ≤ ·) days.dedup
      have nodup : (days.dedup.insertionSort (· ≤ ·)).Nodup :=
        (List.perm_insertionSort (· ≤ ·) days.dedup).nodup_iff.mpr (List.nodup_dedup days)
      rw [sorted.insertionSort_eq, nodup.dedup, sorted.insertionSort_eq]
    unfold Series.candidate
    rw [interval]
    dsimp only
    rw [rule.frequency]
    cases frequency : series.rule.frequency with
    | weekly => rw [weekdays frequency]; rfl
    | daily => rfl
    | monthly => rfl
    | yearly => rfl
  unfold Series.reading
  rw [candidates]

/-! ## Its end -/

/-- The series of an event is read on the form's clock. -/
theorem readOn_of_seriesOf {rule : RecurrenceRule} {series : Series}
    (read : seriesOf clock event rule = .ok series) (started : day ≤ event.startsAt) :
    ReadOn clock series := by
  obtain ⟨_, baseLocal, based, rfl⟩ := seriesOf_eq_ok.mp read
  obtain ⟨rfl, low, _⟩ := checked_eq_ok.mp based
  exact ⟨rfl, (Int.le_ediv_iff_mul_le (by decide)).mpr (by rwa [Int.one_mul]), started⟩

/-- The series of an event begins at its own date. -/
theorem based_of_seriesOf {rule : RecurrenceRule} {series : Series}
    (read : seriesOf clock event rule = .ok series) : series.Based := by
  obtain ⟨_, baseLocal, based, rfl⟩ := seriesOf_eq_ok.mp read
  exact (Int.ediv_mul_add_emod _ _).trans (checked_eq_ok.mp based).1

/-- **The end that is sent** leaves out what the rule's own does. -/
theorem endsAlike_of_endKept {here there : Series} {sent : RecurrenceRule}
    (read : ReadOn clock here) (same : here.rule = there.rule) (alike : here.Alike there)
    (kept : EndKept clock here) (rule : SentRule clock here.startsAt here.rule sent) :
    Series.EndsAlike { here with rule := sent } there := by
  intro index instant runs named
  have runs' := alike.runs same runs
  have named' : here.reading index = .named (.ok instant) :=
    (alike.readings index runs).trans named
  have slots := alike.slotsBefore_eq (congrArg (·.untilAt) same) runs
  have after : ({ here with rule := sent } : Series).afterUntil instant ↔
      ∃ endsOn ∈ deriveRecurrenceEndDate clock here.startsAt here.rule,
        endOfDate clock endsOn < instant := by
    unfold Series.afterUntil
    simp [rule.untilAt]
  have reached : there.reached (there.slotsBefore index) ↔
      here.reached (here.slotsBefore index) := by
    unfold Series.reached
    rw [same, slots]
  have ended : there.afterUntil instant ↔ here.afterUntil instant := by
    unfold Series.afterUntil
    rw [same]
  rw [after, reached, ended]
  unfold EndKept at kept
  cases untilAt : here.rule.untilAt with
  | some untilAt' =>
      rw [untilAt] at kept
      have derived : deriveRecurrenceEndDate clock here.startsAt here.rule =
          some (localDate clock untilAt') := by simp [deriveRecurrenceEndDate, untilAt]
      have before : here.afterUntil instant ↔ untilAt' < instant := by
        simp [Series.afterUntil, untilAt]
      rw [derived, before]
      by_cases beyond : untilAt' < instant
      · simp [beyond, kept.beyond index instant runs' named' beyond]
      · have within := Int.not_lt.mp beyond
        have upTo := Int.not_lt.mpr (kept.upTo index instant runs' named' within)
        simp [beyond, upTo, kept.uncounted index instant runs' named' within]
  | none =>
      rw [untilAt] at kept
      have endless : ¬ here.afterUntil instant := by simp [Series.afterUntil, untilAt]
      cases count : here.rule.count with
      | none =>
          have derived : deriveRecurrenceEndDate clock here.startsAt here.rule = none := by
            simp [deriveRecurrenceEndDate, untilAt, count]
          have uncounted := Series.not_reached count (here.slotsBefore index)
          simp [derived, endless, uncounted]
      | some limit =>
          rw [count] at kept
          obtain ⟨several, ends⟩ := kept
          have last := Nat.sub_one_lt_of_lt several
          obtain ⟨ordinal, on⟩ := ends.present (limit - 1) last
          have derived : deriveRecurrenceEndDate clock here.startsAt here.rule = some ordinal := by
            simp [deriveRecurrenceEndDate, untilAt, count, Nat.not_le.mpr several,
              dateAfter_eq read ends last on]
          rw [derived, ← endOfDate_lt_iff_reached read ends count untilAt on runs' named']
          simp [endless]

end FrontDashboard.EventEditor
