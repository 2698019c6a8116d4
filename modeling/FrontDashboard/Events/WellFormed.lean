import FrontDashboard.Calendar.Belongs
import FrontDashboard.Events.Routes

/-! # Well-formed events

What the checks of `create_event` and `update_event` make of the row that they write: an
event that ends after it starts, lasts at most 31 days if it repeats and starts before its
rule ends, and covers whole days of its timezone if it is all-day.
-/

namespace FrontDashboard.Events

open Outcomes
open Calendar

/-- From midnight of one local day to midnight after another. -/
def WholeDays (zone : Zone) (startsAt endsAt : Int) : Prop :=
  ∃ first last : Int, first ≤ last ∧ zone.localToUtc first 0 = .ok startsAt ∧
    zone.localToUtc (last + 1) 0 = .ok endsAt

/-- The midnight of an instant's local day is read as a moment no later than it. -/
def MidnightFirst (zone : Zone) (instant : Int) : Prop :=
  ∀ wall ∈ (zone.toLocal instant).toOption,
    ∀ midnight ∈ (zone.localToUtc (wall / day) 0).toOption, midnight ≤ instant

instance (zone : Zone) (instant : Int) : Decidable (MidnightFirst zone instant) := by
  unfold MidnightFirst
  infer_instance

variable (zoneInfo : TimezoneName → Zone)

structure WellFormed (event : CalendarEvent) : Prop where
  timeRange : event.startsAt < event.endsAt
  duration : event.recurrence.isSome = true → event.duration ≤ maxOccurrenceDuration
  ends : ∀ rule ∈ event.recurrence, endsAfterStart rule event.startsAt
  whole : event.allDay = true → WholeDays (zoneInfo event.timezone) event.startsAt event.endsAt

/-- Where an event begins that is given a start: at the midnight before it, if it is
all-day. -/
def opening (allDay : Bool) (timezone : TimezoneName) (startsAt : Int) : Int :=
  if allDay then
    let zone := zoneInfo timezone
    match zone.toLocal startsAt with
    | .error _ => startsAt
    | .ok wall => (zone.localToUtc (wall / day) 0).toOption.getD startsAt
  else startsAt

/-- The rule is of an all-day event that is snapped back, if it is to end some time. -/
def SnapsBack (rule : RecurrenceRule) (allDay : Bool) (timezone : TimezoneName)
    (startsAt : Int) : Prop :=
  rule.untilAt.isSome = true → allDay = true → MidnightFirst (zoneInfo timezone) startsAt

/-- A body without a recurrence gives no start at or after the end of the stored rule, and
snaps a start that it leaves back. -/
def KeepsRule (read : CalendarEvent) (body : CalendarEventUpdate) : Prop :=
  body.recurrence = none → ∀ rule ∈ read.recurrence,
    (∀ startsAt ∈ body.startsAt, endsAfterStart rule (opening zoneInfo
      (body.allDay.getD read.allDay) (body.timezone.getD read.timezone) startsAt)) ∧
    (body.startsAt = none → SnapsBack zoneInfo rule (body.allDay.getD read.allDay)
      (body.timezone.getD read.timezone) read.startsAt)

instance (rule : RecurrenceRule) (allDay : Bool) (timezone : TimezoneName) (startsAt : Int) :
    Decidable (SnapsBack zoneInfo rule allDay timezone startsAt) := by
  unfold SnapsBack
  infer_instance

instance (read : CalendarEvent) (body : CalendarEventUpdate) :
    Decidable (KeepsRule zoneInfo read body) := by
  unfold KeepsRule
  infer_instance

variable {zoneInfo}

/-! ## The checks -/

theorem asUtc_eq_ok {instant utc : Int} (ok : asUtc instant = .ok utc) : utc = instant := by
  unfold asUtc checked at ok
  split at ok
  · cases ok
    rfl
  · cases ok

/-- **Snapping** an all-day event gives whole days, from the midnight before its start. -/
theorem normalizeAllDayBounds_eq_ok {startsAt endsAt : Int} {timezone : TimezoneName}
    {times : Int × Int}
    (ok : normalizeAllDayBounds zoneInfo startsAt endsAt timezone = .ok times) :
    opening zoneInfo true timezone startsAt = times.1 ∧
      WholeDays (zoneInfo timezone) times.1 times.2 ∧
      ∃ wall, (zoneInfo timezone).toLocal startsAt = .ok wall ∧
        (zoneInfo timezone).localToUtc (wall / day) 0 = .ok times.1 := by
  obtain ⟨startLocal, startsLocal, rest⟩ := bind_eq_ok.mp ok
  obtain ⟨endLocal, _, rest⟩ := bind_eq_ok.mp rest
  obtain ⟨beforeEnd, _, rest⟩ := bind_eq_ok.mp rest
  dsimp only at rest
  split at rest
  next => cases rest
  next =>
    obtain ⟨first, begins, rest⟩ := bind_eq_ok.mp rest
    obtain ⟨last, ends, rest⟩ := bind_eq_ok.mp rest
    cases rest
    refine ⟨?_, ⟨_, _, le_max_left _ _, begins, ends⟩, startLocal, startsLocal, begins⟩
    unfold opening
    rw [if_pos rfl]
    simp only [startsLocal, begins]
    rfl

/-- What the times of an event are settled to. -/
theorem settledTimes_eq_ok {allDay : Bool} {startsAt endsAt : Int} {timezone : TimezoneName}
    {times : Int × Int}
    (ok : settledTimes zoneInfo allDay startsAt endsAt timezone = .ok times) :
    times.1 = opening zoneInfo allDay timezone startsAt ∧
      (allDay = true → WholeDays (zoneInfo timezone) times.1 times.2) := by
  cases allDay with
  | true =>
      obtain ⟨opens, whole, -⟩ := normalizeAllDayBounds_eq_ok (settledTimes_allDay ok)
      exact ⟨opens.symm, fun _ => whole⟩
  | false =>
      rw [settledTimes_timed ok]
      exact ⟨rfl, nofun⟩

/-- An event is snapped back where the midnight before its start is in order. -/
theorem opening_le {allDay : Bool} {timezone : TimezoneName} {startsAt : Int}
    (midnight : allDay = true → MidnightFirst (zoneInfo timezone) startsAt) :
    opening zoneInfo allDay timezone startsAt ≤ startsAt := by
  unfold opening
  split
  next whole =>
    dsimp only
    split
    next => exact le_rfl
    next wall startsLocal =>
      have before := midnight whole wall (by simp [startsLocal, Except.toOption])
      cases begins : (zoneInfo timezone).localToUtc (wall / day) 0 with
      | error failure => exact le_rfl
      | ok moment => exact before moment (by simp [begins, Except.toOption])
  next => exact le_rfl

theorem flushed_checked {event written : CalendarEvent} (ok : flushed event = .ok written) :
    event.startsAt < event.endsAt ∧
      (event.recurrence.isSome = true → event.duration ≤ maxOccurrenceDuration) := by
  unfold flushed at ok
  split at ok
  next => cases ok
  next expandable =>
    split at ok
    next ordered =>
      refine ⟨ordered, ?_⟩
      intro repeats
      unfold assertExpandable at expandable
      split at expandable
      next => cases expandable
      next short =>
        by_contra long
        exact short ⟨repeats, Int.not_le.mp long⟩
    next => cases ok

/-- A rule that ends after the start of an event ends after the snapped start. -/
theorem endsAfterStart_opening {rule : RecurrenceRule} {allDay : Bool} {timezone : TimezoneName}
    {startsAt : Int} (ends : endsAfterStart rule startsAt)
    (back : SnapsBack zoneInfo rule allDay timezone startsAt) :
    endsAfterStart rule (opening zoneInfo allDay timezone startsAt) := by
  intro untilAt bound
  have given : rule.untilAt.isSome = true := Option.isSome_of_mem bound
  exact (opening_le (back given)).trans_lt (ends untilAt bound)

/-! ## Rows -/

/-- **A created event** is well-formed where it is snapped back. -/
theorem wellFormed_created {id : EventId} {caller : UserId} {body : CalendarEventCreate}
    (back : ∀ rule ∈ body.recurrence,
      SnapsBack zoneInfo rule body.allDay body.timezone body.startsAt) {event : CalendarEvent}
    (created : createdEvent zoneInfo id caller body = .ok event) : WellFormed zoneInfo event := by
  obtain ⟨startsAt, endsAt, times, ends, started, _, settled, written⟩ :=
    createdEvent_eq_ok created
  obtain ⟨opens, whole⟩ := settledTimes_eq_ok settled
  obtain ⟨ordered, short⟩ := flushed_checked written
  rw [flushed_eq_ok written]
  refine ⟨ordered, short, ?_, whole⟩
  intro rule given
  rw [opens, asUtc_eq_ok started]
  exact endsAfterStart_opening (ends rule given) (back rule given)

/-- **A patched event** is well-formed where the event was and its rule is kept. -/
theorem wellFormed_revised {read revised : CalendarEvent} (formed : WellFormed zoneInfo read)
    {caller : UserId} {body : CalendarEventUpdate} (keeps : KeepsRule zoneInfo read body)
    (patched : revisedEvent zoneInfo read caller body = .ok revised) :
    WellFormed zoneInfo revised := by
  obtain ⟨startsAt, endsAt, times, recurrence, started, _, settled, ruled, written⟩ :=
    revisedEvent_eq_ok patched
  obtain ⟨opens, whole⟩ := settledTimes_eq_ok settled
  obtain ⟨ordered, short⟩ := flushed_checked written
  rw [flushed_eq_ok written]
  refine ⟨ordered, short, ?_, whole⟩
  intro rule given
  unfold settledRecurrence at ruled
  split at ruled
  next omitted =>
    cases ruled
    obtain ⟨moves, stays⟩ := keeps omitted rule given
    cases moved : body.startsAt with
    | none =>
        rw [moved] at started
        cases started
        rw [opens]
        exact endsAfterStart_opening (formed.ends rule given) (stays moved)
    | some start =>
        rw [moved] at started
        have kept := moves start moved
        rw [← asUtc_eq_ok started, ← opens] at kept
        exact kept
  next =>
    cases ruled
    cases given
  next other =>
    split at ruled
    next ends =>
      cases ruled
      cases given
      exact ends
    next => cases ruled

end FrontDashboard.Events
