import FrontDashboard.EventEditor.Sent

/-! # Saving an event unchanged

An event that its draft keeps occurs as before once it is opened and saved; a one-off event only
then.
-/

namespace FrontDashboard.EventEditor

open Outcomes
open Calendar
open Events (asUtc_eq_ok normalizeAllDayBounds_eq_ok)

variable {zoneInfo : TimezoneName → Zone} {timezone : TimezoneName} {event : CalendarEvent}

/-! ## The event that is saved -/

/-- A recurrence that is given is settled on. -/
theorem settledRecurrence_given {body : CalendarEventUpdate} {startsAt : Int}
    {recurrence settled : Option RecurrenceRule} (given : body.recurrence = some recurrence)
    (ok : settledRecurrence event body startsAt = .ok settled) : settled = recurrence := by
  unfold settledRecurrence at ok
  rw [given] at ok
  cases recurrence with
  | none =>
      cases ok
      rfl
  | some rule =>
      dsimp only at ok
      split at ok
      next =>
        cases ok
        rfl
      next => cases ok

/-- What is written for a request for an unchanged event. -/
structure Written (zoneInfo : TimezoneName → Zone) (timezone : TimezoneName)
    (event revised : CalendarEvent) (recurrence : Option RecurrenceRule) : Prop where
  id : revised.id = event.id
  deletedAt : revised.deletedAt = event.deletedAt
  zone : revised.timezone = timezone
  recurrence : revised.recurrence = recurrence
  settled : settledTimes zoneInfo event.allDay
    (instantOf (zoneInfo timezone) (toLocalDateTimeInput (zoneInfo timezone) event.startsAt))
    (instantOf (zoneInfo timezone) (submittedEnd (zoneInfo timezone) event)) timezone =
      .ok (revised.startsAt, revised.endsAt)

theorem written_of_revised {caller : UserId} {body : CalendarEventUpdate} {revised : CalendarEvent}
    {recurrence : Option RecurrenceRule}
    (sent : Sent (zoneInfo timezone) timezone event body recurrence)
    (ok : revisedEvent zoneInfo event caller body = .ok revised) :
    Written zoneInfo timezone event revised recurrence := by
  obtain ⟨startsAt, endsAt, times, settledOn, starts, ends, settled, ruled, flushes⟩ :=
    revisedEvent_eq_ok ok
  rw [sent.startsAt] at starts
  rw [sent.endsAt] at ends
  rw [sent.timezone] at settled
  rw [sent.allDay, asUtc_eq_ok starts, asUtc_eq_ok ends] at settled
  rw [flushed_eq_ok flushes]
  refine ⟨rfl, rfl, ?_, settledRecurrence_given sent.recurrence ruled, settled⟩
  rw [sent.timezone]
  rfl

/-- Settled times are times of the calendar. -/
theorem checked_settled {allDay : Bool} {startsAt endsAt : Int} {times : Int × Int}
    (started : checked startsAt = .ok startsAt) (ended : checked endsAt = .ok endsAt)
    (settled : settledTimes zoneInfo allDay startsAt endsAt timezone = .ok times) :
    checked times.1 = .ok times.1 ∧ checked times.2 = .ok times.2 := by
  cases allDay with
  | true =>
      obtain ⟨_, ⟨first, last, _, begins, ends⟩, _⟩ :=
        normalizeAllDayBounds_eq_ok (settledTimes_allDay settled)
      obtain ⟨same, within⟩ := checked_eq_self begins
      obtain ⟨same', within'⟩ := checked_eq_self ends
      rw [same, same']
      exact ⟨within, within'⟩
  | false =>
      rw [settledTimes_timed settled]
      exact ⟨started, ended⟩

theorem firstIndex_of_le {series : Series} {windowStart : Int}
    (early : windowStart ≤ series.startsAt) : series.firstIndex windowStart = 0 := by
  unfold Series.firstIndex
  rw [if_pos (.inr early)]

/-- **The starts** of an event that its draft keeps are those of the event that is saved. -/
theorem yields_iff {revised : CalendarEvent} {body : CalendarEventUpdate}
    {recurrence : Option RecurrenceRule} (faithful : Faithful zoneInfo timezone event)
    (sent : Sent (zoneInfo timezone) timezone event body recurrence)
    (written : Written zoneInfo timezone event revised recurrence) (start : Int) :
    revised.Yields zoneInfo start ↔ event.Yields zoneInfo start := by
  have times := settledTimes_of_timesKept faithful.times sent.dated written.settled
  obtain ⟨first, last⟩ := Prod.mk.inj times
  unfold CalendarEvent.Yields
  rw [written.recurrence, written.zone, first]
  cases repeats : event.recurrence with
  | none => rw [draftRecurrence_none repeats sent.drafted]
  | some rule =>
      obtain ⟨here, there, read, own, inStep, kept⟩ := faithful.rule rule repeats
      have alike := inStep.alike (based_of_seriesOf read) (based_of_seriesOf own)
      obtain ⟨ruled, same, sentRule⟩ := draftRecurrence_some repeats sent.drafted
      obtain ⟨begins, _, _, hereRule⟩ := seriesOf_ok read
      obtain ⟨ownBegins, _, _, ownRule⟩ := seriesOf_ok own
      have started : day ≤ event.startsAt := by
        have within := (checked_settled sent.started sent.ended written.settled).1
        rw [← first]
        exact (checked_eq_ok.mp within).2.1
      have saved : seriesOf (zoneInfo timezone) revised ruled =
          .ok { here with rule := ruled } := by
        obtain ⟨_, baseLocal, based, rfl⟩ := seriesOf_eq_ok.mp read
        refine seriesOf_eq_ok.mpr ⟨sentRule.read, baseLocal, by rwa [first], ?_⟩
        simp [CalendarEvent.duration, first, last]
      rw [← begins, ← hereRule] at sentRule
      have readings : ({ here with rule := ruled } : Series).Alike there :=
        ⟨alike.starts, fun index runs => (reading_of_sentRule sentRule index).trans
          (alike.readings index runs)⟩
      have ends := endsAlike_of_endKept (readOn_of_seriesOf read started)
        (hereRule.trans ownRule.symm) alike kept sentRule
      have walks : ∀ windowEnd wanted,
          iterRecurrenceStarts (zoneInfo timezone) revised ruled event.startsAt windowEnd wanted =
            iterRecurrenceStarts (zoneInfo event.timezone) event rule event.startsAt windowEnd
              wanted := by
        intro windowEnd wanted
        unfold iterRecurrenceStarts
        rw [saved, own]
        change Series.walk _ _ _ _ _ _ = Series.walk _ _ _ _ _ _
        rw [@firstIndex_of_le { here with rule := ruled } _ (le_of_eq begins.symm),
          firstIndex_of_le (le_of_eq ownBegins.symm)]
        exact Series.walk_alike readings ends sentRule.count Series.runs_zero (.inr rfl)
      rw [same]
      simp only [walks]

/-! ## The tables -/

/-- A live event that is set is live. -/
theorem liveEvent_setEvent {tables : Tables} {eventId : EventId} {revised : CalendarEvent}
    (stored : tables.liveEvent eventId = some event) (id : revised.id = event.id)
    (deletedAt : revised.deletedAt = event.deletedAt) :
    (tables.setEvent revised).liveEvent eventId = some revised := by
  have selected := List.find?_some stored
  rw [← id, ← deletedAt] at selected
  have named : revised.id = eventId := eq_of_beq (Bool.and_eq_true_iff.mp selected).1
  unfold Tables.liveEvent at stored
  unfold Tables.liveEvent Tables.setEvent
  dsimp only
  generalize tables.events = events at stored ⊢
  induction events with
  | nil => cases stored
  | cons row rest ih =>
      rw [List.map_cons]
      by_cases same : row.id = revised.id
      · simp only [if_pos same, List.find?_cons, selected]
      · have other : (row.id == eventId) = false := by
          rw [← named]
          exact beq_false_of_ne same
        simp only [List.find?_cons, other, Bool.false_and] at stored
        simp only [if_neg same, List.find?_cons, other, Bool.false_and]
        exact ih stored

/-- The request of an unchanged event is made and accepted. -/
def Accepted (zoneInfo : TimezoneName → Zone) (timezone : TimezoneName) (tables : Tables)
    (event : CalendarEvent) (caller : UserId) : Prop :=
  ∃ body after, resubmitted zoneInfo timezone event = some body ∧
    tables.updateEvent zoneInfo event.id caller body = .ok after

section Tables

variable {tables : Tables} {eventId : EventId} {caller : UserId}

theorem resaved_of_not_accepted (stored : tables.liveEvent eventId = some event)
    (refused : ¬ Accepted zoneInfo timezone tables event caller) :
    resaved zoneInfo timezone tables eventId caller = tables := by
  obtain ⟨_, named⟩ := liveEvent_eq_some stored
  unfold resaved
  rw [stored, Option.bind_some]
  cases request : resubmitted zoneInfo timezone event with
  | none => rfl
  | some body =>
      dsimp only
      cases updated : tables.updateEvent zoneInfo eventId caller body with
      | error error => rfl
      | ok after =>
          rw [← named] at updated
          exact absurd ⟨body, after, request, updated⟩ refused

/-- **What an unchanged event is saved as.** -/
theorem saved_of_accepted (stored : tables.liveEvent eventId = some event)
    (accepted : Accepted zoneInfo timezone tables event caller) :
    ∃ revised body recurrence,
      Sent (zoneInfo timezone) timezone event body recurrence ∧
      Written zoneInfo timezone event revised recurrence ∧
      (resaved zoneInfo timezone tables eventId caller).liveEvent eventId = some revised ∧
      (resaved zoneInfo timezone tables eventId caller).overrides = tables.overrides := by
  obtain ⟨body, after, request, updated⟩ := accepted
  obtain ⟨_, named⟩ := liveEvent_eq_some stored
  rw [named] at updated
  obtain ⟨recurrence, sent⟩ := sent_of_resubmitted request
  unfold resaved
  rw [stored, Option.bind_some, request]
  dsimp only
  rw [updated]
  unfold Tables.updateEvent at updated
  rw [stored] at updated
  obtain ⟨revised, revises, updated⟩ := bind_eq_ok.mp updated
  have written := written_of_revised sent revises
  have stays := liveEvent_setEvent stored written.id written.deletedAt
  refine ⟨revised, body, recurrence, sent, written, ?_⟩
  split at updated
  next oneOff =>
    obtain ⟨rule, repeats⟩ := Option.isSome_iff_exists.mp oneOff.1
    obtain ⟨ruled, same, _⟩ := draftRecurrence_some repeats sent.drafted
    rw [written.recurrence, same] at oneOff
    cases oneOff.2
  next =>
    cases updated
    exact ⟨stays, rfl⟩

/-- The times of a one-off event that is saved are those it occurs at. -/
theorem times_of_occurs {revised : CalendarEvent} {body : CalendarEventUpdate}
    {recurrence : Option RecurrenceRule} (oneOff : event.recurrence = none)
    (sent : Sent (zoneInfo timezone) timezone event body recurrence)
    (written : Written zoneInfo timezone event revised recurrence)
    (unchanged : ∀ start finish, revised.Occurs zoneInfo [] start finish ↔
      event.Occurs zoneInfo [] start finish) :
    (revised.startsAt, revised.endsAt) = (event.startsAt, event.endsAt) := by
  have stillOneOff : revised.recurrence = none :=
    written.recurrence.trans (draftRecurrence_none oneOff sent.drafted)
  have within := (checked_settled sent.started sent.ended written.settled).2
  have occurs : revised.Occurs zoneInfo [] revised.startsAt revised.endsAt := by
    rw [CalendarEvent.occurs_oneOff stillOneOff]
    unfold CalendarEvent.duration
    rw [add_sub_cancel]
    exact ⟨rfl, within⟩
  obtain ⟨starts, ends⟩ := (CalendarEvent.occurs_oneOff oneOff).mp
    ((unchanged _ _).mp occurs)
  have finish := (checked_eq_ok.mp ends).1
  unfold CalendarEvent.duration at finish
  rw [add_sub_cancel] at finish
  exact Prod.ext starts finish

/-- **Saving an event unchanged.** Unless the request is refused, an event occurs as before, with
whatever edited occurrences it has, if its draft keeps it, and a one-off event only then. None of
the edited occurrences is lost. -/
theorem resaved_unchanged (stored : tables.liveEvent eventId = some event) :
    ∃ saved, (resaved zoneInfo timezone tables eventId caller).liveEvent eventId = some saved ∧
      (resaved zoneInfo timezone tables eventId caller).overrides = tables.overrides ∧
      ((Accepted zoneInfo timezone tables event caller → Faithful zoneInfo timezone event) →
        ∀ overrides start finish, saved.Occurs zoneInfo overrides start finish ↔
          event.Occurs zoneInfo overrides start finish) ∧
      (event.recurrence = none →
        (event.allDay = true →
          Dawns (zoneInfo timezone) (localDate (zoneInfo timezone) event.startsAt)) →
        (∀ start finish, saved.Occurs zoneInfo [] start finish ↔
          event.Occurs zoneInfo [] start finish) →
        Accepted zoneInfo timezone tables event caller → Faithful zoneInfo timezone event) := by
  by_cases accepted : Accepted zoneInfo timezone tables event caller
  · obtain ⟨revised, body, recurrence, sent, written, found, overrides⟩ :=
      saved_of_accepted stored accepted
    refine ⟨revised, found, overrides, ?_, ?_⟩
    · intro kept
      have faithful := kept accepted
      obtain ⟨first, last⟩ := Prod.mk.inj (settledTimes_of_timesKept faithful.times sent.dated
        written.settled)
      apply CalendarEvent.occurs_congr (yields_iff faithful sent written)
      unfold CalendarEvent.duration
      rw [first, last]
    · intro oneOff dawns unchanged _
      have times := times_of_occurs oneOff sent written unchanged
      refine ⟨?_, ?_⟩
      · have settled := written.settled
        rw [times] at settled
        exact timesKept_of_settled dawns sent.dated settled
      · intro rule repeats
        rw [oneOff] at repeats
        cases repeats
  · rw [resaved_of_not_accepted stored accepted]
    exact ⟨event, stored, rfl, fun _ _ _ _ => Iff.rfl, fun _ _ _ again => absurd again accepted⟩

end Tables

/-! ## Two events -/

def thrice : RecurrenceRule :=
  ⟨.monthly, 1, none, none, some 3, RecurrenceRule.one_bounds, by simp,
    RecurrenceRule.weekdays_of_monthly⟩

/-- A review on the fifteenth of three months. -/
def review : CalendarEvent :=
  { standup with
    title := "Review", startsAt := hourOf 739631 9, endsAt := hourOf 739631 10
    recurrence := some thrice }

/-- A clock that is an hour ahead of the event's. -/
def hourAhead (timezone : TimezoneName) : Zone :=
  if timezone = "UTC" then utc timezone else ⟨fun _ => 3600000000, fun _ => 3600000000⟩

/-- The same until the end of the fifteenth of March. -/
def reviewSaved : CalendarEvent :=
  { review with
    timezone := "Lagos"
    recurrence := some ⟨.monthly, 1, none, some (739690 * day + lastSecond - 3600000000), none,
      RecurrenceRule.one_bounds, RecurrenceRule.uncounted_bounds,
      RecurrenceRule.weekdays_of_monthly⟩ }

def reviewSeries (zone : Zone) (hour : Int) : Series :=
  ⟨hourOf 739631 9, 3600000000, zone, 739631, hour * 3600000000, thrice⟩

/-- The review as the browser reads it. -/
def reviewHere : Series := reviewSeries (hourAhead "Lagos") 10

theorem review_candidates : reviewHere.candidate 0 = .on 739631 ∧
    reviewHere.candidate 1 = .on 739662 ∧ reviewHere.candidate 2 = .on 739690 ∧
      reviewHere.candidate 3 = .on 739721 := by
  decide

theorem review_counted {index : Nat} {ordinal : Int} (inside : index < 3)
    (on : reviewHere.candidate index = .on ordinal) :
    index = 0 ∧ ordinal = 739631 ∨ index = 1 ∧ ordinal = 739662 ∨
      index = 2 ∧ ordinal = 739690 := by
  obtain ⟨first, second, third, _⟩ := review_candidates
  obtain rfl | rfl | rfl : index = 0 ∨ index = 1 ∨ index = 2 := by omega
  · exact .inl ⟨rfl, Candidate.on.inj (on.symm.trans first)⟩
  · exact .inr (.inl ⟨rfl, Candidate.on.inj (on.symm.trans second)⟩)
  · exact .inr (.inr ⟨rfl, Candidate.on.inj (on.symm.trans third)⟩)

theorem review_ends : EndsOnItsDate (hourAhead "Lagos") reviewHere 3 := by
  obtain ⟨first, second, third, fourth⟩ := review_candidates
  have lasts : ∀ {last}, reviewHere.candidate (3 - 1) = .on last → last = 739690 :=
    fun on => Candidate.on.inj (on.symm.trans third)
  constructor
  case single => exact fun weekly => absurd weekly (by decide)
  case present =>
    intro index inside
    obtain rfl | rfl | rfl : index = 0 ∨ index = 1 ∨ index = 2 := by omega
    · exact ⟨_, first⟩
    · exact ⟨_, second⟩
    · exact ⟨_, third⟩
  case stays =>
    intro index inside ordinal on
    obtain ⟨rfl, rfl⟩ | ⟨rfl, rfl⟩ | ⟨rfl, rfl⟩ := review_counted inside on <;> decide
  case begins =>
    intro index inside ordinal on
    obtain ⟨rfl, rfl⟩ | ⟨rfl, rfl⟩ | ⟨rfl, rfl⟩ := review_counted inside on <;> decide
  case closes =>
    intro last on index inside ordinal on'
    rw [lasts on]
    obtain ⟨rfl, rfl⟩ | ⟨rfl, rfl⟩ | ⟨rfl, rfl⟩ := review_counted inside on' <;> decide
  case precedes =>
    intro last on index ordinal later skipped on'
    rw [lasts on]
    obtain rfl | further := later.eq_or_lt
    · rw [Candidate.on.inj (on'.symm.trans fourth)]
      decide
    · have absent := skipped 3 further le_rfl
      rw [fourth] at absent
      cases absent

theorem review_faithful : Faithful hourAhead "Lagos" review := by
  refine ⟨⟨rfl, rfl⟩, ?_⟩
  intro rule repeats
  cases repeats
  refine ⟨reviewHere, reviewSeries (hourAhead "UTC") 9, rfl, rfl,
    ⟨rfl, fun index _ => ?_, fun _ _ _ _ => rfl⟩, by decide, review_ends⟩
  cases on : (reviewSeries (hourAhead "UTC") 9).candidate index with
  | on ordinal => exact on.trans (congrArg Candidate.on (add_zero ordinal).symm)
  | exhausted | skipped => exact on

theorem review_unchanged :
    resaved hourAhead "Lagos" ⟨[review], []⟩ 1 1 = ⟨[reviewSaved], []⟩ ∧
      ∃ saved, (resaved hourAhead "Lagos" ⟨[review], []⟩ 1 1).liveEvent 1 = some saved ∧
        ∀ overrides start finish, saved.Occurs hourAhead overrides start finish ↔
          review.Occurs hourAhead overrides start finish := by
  obtain ⟨saved, live, _, unchanged, _⟩ :=
    @resaved_unchanged hourAhead "Lagos" review ⟨[review], []⟩ 1 1 rfl
  exact ⟨rfl, saved, live, unchanged fun _ => review_faithful⟩

def once : RecurrenceRule :=
  ⟨.daily, 1, none, none, some 1, RecurrenceRule.one_bounds, by simp,
    RecurrenceRule.weekdays_of_daily⟩

/-- The only occurrence of a daily event. -/
def daily : CalendarEvent := { standup with recurrence := some once }

def dailySeries : Series :=
  ⟨hourOf 739621 9, 3600000000, utc "UTC", 739621, 9 * 3600000000, once⟩

def dailySaved : CalendarEvent :=
  { standup with
    recurrence := some ⟨.daily, 1, none, none, none, RecurrenceRule.one_bounds,
      RecurrenceRule.uncounted_bounds, RecurrenceRule.weekdays_of_daily⟩ }

def dailyBody : CalendarEventCreate :=
  { standupBody with recurrence := some once }

/-- **An event that is to occur once is saved without an end.** -/
theorem saved_without_end :
    (system utc roomy).step ⟨[], []⟩ (.createEvent 1 1 dailyBody) = some ⟨[daily], []⟩ ∧
      resaved utc "UTC" ⟨[daily], []⟩ 1 1 = ⟨[dailySaved], []⟩ ∧
      ¬ ∀ overrides start finish, dailySaved.Occurs utc overrides start finish ↔
        daily.Occurs utc overrides start finish := by
  refine ⟨rfl, rfl, ?_⟩
  intro unchanged
  have next : dailySaved.Occurs utc [] (hourOf 739622 9) (hourOf 739622 10) :=
    ⟨hourOf 739622 9, .inl ⟨hourOf 739623 0, 2, [hourOf 739621 9, hourOf 739622 9], rfl,
      by decide⟩, _, rfl, rfl, rfl⟩
  obtain ⟨original, yielded, occurrence, built, starts, _⟩ := (unchanged _ _ _).mp next
  obtain ⟨_, _, _, same, _⟩ := buildOccurrence_some built
  have named : original = hourOf 739622 9 := same.symm.trans starts
  rcases yielded with ⟨windowEnd, wanted, found, iterated, member⟩ | edited
  · obtain ⟨series, read, slots⟩ := iterRecurrenceStarts_isSlot iterated
    cases read
    obtain ⟨⟨index, slot, unreached⟩, _⟩ := slots original member
    rw [named] at slot
    cases index with
    | zero =>
        have first : hourOf 739621 9 = hourOf 739622 9 := Option.some.inj slot
        exact absurd first (by decide)
    | succ index =>
        have counted := @Series.slotsBefore_mono dailySeries 1 (index + 1) (Nat.le_add_left 1 index)
        exact unreached ⟨1, rfl, counted⟩
  · cases edited

end FrontDashboard.EventEditor
