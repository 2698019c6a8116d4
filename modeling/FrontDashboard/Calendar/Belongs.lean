import FrontDashboard.Calendar.Prefilter
import FrontDashboard.Calendar.Routes

/-! # Every occurrence belongs to its series

What the calendar lists starts, originally, at a slot of its event as it is now. This
holds in every run in which an edit of a series leaves the overrides it has, other than
cancellations, at slots of it, and an override that is no cancellation is written at a
slot.
-/

namespace FrontDashboard.Calendar

open Outcomes

variable (zoneInfo : TimezoneName → Zone) (settings : Settings)

/-- **The property**, of every listing. -/
def Belongs (tables : Tables) : Prop :=
  ∀ (lower : String → String) accessibleDashboardIds dashboardId windowStart windowEnd shown,
    listOccurrences zoneInfo lower tables accessibleDashboardIds dashboardId windowStart windowEnd =
      .ok shown →
    ∀ occurrence ∈ shown, ∃ event ∈ tables.events, event.id = occurrence.eventId ∧
      event.HasSlot zoneInfo occurrence.originalStart

/-! ## The requests admitted -/

/-- The overrides of an event that are no cancellations start at slots of it. -/
def EditsAtSlots (overrides : List CalendarEventOverride) (event : CalendarEvent) : Prop :=
  ∀ override ∈ overrides, override.cancelled = false →
    event.HasSlot zoneInfo override.occurrenceStart

def Admits (tables : Tables) : Request → Prop
  | .updateEvent eventId caller body => ∀ event ∈ tables.liveEvent eventId, ∀ revised,
      revisedEvent zoneInfo event caller body = .ok revised → revised.recurrence.isSome = true →
        EditsAtSlots zoneInfo (tables.overridesOf eventId) revised
  | .updateOccurrence eventId _ body => body.cancelled = false →
      ∀ event ∈ tables.liveEvent eventId, event.HasSlot zoneInfo body.occurrenceStart
  | _ => True

/-! ## The invariant -/

structure Sound (tables : Tables) : Prop where
  unique : (tables.events.map (·.id)).Nodup
  referenced : ∀ override ∈ tables.overrides, ∃ event ∈ tables.events,
    event.id = override.calendarEventId
  single : ∀ event ∈ tables.events, event.recurrence = none → tables.overridesOf event.id = []
  edits : ∀ event ∈ tables.events, EditsAtSlots zoneInfo (tables.overridesOf event.id) event

variable {zoneInfo} {settings} {tables : Tables}

/-- The overrides of an event are those with its id. -/
theorem mem_overridesOf {eventId : EventId} {override : CalendarEventOverride} :
    override ∈ tables.overridesOf eventId ↔
      override ∈ tables.overrides ∧ override.calendarEventId = eventId := by
  rw [Tables.overridesOf, List.mem_filter, beq_iff_eq]

/-- What an event expands to starts at its slots. -/
theorem hasSlot_of_expanded {event : CalendarEvent} {overrides : List CalendarEventOverride}
    {windowStart windowEnd : Int} {expanded : List ExpandedOccurrence}
    (atSlots : EditsAtSlots zoneInfo overrides event)
    (ok : expandEventOccurrences zoneInfo event overrides windowStart windowEnd = .ok expanded) :
    ∀ occurrence ∈ expanded, event.HasSlot zoneInfo occurrence.originalStart := by
  obtain ⟨starts, generated, expands⟩ := bind_eq_ok.mp ok
  obtain ⟨_, shown⟩ := buildAll_eq_ok.mp (expandStarts_eq_ok.mp expands).2
  rw [shown]
  intro occurrence member
  obtain ⟨start, present, found⟩ := List.mem_filterMap.mp member
  obtain ⟨_, original, kept, _⟩ := buildOccurrence_some (shownAt_some found).1
  rw [original]
  rcases List.mem_append.mp present with walked | edited
  · unfold CalendarEvent.HasSlot
    cases recurs : event.recurrence with
    | none =>
        rw [generatedStarts_oneOff zoneInfo recurs generated] at walked
        exact List.mem_singleton.mp walked
    | some rule =>
        obtain ⟨series, based, slots⟩ := generatedStarts_slots zoneInfo recurs generated
        exact ⟨series, based, (slots start walked).1⟩
  · obtain ⟨⟨override, listed, starts⟩, _⟩ := mem_editedStarts.mp edited
    cases named : overrideAt overrides start with
    | none =>
        have absent := List.find?_eq_none.mp named override listed
        exact absurd (beq_iff_eq.mpr starts) absent
    | some first =>
        obtain ⟨firstListed, firstStarts⟩ := overrideAt_eq_some named
        rw [named] at kept
        rw [← firstStarts]
        exact atSlots first firstListed kept

/-- In sound tables every override is at a slot. -/
theorem Sound.belongs (sound : Sound zoneInfo tables) : Belongs zoneInfo tables := by
  intro lower accessibleDashboardIds dashboardId windowStart windowEnd shown listed
    occurrence member
  rcases listOccurrences_eq_ok zoneInfo listed with ⟨_, nothing⟩ | ⟨dashboardIds, _, _, _, window⟩
  · rw [nothing] at member
    cases member
  · obtain ⟨event, selected, shows⟩ :=
      List.mem_flatMap.mp ((listWindow_perm zoneInfo window).mem_iff.mp member)
    have stored := (mem_selected.mp selected).1
    refine ⟨event, stored, (eventId_of_listedOf zoneInfo occurrence shows).symm, ?_⟩
    unfold listedOf at shows
    cases expanded : expandEventOccurrences zoneInfo event
        (tables.editsInWindow event windowStart windowEnd) windowStart windowEnd with
    | error error =>
        rw [expanded] at shows
        cases shows
    | ok occurrences =>
        rw [expanded] at shows
        refine hasSlot_of_expanded ?_ expanded occurrence shows
        intro override edited
        exact sound.edits event stored override (List.mem_of_mem_filter edited)

/-! ## The writes -/

/-- The event that is found is there. -/
theorem liveEvent_eq_some {eventId : EventId} {event : CalendarEvent}
    (found : tables.liveEvent eventId = some event) : event ∈ tables.events ∧
    event.id = eventId := by
  unfold Tables.liveEvent at found
  have named := List.find?_some found
  exact ⟨List.mem_of_find?_eq_some found, eq_of_beq (Bool.and_eq_true_iff.mp named).1⟩

/-- The event that is found in the trash is there. -/
theorem trashedEvent_eq_some {eventId : EventId} {event : CalendarEvent}
    (found : tables.trashedEvent eventId = some event) :
    event ∈ tables.events ∧ event.id = eventId := by
  unfold Tables.trashedEvent at found
  have named := List.find?_some found
  exact ⟨List.mem_of_find?_eq_some found, eq_of_beq (Bool.and_eq_true_iff.mp named).1⟩

/-- The row that is written is the one that was made. -/
theorem flushed_eq_ok {event written : CalendarEvent} (ok : flushed event = .ok written) :
    written = event := by
  unfold flushed at ok
  split at ok
  next => cases ok
  next =>
    split at ok
    next =>
      cases ok
      rfl
    next => cases ok

/-- What the times of an all-day event are settled to are the bounds of its days. -/
theorem settledTimes_allDay {startsAt endsAt : Int} {timezone : TimezoneName}
    {times : Int × Int} (ok : settledTimes zoneInfo true startsAt endsAt timezone = .ok times) :
    normalizeAllDayBounds zoneInfo startsAt endsAt timezone = .ok times := by
  unfold settledTimes at ok
  rw [if_pos rfl] at ok
  cases snapped : normalizeAllDayBounds zoneInfo startsAt endsAt timezone with
  | error error =>
      rw [snapped] at ok
      cases ok
  | ok bounds =>
      rw [snapped] at ok
      cases ok
      rfl

/-- The times of an event by the clock are left as they are. -/
theorem settledTimes_timed {startsAt endsAt : Int} {timezone : TimezoneName}
    {times : Int × Int} (ok : settledTimes zoneInfo false startsAt endsAt timezone = .ok times) :
    times = (startsAt, endsAt) :=
  (Except.ok.inj ok).symm

/-- What an accepted creation has gone through. -/
theorem createdEvent_eq_ok {id : EventId} {caller : UserId} {body : CalendarEventCreate}
    {event : CalendarEvent} (ok : createdEvent zoneInfo id caller body = .ok event) :
    ∃ startsAt endsAt times, (∀ rule ∈ body.recurrence, endsAfterStart rule body.startsAt) ∧
      asUtc body.startsAt = .ok startsAt ∧ asUtc body.endsAt = .ok endsAt ∧
      settledTimes zoneInfo body.allDay startsAt endsAt body.timezone = .ok times ∧
      flushed
        { id := id, dashboardId := body.dashboardId, createdBy := caller, updatedBy := caller
          title := body.title, description := body.description, location := body.location
          startsAt := times.1, endsAt := times.2, timezone := body.timezone
          allDay := body.allDay, recurrence := body.recurrence, deletedAt := none } =
        .ok event := by
  unfold createdEvent at ok
  split at ok
  next => cases ok
  split at ok
  next => cases ok
  next keeps =>
    obtain ⟨startsAt, starts, ok⟩ := bind_eq_ok.mp ok
    obtain ⟨endsAt, ends, ok⟩ := bind_eq_ok.mp ok
    obtain ⟨times, settled, written⟩ := bind_eq_ok.mp ok
    refine ⟨startsAt, endsAt, times, ?_, starts, ends, settled, written⟩
    intro rule given
    by_contra late
    exact keeps ⟨rule, given, late⟩

/-- A new event has the id that is drawn. -/
theorem createdEvent_id {id : EventId} {caller : UserId} {body : CalendarEventCreate}
    {event : CalendarEvent} (created : createdEvent zoneInfo id caller body = .ok event) :
    event.id = id := by
  obtain ⟨_, _, _, _, _, _, _, written⟩ := createdEvent_eq_ok created
  rw [flushed_eq_ok written]

/-- What an accepted patch has gone through. -/
theorem revisedEvent_eq_ok {event revised : CalendarEvent} {caller : UserId}
    {body : CalendarEventUpdate} (ok : revisedEvent zoneInfo event caller body = .ok revised) :
    ∃ startsAt endsAt times recurrence,
      body.startsAt.elim (.ok event.startsAt) asUtc = .ok startsAt ∧
      body.endsAt.elim (.ok event.endsAt) asUtc = .ok endsAt ∧
      settledTimes zoneInfo (body.allDay.getD event.allDay) startsAt endsAt
        (body.timezone.getD event.timezone) = .ok times ∧
      settledRecurrence event body times.1 = .ok recurrence ∧
      flushed
        { event with
          updatedBy := caller, title := body.title.getD event.title
          description := body.description.getD event.description
          location := body.location.getD event.location
          startsAt := times.1, endsAt := times.2
          timezone := body.timezone.getD event.timezone
          allDay := body.allDay.getD event.allDay, recurrence := recurrence } = .ok revised := by
  obtain ⟨startsAt, starts, ok⟩ := bind_eq_ok.mp ok
  obtain ⟨endsAt, ends, ok⟩ := bind_eq_ok.mp ok
  split at ok
  next => cases ok
  next =>
    obtain ⟨times, settled, ok⟩ := bind_eq_ok.mp ok
    obtain ⟨recurrence, ruled, written⟩ := bind_eq_ok.mp ok
    exact ⟨startsAt, endsAt, times, recurrence, starts, ends, settled, ruled, written⟩

/-- A changed event keeps its id. -/
theorem revisedEvent_id {event revised : CalendarEvent} {caller : UserId}
    {body : CalendarEventUpdate} (ok : revisedEvent zoneInfo event caller body = .ok revised) :
    revised.id = event.id := by
  obtain ⟨_, _, _, _, _, _, _, _, written⟩ := revisedEvent_eq_ok ok
  rw [flushed_eq_ok written]

/-- What an accepted creation has done. -/
theorem createEvent_eq_ok {id : EventId} {caller : UserId} {body : CalendarEventCreate}
    {after : Tables} (ok : tables.createEvent zoneInfo id caller body = .ok after) :
    ∃ event, createdEvent zoneInfo id caller body = .ok event ∧
      event.id ∉ tables.events.map (·.id) ∧
      after = { tables with events := tables.events ++ [event] } := by
  obtain ⟨event, built, stored⟩ := bind_eq_ok.mp ok
  split at stored
  next => cases stored
  next fresh =>
    cases stored
    exact ⟨event, built, createdEvent_id built ▸ fresh, rfl⟩

/-- What an accepted update of an event has done. -/
theorem updateEvent_eq_ok {eventId : EventId} {caller : UserId} {body : CalendarEventUpdate}
    {after : Tables} (ok : tables.updateEvent zoneInfo eventId caller body = .ok after) :
    ∃ event revised, tables.liveEvent eventId = some event ∧
      revisedEvent zoneInfo event caller body = .ok revised ∧
      after = if event.recurrence.isSome ∧ revised.recurrence.isNone then
        (tables.setEvent revised).dropOverrides eventId else tables.setEvent revised := by
  unfold Tables.updateEvent at ok
  split at ok
  next => cases ok
  next event live =>
    obtain ⟨revised, built, written⟩ := bind_eq_ok.mp ok
    refine ⟨event, revised, live, built, ?_⟩
    split at written <;> cases written
    next ended => exact (if_pos ended).symm
    next stays => exact (if_neg stays).symm

/-- What an accepted edit of an occurrence has done. -/
theorem updateOccurrence_eq_ok {eventId : EventId} {caller : UserId}
    {body : CalendarOccurrenceUpdate} {after : Tables}
    (ok : tables.updateOccurrence settings eventId caller body = .ok after) :
    ∃ event, tables.liveEvent eventId = some event ∧ event.recurrence ≠ none ∧
      Tables.checkOverride body = .ok () ∧
      after = { tables with
        overrides := tables.otherOverrides event.id body.occurrenceStart ++
          [tables.overridden event caller body] } := by
  obtain ⟨_, checked, found⟩ := bind_eq_ok.mp ok
  split at found
  next => cases found
  next event live =>
    split at found
    next => cases found
    next recurring =>
      obtain ⟨_, _, allowed⟩ := bind_eq_ok.mp found
      split at allowed
      next => cases allowed
      next =>
        obtain ⟨_, _, first⟩ := bind_eq_ok.mp allowed
        obtain ⟨_, _, second⟩ := bind_eq_ok.mp first
        obtain ⟨_, _, written⟩ := bind_eq_ok.mp second
        cases written
        refine ⟨event, live, ?_, checked, rfl⟩
        intro oneOff
        rw [oneOff] at recurring
        exact recurring rfl

/-- A deletion marks the event that is found. -/
theorem deleteEvent_eq_ok {eventId : EventId} {caller : UserId} {now : Int} {after : Tables}
    (ok : tables.deleteEvent eventId caller now = .ok after) :
    ∃ event, tables.liveEvent eventId = some event ∧
      after = tables.setEvent { event with deletedAt := some now, updatedBy := caller } := by
  unfold Tables.deleteEvent at ok
  split at ok
  next => cases ok
  next event live =>
    cases ok
    exact ⟨event, live, rfl⟩

/-- A restore takes the mark away. -/
theorem restoreEvent_eq_ok {eventId : EventId} {caller : UserId} {after : Tables}
    (ok : tables.restoreEvent eventId caller = .ok after) :
    ∃ event, tables.trashedEvent eventId = some event ∧
      after = tables.setEvent { event with deletedAt := none, updatedBy := caller } := by
  unfold Tables.restoreEvent at ok
  split at ok
  next => cases ok
  next event trashed =>
    cases ok
    exact ⟨event, trashed, rfl⟩

/-- A purge removes the event with its overrides. -/
theorem purgeTrashedEvent_eq_ok {eventId : EventId} {after : Tables}
    (ok : tables.purgeTrashedEvent eventId = .ok after) :
    after = { tables with
      events := tables.events.filter fun event => event.id != eventId }.dropOverrides eventId := by
  unfold Tables.purgeTrashedEvent at ok
  split at ok
  next => cases ok
  next =>
    cases ok
    rfl

/-- The events are the changed one and others that were there. -/
theorem mem_setEvent {changed event : CalendarEvent}
    (member : event ∈ (tables.setEvent changed).events) :
    event = changed ∨ event ∈ tables.events := by
  obtain ⟨before, stored, same⟩ := List.mem_map.mp member
  split at same
  next => exact .inl same.symm
  next => exact .inr (same ▸ stored)

/-- No overrides are all at slots. -/
theorem editsAtSlots_of_nil {overrides : List CalendarEventOverride} {event : CalendarEvent}
    (none : overrides = []) : EditsAtSlots zoneInfo overrides event := by
  rw [none]
  exact fun override member => nomatch member

namespace Sound

variable (sound : Sound zoneInfo tables)

include sound

/-- Fewer overrides are sound. -/
theorem fewer {kept : List CalendarEventOverride}
    (sub : ∀ override ∈ kept, override ∈ tables.overrides) :
    Sound zoneInfo { tables with overrides := kept } := by
  have still : ∀ eventId, ∀ override ∈ Tables.overridesOf ⟨tables.events, kept⟩ eventId,
      override ∈ tables.overridesOf eventId := by
    intro eventId override member
    obtain ⟨present, named⟩ := mem_overridesOf.mp member
    exact mem_overridesOf.mpr ⟨sub override present, named⟩
  refine ⟨sound.unique, fun override present => sound.referenced override (sub override present),
    ?_, ?_⟩
  · intro event stored oneOff
    apply List.eq_nil_iff_forall_not_mem.mpr
    intro override member
    have before := still event.id override member
    rw [sound.single event stored oneOff] at before
    cases before
  · intro event stored override member
    exact sound.edits event stored override (still event.id override member)

/-- The row of an event is written. -/
theorem setEvent {changed : CalendarEvent}
    (single : changed.recurrence = none → tables.overridesOf changed.id = [])
    (edits : EditsAtSlots zoneInfo (tables.overridesOf changed.id) changed) :
    Sound zoneInfo (tables.setEvent changed) := by
  refine ⟨?_, ?_, ?_, ?_⟩
  · have ids : (tables.setEvent changed).events.map (·.id) = tables.events.map (·.id) := by
      unfold Tables.setEvent
      rw [List.map_map]
      apply List.map_congr_left
      intro event _
      change (if event.id = changed.id then changed else event).id = event.id
      split
      next same => exact same.symm
      next => rfl
    rw [ids]
    exact sound.unique
  · intro override present
    obtain ⟨event, stored, named⟩ := sound.referenced override present
    refine ⟨_, List.mem_map.mpr ⟨event, stored, rfl⟩, ?_⟩
    split
    next same => rw [← named, same]
    next => exact named
  · intro event member oneOff
    rcases mem_setEvent member with same | stored
    · rw [same] at oneOff ⊢
      exact single oneOff
    · exact sound.single event stored oneOff
  · intro event member
    rcases mem_setEvent member with same | stored
    · rw [same]
      exact edits
    · exact sound.edits event stored

/-- An override of a series is written. -/
theorem addOverride {event : CalendarEvent} {override : CalendarEventOverride}
    {others : List CalendarEventOverride} (stored : event ∈ tables.events)
    (named : override.calendarEventId = event.id) (recurs : event.recurrence ≠ none)
    (slot : override.cancelled = false → event.HasSlot zoneInfo override.occurrenceStart)
    (sub : ∀ other ∈ others, other ∈ tables.overrides) :
    Sound zoneInfo { tables with overrides := others ++ [override] } := by
  have kept := sound.fewer sub
  have written : ∀ eventId,
    ∀ other ∈ Tables.overridesOf ⟨tables.events, others ++ [override]⟩ eventId,
      (other = override ∧ eventId = event.id) ∨
        other ∈ Tables.overridesOf ⟨tables.events, others⟩ eventId := by
    intro eventId other member
    obtain ⟨present, ofEvent⟩ := mem_overridesOf.mp member
    rcases List.mem_append.mp present with before | new
    · exact .inr (mem_overridesOf.mpr ⟨before, ofEvent⟩)
    · have same := List.mem_singleton.mp new
      rw [same] at ofEvent
      exact .inl ⟨same, ofEvent.symm.trans named⟩
  refine ⟨sound.unique, ?_, ?_, ?_⟩
  · intro other present
    rcases List.mem_append.mp present with before | new
    · exact kept.referenced other before
    · rw [List.mem_singleton.mp new]
      exact ⟨event, stored, named.symm⟩
  · intro other listed oneOff
    apply List.eq_nil_iff_forall_not_mem.mpr
    intro edit member
    rcases written other.id edit member with ⟨_, same⟩ | before
    · rw [List.inj_on_of_nodup_map sound.unique listed stored same] at oneOff
      exact recurs oneOff
    · rw [kept.single other listed oneOff] at before
      cases before
  · intro other listed edit member uncancelled
    rcases written other.id edit member with ⟨new, same⟩ | before
    · rw [List.inj_on_of_nodup_map sound.unique listed stored same]
      rw [new] at uncancelled ⊢
      exact slot uncancelled
    · exact kept.edits other listed edit before uncancelled

/-- Each request that is admitted keeps the tables sound. -/
theorem createEvent {id : EventId} {caller : UserId} {body : CalendarEventCreate}
    {after : Tables} (created : tables.createEvent zoneInfo id caller body = .ok after) :
    Sound zoneInfo after := by
  obtain ⟨event, built, fresh, rfl⟩ := createEvent_eq_ok created
  have unedited : tables.overridesOf event.id = [] := by
    apply List.eq_nil_iff_forall_not_mem.mpr
    intro override member
    obtain ⟨present, same⟩ := mem_overridesOf.mp member
    obtain ⟨other, listed, ofOther⟩ := sound.referenced override present
    apply fresh
    rw [← same, ← ofOther]
    exact List.mem_map.mpr ⟨other, listed, rfl⟩
  refine ⟨?_, ?_, ?_, ?_⟩
  · rw [List.map_append]
    apply List.nodup_append_comm.mp
    exact List.nodup_cons.mpr ⟨fresh, sound.unique⟩
  · intro override present
    obtain ⟨other, listed, ofOther⟩ := sound.referenced override present
    exact ⟨other, List.mem_append_left _ listed, ofOther⟩
  · intro other member oneOff
    rcases List.mem_append.mp member with listed | new
    · exact sound.single other listed oneOff
    · rw [List.mem_singleton.mp new]
      exact unedited
  · intro other member
    rcases List.mem_append.mp member with listed | new
    · exact sound.edits other listed
    · rw [List.mem_singleton.mp new]
      change EditsAtSlots zoneInfo (tables.overridesOf event.id) event
      rw [unedited]
      exact fun override none => nomatch none

theorem updateEvent {eventId : EventId} {caller : UserId} {body : CalendarEventUpdate}
    {after : Tables} (admitted : Admits zoneInfo tables (.updateEvent eventId caller body))
    (updated : tables.updateEvent zoneInfo eventId caller body = .ok after) :
    Sound zoneInfo after := by
  obtain ⟨event, revised, live, ok, written⟩ := updateEvent_eq_ok updated
  obtain ⟨stored, named⟩ := liveEvent_eq_some live
  have same : revised.id = eventId := (revisedEvent_id ok).trans named
  split at written
  next ended =>
    rw [written]
    have dropped : ∀ override ∈ (tables.dropOverrides eventId).overrides,
        override ∈ tables.overrides := fun override => List.mem_of_mem_filter
    have none : (tables.dropOverrides eventId).overridesOf revised.id = [] := by
      apply List.eq_nil_iff_forall_not_mem.mpr
      intro override member
      obtain ⟨kept, ofEvent⟩ := mem_overridesOf.mp member
      have other := (List.mem_filter.mp kept).2
      rw [ofEvent, same, bne_self_eq_false] at other
      cases other
    exact (sound.fewer dropped).setEvent (fun _ => none) (editsAtSlots_of_nil none)
  next stays =>
    rw [written]
    have unedited : revised.recurrence = none → tables.overridesOf revised.id = [] := by
      intro oneOff
      rw [same, ← named]
      apply sound.single event stored
      cases recurs : event.recurrence with
      | none => rfl
      | some rule =>
          rw [recurs, oneOff] at stays
          exact absurd ⟨rfl, rfl⟩ stays
    apply sound.setEvent unedited
    cases recurs : revised.recurrence with
    | none => exact editsAtSlots_of_nil (unedited recurs)
    | some rule =>
        rw [same]
        exact admitted event live revised ok (by rw [recurs]; rfl)

theorem updateOccurrence {eventId : EventId} {caller : UserId} {body : CalendarOccurrenceUpdate}
    {after : Tables} (admitted : Admits zoneInfo tables (.updateOccurrence eventId caller body))
    (updated : tables.updateOccurrence settings eventId caller body = .ok after) :
    Sound zoneInfo after := by
  obtain ⟨event, live, recurs, _, written⟩ := updateOccurrence_eq_ok updated
  rw [written]
  apply Sound.addOverride sound (liveEvent_eq_some live).1 rfl recurs
  · intro kept
    exact admitted kept event live
  · exact fun override => List.mem_of_mem_filter

theorem deleteEvent {eventId : EventId} {caller : UserId} {now : Int} {after : Tables}
    (deleted : tables.deleteEvent eventId caller now = .ok after) : Sound zoneInfo after := by
  obtain ⟨event, live, written⟩ := deleteEvent_eq_ok deleted
  have stored := (liveEvent_eq_some live).1
  rw [written]
  exact sound.setEvent (sound.single event stored) (sound.edits event stored)

theorem restoreEvent {eventId : EventId} {caller : UserId} {after : Tables}
    (restored : tables.restoreEvent eventId caller = .ok after) : Sound zoneInfo after := by
  obtain ⟨event, trashed, written⟩ := restoreEvent_eq_ok restored
  have stored := (trashedEvent_eq_some trashed).1
  rw [written]
  exact sound.setEvent (sound.single event stored) (sound.edits event stored)

theorem purgeTrashedEvent {eventId : EventId} {after : Tables}
    (purged : tables.purgeTrashedEvent eventId = .ok after) : Sound zoneInfo after := by
  rw [purgeTrashedEvent_eq_ok purged]
  have kept :=
    sound.fewer (fun override => @List.mem_of_mem_filter _ (fun override : CalendarEventOverride =>
    override.calendarEventId != eventId) override tables.overrides)
  refine ⟨?_, ?_, ?_, ?_⟩
  · exact sound.unique.sublist (List.filter_sublist.map _)
  · intro override present
    obtain ⟨event, stored, named⟩ := kept.referenced override present
    refine ⟨event, List.mem_filter.mpr ⟨stored, bne_iff_ne.mpr ?_⟩, named⟩
    intro same
    have other := (List.mem_filter.mp present).2
    rw [← named, same, bne_self_eq_false] at other
    cases other
  · exact fun event stored => kept.single event (List.mem_of_mem_filter stored)
  · exact fun event stored => kept.edits event (List.mem_of_mem_filter stored)

/-- **Every admitted request keeps the invariant.** -/
theorem next {request : Request} {after : Tables} (admitted : Admits zoneInfo tables request)
    (moved : (system zoneInfo settings).step tables request = some after) :
    Sound zoneInfo after := by
  have handled := toOption_eq_some.mp moved
  cases request with
  | createEvent id caller body => exact sound.createEvent handled
  | updateEvent eventId caller body => exact sound.updateEvent admitted handled
  | updateOccurrence eventId caller body => exact sound.updateOccurrence admitted handled
  | deleteEvent eventId caller now => exact sound.deleteEvent handled
  | restoreEvent eventId caller => exact sound.restoreEvent handled
  | purgeTrashedEvent eventId => exact sound.purgeTrashedEvent handled

end Sound

/-- No tables are sound. -/
theorem sound_initial : Sound zoneInfo ⟨[], []⟩ :=
  ⟨List.nodup_nil, fun _ member => (nomatch member), fun _ member => (nomatch member),
    fun _ member => (nomatch member)⟩

/-- **Every occurrence listed belongs to its series**, in any state reached by admitted
requests. -/
theorem belongs_of_admitted {tables : Tables}
    (reached : (system zoneInfo settings).ReachedWithin (Admits zoneInfo) tables) :
    Belongs zoneInfo tables := by
  have sound : Sound zoneInfo tables := by
    apply reached.invariant
    · intro start begins
      rw [begins]
      exact sound_initial
    · exact fun _ _ _ before admitted moved => before.next admitted moved
  exact sound.belongs

/-! ## Runs -/

/-- The body that creates `standup`. -/
def standupBody : CalendarEventCreate :=
  { dashboardId := 1, title := "Standup", description := none, location := none
    startsAt := hourOf 739621 9, endsAt := hourOf 739621 10, timezone := "UTC", allDay := false
    recurrence := some mondays }

/-- The body that moves an occurrence of it to an afternoon. -/
def afternoon (occurrenceStart date : Int) : CalendarOccurrenceUpdate :=
  { occurrenceStart := occurrenceStart, cancelled := false, title := none, description := none
    location := none, startsAt := some (hourOf date 14), endsAt := some (hourOf date 15)
    timezone := none, allDay := none }

/-- The body that moves the series to begin on another day. -/
def postponed (date : Int) : CalendarEventUpdate :=
  { title := none, description := none, location := none, startsAt := some (hourOf date 9)
    endsAt := some (hourOf date 10), timezone := none, allDay := none, recurrence := none }

/-- Room for a thousand overrides of an event. -/
def roomy : Settings := ⟨1000⟩

/-- The standup is created. -/
theorem created_step : (system utc roomy).step ⟨[], []⟩ (.createEvent 1 1 standupBody) =
    some ⟨[standup], []⟩ := rfl

/-- One occurrence of the standup is moved. -/
theorem moved_step : (system utc roomy).step ⟨[standup], []⟩
    (.updateOccurrence 1 1 (afternoon (hourOf 739628 9) 739677)) = some standupTables := rfl

theorem created_reached : (system utc roomy).ReachedWithin (Admits utc) ⟨[standup], []⟩ :=
  .step (.initial rfl) (show Admits utc _ (.createEvent 1 1 standupBody) from trivial) created_step

theorem standup_hasSlot : standup.HasSlot utc (hourOf 739628 9) :=
  ⟨⟨hourOf 739621 9, 3600000000, utc "UTC", 739621, 32400000000, mondays⟩, rfl, 1, rfl,
    Series.not_reached rfl _⟩

/-- A run that edits an occurrence at a slot of its series. -/
theorem belongs_after_edit : Belongs utc standupTables := by
  apply belongs_of_admitted (created_reached.step ?_ moved_step)
  intro _ event live
  cases live
  exact standup_hasSlot

/-- The same override, once the series was moved to begin a week after its slot. -/
def standupPostponed : Tables :=
  ⟨[{ standup with startsAt := hourOf 739635 9, endsAt := hourOf 739635 10 }],
    standupTables.overrides⟩

/-- The series begins a week later. -/
theorem postponed_step : (system utc roomy).step standupTables
    (.updateEvent 1 1 (postponed 739635)) = some standupPostponed := rfl

/-- An edit of the series leaves an occurrence outside of it. -/
theorem override_outlives_its_slot :
    ¬ ∀ tables, (system utc roomy).Reachable tables → Belongs utc tables := by
  intro belongs
  have reached : (system utc roomy).Reachable standupPostponed := by
    have moved : (system utc roomy).Reachable standupTables :=
      created_reached.reachable.step trivial moved_step
    exact moved.step trivial postponed_step
  have listed : ((listOccurrences utc id standupPostponed [1] none (hourOf 739676 0)
      (hourOf 739683 0)).toOption.map fun shown => shown.map (·.originalStart)) =
        some [hourOf 739677 9, hourOf 739628 9] := by decide
  obtain ⟨shown, listing, starts⟩ := exists_of_toOption_map listed
  have outside : hourOf 739628 9 ∈ shown.map (·.originalStart) := by
    rw [starts]
    decide
  obtain ⟨occurrence, member, original⟩ := List.mem_map.mp outside
  obtain ⟨event, stored, _, slot⟩ := belongs _ reached id [1] none _ _ _ listing occurrence member
  rw [List.mem_singleton.mp stored, original] at slot
  obtain ⟨series, based, slot⟩ := slot
  obtain ⟨afterStart, _⟩ := slot.bounds
  rw [(seriesOf_ok based).1] at afterStart
  exact absurd afterStart (by decide)

end FrontDashboard.Calendar
