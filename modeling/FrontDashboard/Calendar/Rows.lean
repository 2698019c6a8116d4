import FrontDashboard.Calendar.Belongs

/-! # What the writes make of a row

A property that the rows have which `create_event` and `update_event` write, and that trashing
keeps, is a property of every stored event. The times of an override are given together.
-/

namespace FrontDashboard.Calendar

open Outcomes

variable (zoneInfo : TimezoneName → Zone)

/-- A property of the rows that are written. -/
structure KeptByWrites (property : CalendarEvent → Prop) : Prop where
  created : ∀ id caller body event, createdEvent zoneInfo id caller body = .ok event →
    property event
  revised : ∀ event caller body revised, property event →
    revisedEvent zoneInfo event caller body = .ok revised → property revised
  trashed : ∀ event deletedAt caller, property event →
    property { event with deletedAt := deletedAt, updatedBy := caller }

variable {zoneInfo} {settings : Settings} {tables after : Tables}
  {property : CalendarEvent → Prop}

theorem forall_mem_setEvent {changed : CalendarEvent}
    (before : ∀ event ∈ tables.events, property event) (holds : property changed) :
    ∀ event ∈ (tables.setEvent changed).events, property event := by
  intro event member
  rcases mem_setEvent member with same | stored
  · rw [same]
    exact holds
  · exact before event stored

theorem forall_mem_append {α : Type} {row : α} {rows : List α} {holds : α → Prop}
    (before : ∀ other ∈ rows, holds other) (added : holds row) :
    ∀ other ∈ rows ++ [row], holds other := by
  intro other member
  rcases List.mem_append.mp member with stored | new
  · exact before other stored
  · rw [List.mem_singleton.mp new]
    exact added

/-- One request. -/
theorem KeptByWrites.step (kept : KeptByWrites zoneInfo property) {request : Request}
    (before : ∀ event ∈ tables.events, property event)
    (moved : (system zoneInfo settings).step tables request = some after) :
    ∀ event ∈ after.events, property event := by
  have handled := toOption_eq_some.mp moved
  cases request with
  | createEvent id caller body =>
      obtain ⟨event, built, _, written⟩ := createEvent_eq_ok handled
      rw [written]
      exact forall_mem_append before (kept.created id caller body event built)
  | updateEvent eventId caller body =>
      obtain ⟨event, revised, live, ok, written⟩ := updateEvent_eq_ok handled
      have holds := kept.revised event caller body revised
        (before event (liveEvent_eq_some live).1) ok
      rw [written]
      split <;> exact forall_mem_setEvent before holds
  | updateOccurrence eventId caller body =>
      obtain ⟨event, _, _, _, written⟩ := updateOccurrence_eq_ok handled
      rw [written]
      exact before
  | deleteEvent eventId caller now =>
      obtain ⟨event, live, written⟩ := deleteEvent_eq_ok handled
      rw [written]
      exact forall_mem_setEvent before
        (kept.trashed event _ caller (before event (liveEvent_eq_some live).1))
  | restoreEvent eventId caller =>
      obtain ⟨event, trashed, written⟩ := restoreEvent_eq_ok handled
      rw [written]
      exact forall_mem_setEvent before
        (kept.trashed event _ caller (before event (trashedEvent_eq_some trashed).1))
  | purgeTrashedEvent eventId =>
      rw [purgeTrashedEvent_eq_ok handled]
      exact fun event member => before event (List.mem_of_mem_filter member)

/-- **Every stored event** has a property that the writes keep. -/
theorem KeptByWrites.of_reachable (kept : KeptByWrites zoneInfo property)
    (reached : (system zoneInfo settings).Reachable tables) :
    ∀ event ∈ tables.events, property event := by
  apply reached.invariant
  · intro start begins event member
    rw [begins] at member
    cases member
  · exact fun _ _ _ before _ moved => kept.step before moved

/-! ## Overrides -/

/-- Both times are given or neither. -/
def Paired (override : CalendarEventOverride) : Prop :=
  override.startsAt.isSome = override.endsAt.isSome

theorem checkOverride_eq_ok {body : CalendarOccurrenceUpdate}
    (ok : Tables.checkOverride body = .ok ()) : body.startsAt.isSome = body.endsAt.isSome := by
  unfold Tables.checkOverride at ok
  split at ok
  next => cases ok
  next paired => exact Decidable.not_not.mp paired

theorem paired_step {request : Request} (before : ∀ override ∈ tables.overrides, Paired override)
    (moved : (system zoneInfo settings).step tables request = some after) :
    ∀ override ∈ after.overrides, Paired override := by
  have handled := toOption_eq_some.mp moved
  cases request with
  | createEvent id caller body =>
      obtain ⟨_, _, _, written⟩ := createEvent_eq_ok handled
      rw [written]
      exact before
  | updateEvent eventId caller body =>
      obtain ⟨event, revised, _, _, written⟩ := updateEvent_eq_ok handled
      rw [written]
      split
      next => exact fun override member => before override (List.mem_of_mem_filter member)
      next => exact before
  | updateOccurrence eventId caller body =>
      obtain ⟨event, _, _, checked, written⟩ := updateOccurrence_eq_ok handled
      rw [written]
      refine forall_mem_append ?_ (checkOverride_eq_ok checked)
      exact fun other member => before other (List.mem_of_mem_filter member)
  | deleteEvent eventId caller now =>
      obtain ⟨_, _, written⟩ := deleteEvent_eq_ok handled
      rw [written]
      exact before
  | restoreEvent eventId caller =>
      obtain ⟨_, _, written⟩ := restoreEvent_eq_ok handled
      rw [written]
      exact before
  | purgeTrashedEvent eventId =>
      rw [purgeTrashedEvent_eq_ok handled]
      exact fun override member => before override (List.mem_of_mem_filter member)

/-- **The times of an override** are given together. -/
theorem paired_of_reachable (reached : (system zoneInfo settings).Reachable tables) :
    ∀ override ∈ tables.overrides, Paired override := by
  apply reached.invariant
  · intro start begins override member
    rw [begins] at member
    cases member
  · exact fun _ _ _ before _ moved => paired_step before moved

end FrontDashboard.Calendar
