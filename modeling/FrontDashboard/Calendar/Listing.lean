import FrontDashboard.Calendar.Recurrence

/-! # The calendar listing

`list_occurrences`: the events and the overrides that its queries select for a window, and
the expansion of each event with the overrides selected.
-/

namespace FrontDashboard.Calendar

/-! ## Expanding an event over a window

`expand_event_occurrences`: the starts the walk yields, then those that only an override
names, each built with its override and kept when it overlaps the window.
-/

variable (zoneInfo : TimezoneName → Zone)

def maxEventOccurrences : Nat := 2000
def maxResponseOccurrences : Nat := 20000
def maxResponseCandidates : Nat := 200000

/-- Why an expansion ends early: `CalendarExpansionError` concerns one event,
`CalendarResponseTooLargeError` the whole listing. -/
inductive Refusal
  | expansion (error : CalendarExpansionError)
  | tooLarge
  deriving DecidableEq

/-- `ExpansionBudget.spend`. -/
def spend (remaining walked : Nat) : Except Refusal Nat :=
  if walked ≤ remaining then .ok (remaining - walked) else .error .tooLarge

def overlaps (start finish windowStart windowEnd : Int) : Prop :=
  start < windowEnd ∧ windowStart < finish

instance (start finish windowStart windowEnd : Int) :
    Decidable (overlaps start finish windowStart windowEnd) :=
  inferInstanceAs (Decidable (_ ∧ _))

/-- `overrides_by_start.get`, the overrides of an event being keyed by their start. -/
def overrideAt (overrides : List CalendarEventOverride) (start : Int) :
    Option CalendarEventOverride :=
  overrides.find? fun override => override.occurrenceStart == start

/-- `_build_occurrence`. -/
def buildOccurrence (event : CalendarEvent) (override : Option CalendarEventOverride)
    (originalStart duration : Int) :
    Except CalendarExpansionError (Option ExpandedOccurrence) :=
  if override.any (·.cancelled) then .ok none
  else do
    let occurrenceStart := (override.bind (·.startsAt)).getD originalStart
    let occurrenceEnd ←
      (override.bind (·.endsAt)).elim (checked (occurrenceStart + duration)) .ok
    .ok (some {
      eventId := event.id
      occurrenceStart := occurrenceStart
      occurrenceEnd := occurrenceEnd
      originalStart := originalStart
      title := (override.bind (·.title)).getD event.title
      description := (override.bind (·.description)).or event.description
      location := (override.bind (·.location)).or event.location
      timezone := (override.bind (·.timezone)).getD event.timezone
      allDay := (override.bind (·.allDay)).getD event.allDay
      createdBy := event.createdBy
      recurring := event.recurrence.isSome
      isException := override.isSome })

/-- What is kept of a built occurrence. -/
def inWindow (windowStart windowEnd : Int) (built : Option ExpandedOccurrence) :
    Option ExpandedOccurrence :=
  built.filter fun occurrence =>
    decide (overlaps occurrence.occurrenceStart occurrence.occurrenceEnd windowStart windowEnd)

/-- The loop over the starts. -/
def buildAll (event : CalendarEvent) (overrides : List CalendarEventOverride)
    (windowStart windowEnd : Int) : List Int → Except CalendarExpansionError
      (List ExpandedOccurrence)
  | [] => .ok []
  | start :: rest => do
      let built ← buildOccurrence event (overrideAt overrides start) start event.duration
      let others ← buildAll event overrides windowStart windowEnd rest
      .ok ((inWindow windowStart windowEnd built).toList ++ others)

/-- The starts of an event that the walk finds. -/
def generatedStarts (event : CalendarEvent) (windowStart windowEnd : Int) (walkLimit : Nat) :
    Except CalendarExpansionError (List Int) :=
  match event.recurrence with
  | none => .ok [event.startsAt]
  | some rule =>
      iterRecurrenceStarts (zoneInfo event.timezone) event rule windowStart windowEnd
        (walkLimit + 1)

/-- The starts that only an override names. -/
def editedStarts (overrides : List CalendarEventOverride) (generated : List Int) : List Int :=
  (overrides.map (·.occurrenceStart)).filter fun start => !generated.contains start

/-- `expand_event_occurrences` once the starts are known. -/
def expandStarts (event : CalendarEvent) (overrides : List CalendarEventOverride)
    (windowStart windowEnd : Int) (starts : List Int) :
    Except CalendarExpansionError (List ExpandedOccurrence) :=
  if maxEventOccurrences < starts.length ∨ maxEventOccurrences < overrides.length then
    .error .budget
  else
    buildAll event overrides windowStart windowEnd (starts ++ editedStarts overrides starts)

/-- `expand_event_occurrences` without a budget. -/
def expandEventOccurrences (event : CalendarEvent) (overrides : List CalendarEventOverride)
    (windowStart windowEnd : Int) : Except CalendarExpansionError (List ExpandedOccurrence) := do
  let starts ← generatedStarts zoneInfo event windowStart windowEnd maxEventOccurrences
  expandStarts event overrides windowStart windowEnd starts

/-- `expand_event_occurrences` with a budget: what it returns or raises, and what is left. -/
def expandWithin (event : CalendarEvent) (overrides : List CalendarEventOverride)
    (windowStart windowEnd : Int) (remaining : Nat) :
    Except Refusal (Except CalendarExpansionError (List ExpandedOccurrence) × Nat) :=
  match generatedStarts zoneInfo event windowStart windowEnd
    (min maxEventOccurrences remaining) with
  | .error error => .ok (.error error, remaining)
  | .ok starts => do
      let left ← spend remaining (starts.length + overrides.length)
      .ok (expandStarts event overrides windowStart windowEnd starts, left)

/-! ## The tables -/

structure Tables where
  events : List CalendarEvent
  overrides : List CalendarEventOverride

/-- What the schema enforces: the unique constraints, the check on an event's times, and that
every time is a `datetime`. -/
structure Tables.Constrained (tables : Tables) : Prop where
  events_unique : (tables.events.map (·.id)).Nodup
  overrides_unique : (tables.overrides.map fun override =>
    (override.calendarEventId, override.occurrenceStart)).Nodup
  time_range : ∀ event ∈ tables.events, event.startsAt < event.endsAt
  starts : ∀ event ∈ tables.events, checked event.startsAt = .ok event.startsAt
  ends : ∀ event ∈ tables.events, checked event.endsAt = .ok event.endsAt

/-- The overrides of an event. -/
def Tables.overridesOf (tables : Tables) (eventId : EventId) : List CalendarEventOverride :=
  tables.overrides.filter fun override => override.calendarEventId == eventId

/-! ## The predicates of the queries -/

/-- `recurring_in_window`. -/
def recurringInWindow (event : CalendarEvent) (windowStart windowEnd : Int) : Prop :=
  ∃ rule ∈ event.recurrence, event.startsAt < windowEnd ∧
    (rule.untilAt = none ∨ ∃ untilAt ∈ rule.untilAt, windowStart < untilAt + event.duration)

/-- `edit_start`. -/
def CalendarEventOverride.editStart (override : CalendarEventOverride) : Int :=
  override.startsAt.getD override.occurrenceStart

/-- `edit_end`, for an event with a duration. -/
def CalendarEventOverride.editEnd (override : CalendarEventOverride) (duration : Int) : Int :=
  override.endsAt.getD (override.editStart + duration)

/-- `edit_in_window`. -/
def editInWindow (event : CalendarEvent) (override : CalendarEventOverride)
    (windowStart windowEnd : Int) : Prop :=
  overlaps override.occurrenceStart (override.occurrenceStart + event.duration) windowStart
      windowEnd ∨
    overlaps override.editStart (override.editEnd event.duration) windowStart windowEnd

instance (event : CalendarEvent) (windowStart windowEnd : Int) :
    Decidable (recurringInWindow event windowStart windowEnd) :=
  inferInstanceAs (Decidable (∃ rule ∈ event.recurrence, _ ∧ (_ ∨ _)))

instance (event : CalendarEvent) (override : CalendarEventOverride)
    (windowStart windowEnd : Int) :
    Decidable (editInWindow event override windowStart windowEnd) :=
  inferInstanceAs (Decidable (_ ∨ _))

/-- The overrides the second query selects for an event. -/
def Tables.editsInWindow (tables : Tables) (event : CalendarEvent) (windowStart windowEnd : Int) :
    List CalendarEventOverride :=
  (tables.overridesOf event.id).filter fun override =>
    decide (editInWindow event override windowStart windowEnd)

/-- A live event of one of the dashboards. -/
def listedOn (dashboardIds : List DashboardId) (event : CalendarEvent) : Prop :=
  event.deletedAt = none ∧ event.dashboardId ∈ dashboardIds

/-- What the first query selects. -/
def Tables.selected (tables : Tables) (dashboardIds : List DashboardId)
    (windowStart windowEnd : Int) (event : CalendarEvent) : Prop :=
  listedOn dashboardIds event ∧
    (recurringInWindow event windowStart windowEnd ∨
      (event.startsAt < windowEnd ∧ windowStart < event.endsAt) ∨
      tables.editsInWindow event windowStart windowEnd ≠ [])

instance (dashboardIds : List DashboardId) (event : CalendarEvent) :
    Decidable (listedOn dashboardIds event) :=
  inferInstanceAs (Decidable (_ ∧ _))

instance (tables : Tables) (dashboardIds : List DashboardId) (windowStart windowEnd : Int)
    (event : CalendarEvent) :
    Decidable (tables.selected dashboardIds windowStart windowEnd event) :=
  inferInstanceAs (Decidable (_ ∧ (_ ∨ _ ∨ _)))

/-! ## The route -/

structure HttpError where
  status : Nat
  detail : String
  deriving DecidableEq

def tooManyOccurrences : HttpError :=
  ⟨422, "Too many events in this window; request a shorter one or a single dashboard"⟩

/-- An overflow that no handler catches. -/
def internalError : HttpError := ⟨500, "Internal Server Error"⟩

/-- The loop over the events, after some occurrences have been collected. An event that
cannot be expanded is left out. -/
def expandAll (edits : CalendarEvent → List CalendarEventOverride) (windowStart windowEnd : Int) :
    (events : List CalendarEvent) → (remaining collected : Nat) →
      Except HttpError (List ExpandedOccurrence)
  | [], _, _ => .ok []
  | event :: rest, remaining, collected =>
      match expandWithin zoneInfo event (edits event) windowStart windowEnd remaining with
      | .error _ => .error tooManyOccurrences
      | .ok (expanded, left) =>
          let occurrences := expanded.toOption.getD []
          if maxResponseOccurrences < collected + occurrences.length then
            .error tooManyOccurrences
          else do
            let others ← expandAll edits windowStart windowEnd rest left
              (collected + occurrences.length)
            .ok (occurrences ++ others)

/-- The order of the listing: `(occurrence_start, title.lower())`. -/
def before (lower : String → String) (first second : ExpandedOccurrence) : Prop :=
  first.occurrenceStart < second.occurrenceStart ∨
    first.occurrenceStart = second.occurrenceStart ∧ ¬ lower second.title < lower first.title

instance (lower : String → String) (first second : ExpandedOccurrence) :
    Decidable (before lower first second) :=
  inferInstanceAs (Decidable (_ ∨ _ ∧ _))

/-- `list_occurrences` after its checks. -/
def listWindow (lower : String → String) (tables : Tables) (dashboardIds : List DashboardId)
    (windowStart windowEnd : Int) : Except HttpError (List ExpandedOccurrence) :=
  let events := tables.events.filter fun event =>
    decide (tables.selected dashboardIds windowStart windowEnd event)
  if maxResponseOccurrences < events.length then .error tooManyOccurrences
  else
    let edits := fun event : CalendarEvent => tables.editsInWindow event windowStart windowEnd
    if maxResponseOccurrences < (events.flatMap edits).length then .error tooManyOccurrences
    else do
      let occurrences ← expandAll zoneInfo edits windowStart windowEnd events
        maxResponseCandidates 0
      .ok (occurrences.insertionSort (before lower))

/-- `list_occurrences`, for a user who can access some dashboards. -/
def listOccurrences (lower : String → String) (tables : Tables)
    (accessibleDashboardIds : List DashboardId) (dashboardId : Option DashboardId)
    (windowStart windowEnd : Int) : Except HttpError (List ExpandedOccurrence) :=
  if windowEnd ≤ windowStart then .error ⟨422, "window_end must be after window_start"⟩
  else if 366 * day < windowEnd - windowStart then
    .error ⟨422, "window cannot exceed 366 days"⟩
  else if accessibleDashboardIds = [] then .ok []
  else if ∃ named ∈ dashboardId, named ∉ accessibleDashboardIds then
    .error ⟨404, "Dashboard not found"⟩
  else
    let dashboardIds := dashboardId.elim accessibleDashboardIds fun named => [named]
    match checked windowStart, checked windowEnd with
    | .ok _, .ok _ => listWindow zoneInfo lower tables dashboardIds windowStart windowEnd
    | _, _ => .error internalError

end FrontDashboard.Calendar
