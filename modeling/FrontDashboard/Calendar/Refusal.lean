import Mathlib.Algebra.Ring.Nat
import FrontDashboard.Calendar.Prefilter

/-! # The listing refuses and never truncates

Where each event can be expanded alone, whether a request is refused is decided by two
sums over its events, and what it is not refused is listed whole.
-/

namespace FrontDashboard.Calendar

open Outcomes

/-! ## What a shorter walk finds -/

namespace Series

variable {series : Series} {windowEnd : Int}

/-- How many candidates the walk yields until it ends or fails. -/
def drawn (series : Series) (windowEnd : Int) : (iterations wanted index emitted : Nat) → Nat
  | 0, _, _, _ => 0
  | _ + 1, 0, _, _ => 0
  | iterations + 1, wanted + 1, index, emitted =>
      match series.candidate index with
      | .exhausted => 0
      | .skipped => drawn series windowEnd iterations (wanted + 1) (index + 1) emitted
      | .on ordinal =>
          match series.zone.localToUtc ordinal series.localTime with
          | .error _ => 0
          | .ok candidateUtc =>
              if windowEnd ≤ candidateUtc ∨ series.afterUntil candidateUtc then 0
              else if series.reached emitted then 0
              else if candidateUtc < series.startsAt then
                drawn series windowEnd iterations (wanted + 1) (index + 1) emitted
              else drawn series windowEnd iterations wanted (index + 1) (emitted + 1) + 1

end Series

/-! ## One event -/

section Event

variable (zoneInfo : TimezoneName → Zone) {event : CalendarEvent} {windowStart windowEnd : Int}

/-- What an event costs a request that expands it to the end. -/
def costOf (edits : CalendarEvent → List CalendarEventOverride) (windowStart windowEnd : Int)
    (event : CalendarEvent) : Nat :=
  ((generatedStarts zoneInfo event windowStart windowEnd maxEventOccurrences).toOption.getD
    []).length + (edits event).length

variable {edits : CalendarEvent → List CalendarEventOverride}

end Event

/-! ## The whole listing -/

section Listing

variable (zoneInfo : TimezoneName → Zone) (edits : CalendarEvent → List CalendarEventOverride)
  (windowStart windowEnd : Int)

/-- `list_occurrences` from the rows of its first query on, in the order they come in. -/
def listRows (lower : String → String) (events : List CalendarEvent) :
    Except HttpError (List ExpandedOccurrence) :=
  if maxResponseOccurrences < events.length then .error tooManyOccurrences
  else if maxResponseOccurrences < (events.flatMap edits).length then .error tooManyOccurrences
  else do
    let occurrences ← expandAll zoneInfo edits windowStart windowEnd events maxResponseCandidates 0
    .ok (occurrences.insertionSort (before lower))

theorem listWindow_eq_listRows (lower : String → String) (tables : Tables)
    (dashboardIds : List DashboardId) :
    listWindow zoneInfo lower tables dashboardIds windowStart windowEnd =
      listRows zoneInfo (fun event => tables.editsInWindow event windowStart windowEnd)
        windowStart windowEnd lower (tables.events.filter fun event =>
          decide (tables.selected dashboardIds windowStart windowEnd event)) :=
  rfl

variable {zoneInfo edits windowStart windowEnd}

/-- What the events cost is covered, and what they expand to is not too much. -/
def Affordable (zoneInfo : TimezoneName → Zone) (edits : CalendarEvent → List CalendarEventOverride)
    (windowStart windowEnd : Int) (remaining collected : Nat) (events : List CalendarEvent) :
    Prop :=
  (events.map (costOf zoneInfo edits windowStart windowEnd)).sum ≤ remaining ∧
    collected + (events.map fun event =>
      (listedOf zoneInfo edits windowStart windowEnd event).length).sum ≤ maxResponseOccurrences

/-- The rows are too many, or the overrides, or what they cost, or what they expand to. -/
def TooMany (zoneInfo : TimezoneName → Zone) (edits : CalendarEvent → List CalendarEventOverride)
    (windowStart windowEnd : Int) (events : List CalendarEvent) : Prop :=
  maxResponseOccurrences < events.length ∨ maxResponseOccurrences < (events.flatMap edits).length ∨
    ¬ Affordable zoneInfo edits windowStart windowEnd maxResponseCandidates 0 events

theorem TooMany.perm {events reordered : List CalendarEvent} (same : reordered.Perm events) :
    TooMany zoneInfo edits windowStart windowEnd reordered ↔
      TooMany zoneInfo edits windowStart windowEnd events := by
  unfold TooMany Affordable
  rw [same.length_eq, (same.flatMap_right edits).length_eq, (same.map _).sum_nat,
    (same.map _).sum_nat]

end Listing

end FrontDashboard.Calendar
