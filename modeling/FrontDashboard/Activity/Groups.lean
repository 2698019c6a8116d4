import FrontDashboard.EventEditor.Draft
import Mathlib.Data.Finset.Card

/-! # The rows of the activity feed

`groupActivityEvents` folds the feed, newest event first, into rows that each stand for a
run of the same churn.
-/

namespace FrontDashboard.Activity.Groups

open EventEditor (trim)

/-- What a field of a payload may hold: the readers tell only texts and arrays apart. -/
inductive Value
  | text (value : String)
  | array (entries : List Value)
  | other
  deriving Repr

/-- The columns of `ActivityEventResponse` that a row depends on. -/
structure ActivityEvent where
  eventId : Nat
  eventType : String
  entityId : String
  createdAt : String
  payload : List (String × Value)
  deriving Repr

/-- `Date.parse` is `none` where it is `NaN`. -/
abbrev DateParse := String → Option Int

/-! ## The collapse key -/

def payloadString (payload : List (String × Value)) (key : String) : Option String :=
  match payload.lookup key with
  | some (.text value) => if trim value = "" then none else some value
  | _ => none

def payloadStrings (payload : List (String × Value)) (key : String) : List String :=
  match payload.lookup key with
  | some (.array entries) => entries.filterMap fun
      | .text value => some value
      | _ => none
  | _ => []

def isOnly (fields : List String) (field : String) : Bool :=
  decide (fields = [field])

/-- `COLLAPSE_SUBJECT_FIELD`. -/
def collapseSubjectField : String → Option String
  | "list.item.checked" => some "list_id"
  | "list.item.reordered" => some "list_id"
  | "list.reordered" => some "dashboard_id"
  | _ => none

/-- `COLLAPSE_ON_ENTITY`. -/
def collapseOnEntity : List String :=
  ["list.updated", "list.item.updated", "calendar.event.updated",
    "calendar.event.occurrence.updated"]

def collapseKey (event : ActivityEvent) : Option String :=
  if event.eventType ∈ collapseOnEntity then some (event.eventType ++ ":" ++ event.entityId)
  else
    match collapseSubjectField event.eventType with
    | some subjectField =>
        (payloadString event.payload subjectField).map fun subject =>
          event.eventType ++ ":" ++ subject
    | none =>
        if event.eventType ≠ "dashboard.updated" then none
        else
          let changedFields := payloadStrings event.payload "changed_fields"
          if isOnly changedFields "layout" then some ("dashboard.layout:" ++ event.entityId)
          else if isOnly changedFields "widgets" then
            (payloadString event.payload "widget_id").map ("dashboard.widget:" ++ ·)
          else none

/-! ## The fold -/

structure ActivityGroup where
  event : ActivityEvent
  members : List ActivityEvent
  entities : Nat
  deriving Repr

/-- `COLLAPSE_WINDOW_MS`. -/
def collapseWindow : Int := 5 * 60 * 1000

/-- The variables of the loop. -/
structure Progress where
  groups : List ActivityGroup
  runKey : Option String
  runPreviousAt : Option Int
  runEntities : Finset String

def Progress.start : Progress := ⟨[], none, some 0, ∅⟩

/-- `runPreviousAt - at <= COLLAPSE_WINDOW_MS`, which `NaN` fails. -/
def withinWindow : Option Int → Option Int → Bool
  | some previous, some current => previous - current ≤ collapseWindow
  | _, _ => false

variable (dateParse : DateParse)

/-- The event begins a row. -/
def pushGroup (progress : Progress) (event : ActivityEvent) : Progress where
  groups := progress.groups ++ [⟨event, [event], 1⟩]
  runKey := collapseKey event
  runPreviousAt := dateParse event.createdAt
  runEntities := {event.entityId}

/-- The event joins the last row. -/
def pushMember (progress : Progress) (last : ActivityGroup) (event : ActivityEvent) : Progress :=
  let entities := insert event.entityId progress.runEntities
  { progress with
    groups := progress.groups.dropLast ++
      [{ last with members := last.members ++ [event], entities := entities.card }]
    runPreviousAt := dateParse event.createdAt
    runEntities := entities }

/-- One turn of the loop. -/
def addEvent (progress : Progress) (event : ActivityEvent) : Progress :=
  match progress.groups.getLast? with
  | some last =>
      if collapseKey event ≠ none ∧ collapseKey event = progress.runKey ∧
          withinWindow progress.runPreviousAt (dateParse event.createdAt) = true then
        pushMember dateParse progress last event
      else pushGroup dateParse progress event
  | none => pushGroup dateParse progress event

def groupActivityEvents (events : List ActivityEvent) : List ActivityGroup :=
  (events.foldl (addEvent dateParse) .start).groups

end FrontDashboard.Activity.Groups
