import FrontDashboard.Library.InsertionMap
import FrontDashboard.Library.TransitionSystem
import FrontDashboard.Occurrence.Coverage

/-! # The occurrence store

One dashboard's entry of the occurrence store together with the calendar the
server holds for it. A window that mounts asks for a load; the loads asked for in
one tick are flushed together into range requests for the gaps; a request is
answered by the server in one step and lands in a later one; a load resumes once
its requests have landed, or one of them has failed.

`revision` counts the server's writes and `announced` the writes of which an
invalidation has told the store. Neither influences the store.
-/

namespace FrontDashboard.Occurrence

/-- `CalendarOccurrence`: an event and its original start name an occurrence, its
span says when it takes place, and `details` is what else a view shows of it. -/
structure CalendarOccurrence (Details : Type) where
  eventId : String
  originalStart : Millis
  span : Interval
  details : Details
  deriving DecidableEq

variable {Details : Type}

/-- `occurrenceKey`. -/
def CalendarOccurrence.key (occurrence : CalendarOccurrence Details) : String × Millis :=
  (occurrence.eventId, occurrence.originalStart)

abbrev Occurrences (Details : Type) := InsertionMap (String × Millis) (CalendarOccurrence Details)

/-- The calendar the server holds: at most one occurrence under a key. -/
structure Calendar (Details : Type) where
  occurrences : List (CalendarOccurrence Details)
  unique : ∀ first ∈ occurrences, ∀ second ∈ occurrences, first.key = second.key → first = second

/-- What the server lists for a window. -/
def Calendar.list (calendar : Calendar Details) (window : Interval) :
    List (CalendarOccurrence Details) :=
  calendar.occurrences.filter fun occurrence => occurrence.span.Overlaps window

/-- A `runLoad` that awaits range requests, named by their intervals, or has been
rejected by one of them. -/
structure Load where
  waits : List Interval
  rejected : Option String

abbrev WatcherId := Nat

/-- An entry of the store. A range request in flight is listed under its interval,
with the server's response once it has one. -/
structure Entry (Details : Type) where
  byKey : Occurrences Details
  covered : List Interval
  windows : InsertionMap WatcherId Interval
  pending : List Interval
  inFlight : InsertionMap Interval (Option (List (CalendarOccurrence Details)))
  loads : List Load
  occurrences : List (CalendarOccurrence Details)
  loaded : Bool
  loading : Bool
  error : Option String

/-- The entry beside the server. -/
structure World (Details : Type) where
  entry : Entry Details
  calendar : Calendar Details
  revision : Nat
  announced : Nat

namespace Entry

def empty : Entry Details where
  byKey := .empty
  covered := []
  windows := .empty
  pending := []
  inFlight := .empty
  loads := []
  occurrences := []
  loaded := false
  loading := false
  error := none

/-- What a mounted window shows. -/
def visible (entry : Entry Details) (window : Interval) : List (CalendarOccurrence Details) :=
  entry.occurrences.filter fun occurrence => occurrence.span.Overlaps window

/-- `republishOccurrences`. -/
def republishOccurrences (entry : Entry Details) : Entry Details :=
  { entry with occurrences :=
      entry.byKey.values.insertionSort fun a b => a.span.start ≤ b.span.start }

/-- `trim`: with the coverage that is dropped go the occurrences only it overlapped. -/
def trim (entry : Entry Details) (keep : Interval) : Entry Details :=
  let retained := retain entry.covered keep
  { entry with
    covered := retained
    byKey :=
      if coveredSpan entry.covered ≤ maxCoveredMs then entry.byKey
      else entry.byKey.filterValues fun occurrence =>
        retained.any fun interval => interval.Overlaps occurrence.span }

/-- The held occurrences after a response for an interval: everything that overlaps
it is deleted before the response is inserted. -/
def reconcile (byKey : Occurrences Details) (interval : Interval)
    (fetched : List (CalendarOccurrence Details)) : Occurrences Details :=
  InsertionMap.insertAll CalendarOccurrence.key
    (byKey.filterValues fun occurrence => !decide (occurrence.span.Overlaps interval)) fetched

/-- A response landing: the end of `fetchInterval`. -/
def land (interval : Interval) (fetched : List (CalendarOccurrence Details))
    (entry : Entry Details) : Entry Details :=
  let reconciled : Entry Details :=
    { entry with
      byKey := reconcile entry.byKey interval fetched
      covered := addInterval entry.covered interval }
  let trimmed := reconciled.trim interval
  { trimmed with
    inFlight := trimmed.inFlight.delete interval
    loads := trimmed.loads.map fun load =>
      { load with waits := load.waits.filter fun awaited => decide (awaited ≠ interval) } }

/-- A range request failing: the loads that await it are rejected. -/
def fail (interval : Interval) (message : Option String) (entry : Entry Details) :
    Entry Details :=
  { entry with
    inFlight := entry.inFlight.delete interval
    loads := entry.loads.map fun load =>
      if interval ∈ load.waits ∧ load.rejected = none then
        { load with rejected := some (message.getD "Failed to load calendar events.") }
      else load }

/-- The start of `fetchInterval`: a request for the interval is joined or issued. -/
def request (entry : Entry Details) (interval : Interval) : Entry Details :=
  match entry.inFlight.get interval with
  | some _ => entry
  | none => { entry with inFlight := entry.inFlight.insert interval none }

/-- `runLoad` up to its first suspension. -/
def runLoad (entry : Entry Details) (wanted : Interval) : Entry Details :=
  let gaps := gapsIn entry.covered wanted
  if gaps = [] then entry
  else
    let begun : Entry Details :=
      { entry with
        loading := entry.byKey.size == 0, error := none
        loads := entry.loads ++ [⟨gaps, none⟩] }
    gaps.foldl request begun

/-- The least interval that contains a list of them. -/
def spanOf : List Interval → Option Interval
  | [] => none
  | first :: rest => some (rest.foldl HalfOpen.hull first)

/-- The loads one flush begins: a single spanning one, unless the server would
reject its window. -/
def batchLoads (pending : List Interval) : List Interval :=
  match spanOf pending with
  | none => []
  | some span => if span.stop - span.start > maxCoveredMs then pending else [span]

/-- The flush of the windows asked for in one tick. -/
def flush (entry : Entry Details) : Entry Details :=
  (batchLoads entry.pending).foldl runLoad { entry with pending := [] }

/-- `loadWindow`. -/
def loadWindow (entry : Entry Details) (wanted : Interval) : Entry Details :=
  { entry with pending := entry.pending ++ [wanted] }

/-- `watchedInterval`. -/
def watchedInterval (entry : Entry Details) : Option Interval :=
  match spanOf entry.windows.values with
  | none => none
  | some span => if span.stop - span.start > maxCoveredMs then none else some span

/-- `reload`: what an invalidation does to the entry. -/
def reload (entry : Entry Details) : Entry Details :=
  let uncovered : Entry Details := { entry with covered := [] }
  match uncovered.watchedInterval with
  | none => uncovered
  | some watched => uncovered.loadWindow watched

/-- The effect of `useOccurrences` on a window. -/
def mount (watcher : WatcherId) (wanted : Interval) (entry : Entry Details) : Entry Details :=
  { entry with windows := entry.windows.insert watcher wanted }.loadWindow wanted

def unmount (watcher : WatcherId) (entry : Entry Details) : Entry Details :=
  { entry with windows := entry.windows.delete watcher }

/-- `refetch`. -/
def refetch (wanted : Interval) (entry : Entry Details) : Entry Details :=
  { entry with covered := [] }.loadWindow wanted

/-- The end of `runLoad`: a rejected load shows its error, one whose requests have
all landed publishes what is held. -/
def resume (index : Nat) (entry : Entry Details) : Option (Entry Details) :=
  match entry.loads[index]? with
  | none => none
  | some load =>
      let rest : Entry Details := { entry with loads := entry.loads.eraseIdx index }
      match load.rejected with
      | some message => some { rest with loading := false, error := some message }
      | none =>
          if load.waits = [] then
            some { rest.republishOccurrences with loaded := true, loading := false, error := none }
          else none

end Entry

/-- What happens to the store and the server. An invalidation announces the writes
up to one of them. -/
inductive Action (Details : Type)
  | mount (watcher : WatcherId) (window : Interval)
  | unmount (watcher : WatcherId)
  | refetch (watcher : WatcherId)
  | flush
  | serve (interval : Interval)
  | land (interval : Interval)
  | fail (interval : Interval) (message : Option String)
  | resume (index : Nat)
  | write (calendar : Calendar Details)
  | invalidate (upTo : Nat)

/-- The step function. -/
def step (world : World Details) : Action Details → Option (World Details)
  | .mount watcher window => some { world with entry := world.entry.mount watcher window }
  | .unmount watcher => some { world with entry := world.entry.unmount watcher }
  | .refetch watcher =>
      match world.entry.windows.get watcher with
      | none => none
      | some wanted => some { world with entry := world.entry.refetch wanted }
  | .flush => some { world with entry := world.entry.flush }
  | .serve interval =>
      match world.entry.inFlight.get interval with
      | some none =>
          let answered := world.entry.inFlight.insert interval (some (world.calendar.list interval))
          some { world with entry := { world.entry with inFlight := answered } }
      | _ => none
  | .land interval =>
      match world.entry.inFlight.get interval with
      | some (some fetched) => some { world with entry := world.entry.land interval fetched }
      | _ => none
  | .fail interval message =>
      match world.entry.inFlight.get interval with
      | some _ => some { world with entry := world.entry.fail interval message }
      | none => none
  | .resume index =>
      match world.entry.resume index with
      | none => none
      | some entry => some { world with entry := entry }
  | .write calendar => some { world with calendar := calendar, revision := world.revision + 1 }
  | .invalidate upTo =>
      if upTo ≤ world.revision then
        some { world with entry := world.entry.reload, announced := max world.announced upTo }
      else none

/-- The store from its creation on, beside a server with any calendar. -/
def system (Details : Type) : TransitionSystem (World Details) (Action Details) where
  Initial := fun world => world.entry = .empty ∧ world.revision = 0 ∧ world.announced = 0
  step := step

end FrontDashboard.Occurrence
