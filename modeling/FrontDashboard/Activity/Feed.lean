import FrontDashboard.Library.NewestFirst
import FrontDashboard.Library.TransitionSystem

/-! # The activity feed

The activity log of the server, the stream that announces its rows, and the
tab's copy of it in the notifications store. A request is issued in one step,
answered by the server in a second and settled in a third.
-/

namespace FrontDashboard.Activity

open NewestFirst

abbrev UserId := Nat

/-- The values of `event_type`. It is a plain text column, so that others occur. -/
inductive EventType
  | dashboardCreated
  | dashboardUpdated
  | dashboardDeleted
  | shareAdded
  | shareUpdated
  | shareRemoved
  | listCreated
  | listUpdated
  | listDeleted
  | listReordered
  | itemCreated
  | itemUpdated
  | itemChecked
  | itemDeleted
  | itemReordered
  | calendarEventCreated
  | calendarEventUpdated
  | calendarEventDeleted
  | occurrenceUpdated
  | occurrenceCancelled
  | other (text : String)
  deriving DecidableEq

/-- The columns of `activity_events` that the feed depends on. -/
structure ActivityEvent where
  eventId : Nat
  actorId : UserId
  eventType : EventType
  deriving DecidableEq

/-- The ids of `ACTIVITY_FILTERS`, and any other string. -/
inductive FilterId
  | all
  | dashboards
  | sharing
  | lists
  | listItems
  | calendar
  | unknown (text : String)
  deriving DecidableEq

def eventTypesForActivityFilter : FilterId → List EventType
  | .all => []
  | .dashboards => [.dashboardCreated, .dashboardUpdated, .dashboardDeleted]
  | .sharing => [.shareAdded, .shareUpdated, .shareRemoved]
  | .lists => [.listCreated, .listUpdated, .listDeleted, .listReordered]
  | .listItems => [.itemCreated, .itemUpdated, .itemChecked, .itemDeleted, .itemReordered]
  | .calendar => [.calendarEventCreated, .calendarEventUpdated, .calendarEventDeleted,
      .occurrenceUpdated, .occurrenceCancelled]
  | .unknown _ => []

def isOwnFeedActivity (event : ActivityEvent) (viewerId : Option UserId)
    (filterId : FilterId) : Bool :=
  match viewerId with
  | none => false
  | some viewer =>
      if event.actorId ≠ viewer then false
      else
        let eventTypes := eventTypesForActivityFilter filterId
        if 0 < eventTypes.length then eventTypes.contains event.eventType else true

/-! ## The server -/

/-- The endpoint pages at 50. -/
def activityPageSize : Nat := 50

/-- `list_activity`. -/
def listActivity (currentUser : UserId) (eventType : List EventType)
    (beforeEventId : Option Nat) (log : List ActivityEvent) : List ActivityEvent :=
  let own := log.filter fun event => event.actorId == currentUser
  let typed := if eventType.isEmpty then own
    else own.filter fun event => eventType.contains event.eventType
  let older := match beforeEventId with
    | none => typed
    | some before => typed.filter fun event => event.eventId < before
  (sort ActivityEvent.eventId older).take activityPageSize

/-! ## The store -/

/-- The activity part of the notifications store and its request bookkeeping.
`activityPromise` holds the token of the request it stands for. -/
structure Store where
  activity : List ActivityEvent
  activityLoaded : Bool
  activityLoading : Bool
  activityFailed : Bool
  activityHasMore : Bool
  activityLoadingMore : Bool
  activityFilter : FilterId
  activityPromise : Option Nat
  activityRequestToken : Nat
  activityLoadMorePromise : Bool
  deriving DecidableEq

inductive Request
  | loadActivity (token : Nat)
  | loadMoreActivity (oldest : Nat)
  deriving DecidableEq

/-- A page the server has computed, and how many rows its log had then. -/
structure Answer where
  page : List ActivityEvent
  served : Nat
  deriving DecidableEq

/-- A request in flight, with the filter it was issued under. -/
structure Call where
  request : Request
  filterId : FilterId
  answer : Option Answer
  deriving DecidableEq

namespace Store

def initial : Store :=
  { activity := [], activityLoaded := false, activityLoading := false, activityFailed := false
    activityHasMore := false, activityLoadingMore := false, activityFilter := .all
    activityPromise := none, activityRequestToken := 0, activityLoadMorePromise := false }

/-- `loadActivity` up to its request. -/
def loadActivity (force : Bool) (store : Store) : Store × List Call :=
  if !force && store.activityLoaded then (store, [])
  else if store.activityPromise.isSome then (store, [])
  else
    let token := store.activityRequestToken + 1
    ({ store with
        activityRequestToken := token, activityPromise := some token, activityLoading := true },
      [⟨.loadActivity token, store.activityFilter, none⟩])

/-- The `finally` of `loadActivity`, for the request that is still the newest. -/
def finishLoad (store : Store) : Store :=
  { store with activityLoading := false, activityPromise := none }

/-- `loadActivity` from its response on. -/
def loadAnswered (token : Nat) (activity : List ActivityEvent) (store : Store) : Store :=
  if token ≠ store.activityRequestToken then store
  else
    finishLoad { store with
      activity := activity, activityLoaded := true, activityFailed := false
      activityHasMore := activity.length == activityPageSize }

/-- The `catch` of `loadActivity`. -/
def loadFailed (token : Nat) (store : Store) : Store :=
  if token ≠ store.activityRequestToken then store
  else finishLoad { store with activityFailed := !store.activityLoaded }

/-- `loadMoreActivity` up to its request. -/
def loadMoreActivity (store : Store) : Store × List Call :=
  if store.activityLoadMorePromise then (store, [])
  else
    match store.activity.getLast? with
    | none => (store, [])
    | some oldest =>
        if store.activityLoadingMore then (store, [])
        else
          ({ store with activityLoadMorePromise := true, activityLoadingMore := true },
            [⟨.loadMoreActivity oldest.eventId, store.activityFilter, none⟩])

/-- The `finally` of `loadMoreActivity`. -/
def finishLoadMore (store : Store) : Store :=
  { store with activityLoadingMore := false, activityLoadMorePromise := false }

/-- The rows of a page that are not in the feed. -/
def unknown (older : List ActivityEvent) (store : Store) : List ActivityEvent :=
  older.filter fun event => !(store.activity.map ActivityEvent.eventId).contains event.eventId

/-- `loadMoreActivity` from its response on. -/
def loadMoreAnswered (filterId : FilterId) (older : List ActivityEvent) (store : Store) : Store :=
  if store.activityFilter ≠ filterId then store.finishLoadMore
  else
    finishLoadMore { store with
      activity := store.activity ++ store.unknown older
      activityHasMore := older.length == activityPageSize }

def setActivityFilter (filterId : FilterId) (store : Store) : Store × List Call :=
  if store.activityFilter = filterId then (store, [])
  else
    loadActivity false { store with
      activityPromise := none, activityFilter := filterId, activity := []
      activityLoaded := false, activityHasMore := false }

def addActivityFromSse (event : ActivityEvent) (viewerId : Option UserId) (store : Store) :
    Store :=
  if !store.activityLoaded then store
  else if !isOwnFeedActivity event viewerId store.activityFilter then store
  else if store.activity.any fun existing => existing.eventId == event.eventId then store
  else { store with activity := event :: store.activity }

end Store

/-! ## The two together -/

/-- The log in the order its rows were committed, the frames that announce them and
have not arrived, the tab, its requests, and the rows whose frame it has processed
while the feed was loaded. -/
structure State where
  log : List ActivityEvent
  frames : List ActivityEvent
  store : Store
  calls : List Call
  arrived : List ActivityEvent

/-- What happens: a row is committed, under any id that is free; the frame at a place
in the stream arrives; the page calls the store; a request is answered, and it lands or
fails. -/
inductive Action
  | commit (event : ActivityEvent)
  | arrive (place : Nat)
  | loadActivity (force : Bool)
  | loadMoreActivity
  | setActivityFilter (filterId : FilterId)
  | serve (index : Nat)
  | land (index : Nat)
  | fail (index : Nat)

variable (viewer : UserId)

namespace Call

/-- The server's answer to a request. -/
def serve (log : List ActivityEvent) (call : Call) : Answer :=
  match call.request with
  | .loadActivity _ =>
      ⟨listActivity viewer (eventTypesForActivityFilter call.filterId) none log, log.length⟩
  | .loadMoreActivity oldest =>
      ⟨listActivity viewer (eventTypesForActivityFilter call.filterId) (some oldest) log,
        log.length⟩

/-- The store when a request's answer arrives. -/
def land (page : List ActivityEvent) (store : Store) (call : Call) : Store :=
  match call.request with
  | .loadActivity token => store.loadAnswered token page
  | .loadMoreActivity _ => store.loadMoreAnswered call.filterId page

/-- The store when a request fails. -/
def fail (store : Store) (call : Call) : Store :=
  match call.request with
  | .loadActivity token => store.loadFailed token
  | .loadMoreActivity _ => store.finishLoadMore

end Call

namespace State

/-- The page calls the store, which may issue a request. -/
def calling (change : Store → Store × List Call) (state : State) : State :=
  { state with
    store := (change state.store).1
    calls := state.calls ++ (change state.store).2 }

def arrive (frame : ActivityEvent) (place : Nat) (state : State) : State :=
  { state with
    frames := state.frames.eraseIdx place
    store := state.store.addActivityFromSse frame (some viewer)
    arrived := if state.store.activityLoaded then frame :: state.arrived else state.arrived }

def settle (index : Nat) (store : Store) (state : State) : State :=
  { state with store := store, calls := state.calls.eraseIdx index }

end State

def step (state : State) : Action → Option State
  | .commit event =>
      if event.eventId ∈ state.log.map ActivityEvent.eventId then none
      else some { state with log := state.log ++ [event], frames := state.frames ++ [event] }
  | .arrive place => state.frames[place]?.map fun frame => state.arrive viewer frame place
  | .loadActivity force => some (state.calling (Store.loadActivity force))
  | .loadMoreActivity => some (state.calling Store.loadMoreActivity)
  | .setActivityFilter filterId => some (state.calling (Store.setActivityFilter filterId))
  | .serve index => do
      let call ← state.calls[index]?
      if call.answer.isSome then none
      else
        let answered := { call with answer := some (call.serve viewer state.log) }
        some { state with calls := state.calls.set index answered }
  | .land index => do
      let call ← state.calls[index]?
      let answer ← call.answer
      some (state.settle index (call.land answer.page state.store))
  | .fail index =>
      state.calls[index]?.map fun call => state.settle index (call.fail state.store)

/-- The tab from its opening on, over a log of any length. -/
def system : TransitionSystem State Action where
  Initial := fun state => (state.log.map ActivityEvent.eventId).Nodup ∧ state.frames = [] ∧
    state.store = .initial ∧ state.calls = [] ∧ state.arrived = []
  step := step viewer

end FrontDashboard.Activity
