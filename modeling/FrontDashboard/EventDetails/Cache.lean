import FrontDashboard.Library.InsertionMap
import FrontDashboard.Library.TransitionSystem

/-! # The detail cache of calendar events

`calendarEventDetails` and `calendarEventRequests` beside the requests in flight. A promise is
continued in steps of its own: a read writes its response back first and gives up its place in
the table of requests later.

The last three fields of a page are on record only: for each event id the first request that is
not older than its last invalidation, and the latest update whose result has been stored, unless
it was purged since; and what calls have been answered from the cache.
-/

namespace FrontDashboard.EventDetails

variable {Details : Type}

structure CalendarEvent (Details : Type) where
  id : String
  details : Details

/-- Requests are numbered as they are issued. -/
abbrev RequestId := Nat

inductive Mutation
  | create
  | update (eventId : String)
  | restore (eventId : String)
  | delete (eventId : String)
  | purge (eventId : String)
  deriving DecidableEq

inductive Request
  | read (eventId : String)
  | mutate (mutation : Mutation)
  deriving DecidableEq

/-- A response as it is cached, with the request that it answers. -/
structure Cached (Details : Type) where
  event : CalendarEvent Details
  request : RequestId
  isRead : Bool

/-- A call answered from the cache, with what was older than the last invalidation then. -/
structure Serving (Details : Type) where
  cached : Cached Details
  invalidatedAt : RequestId

structure Page (Details : Type) where
  calendarEventDetails : InsertionMap String (Cached Details)
  calendarEventRequests : InsertionMap String RequestId
  inFlight : InsertionMap RequestId Request
  settling : List String
  nextRequest : RequestId
  invalidatedAt : String → RequestId
  updatedAt : String → RequestId
  served : List (Serving Details)

namespace Page

def empty : Page Details where
  calendarEventDetails := .empty
  calendarEventRequests := .empty
  inFlight := .empty
  settling := []
  nextRequest := 0
  invalidatedAt := fun _ => 0
  updatedAt := fun _ => 0
  served := []

/-- A request goes out. -/
def issue (request : Request) (page : Page Details) : Page Details :=
  { page with
    inFlight := page.inFlight.insert page.nextRequest request
    nextRequest := page.nextRequest + 1 }

/-- `calendarEventDetails.set`. -/
def store (eventId : String) (cached : Cached Details) (page : Page Details) : Page Details :=
  { page with calendarEventDetails := page.calendarEventDetails.insert eventId cached }

/-- `invalidateCalendarEvent`: an empty id is none. -/
def invalidateCalendarEvent (eventId : Option String) (page : Page Details) : Page Details :=
  match eventId with
  | none => page
  | some eventId =>
      if eventId = "" then page
      else
        { page with
          calendarEventDetails := page.calendarEventDetails.delete eventId
          calendarEventRequests := page.calendarEventRequests.delete eventId
          invalidatedAt := Function.update page.invalidatedAt eventId page.nextRequest }

/-- `getCalendarEvent`, up to its first suspension: the cached event, the request in flight, or
a new one. -/
def getCalendarEvent (eventId : String) (page : Page Details) : Page Details :=
  match page.calendarEventDetails.get eventId with
  | some cached =>
      { page with served := page.served ++ [⟨cached, page.invalidatedAt eventId⟩] }
  | none =>
      match page.calendarEventRequests.get eventId with
      | some _ => page
      | none =>
          { page.issue (.read eventId) with
            calendarEventRequests := page.calendarEventRequests.insert eventId page.nextRequest }

/-- The `finally` of a read, whichever request the table has by then. -/
def settle (eventId : String) (page : Page Details) : Page Details :=
  { page with
    calendarEventRequests := page.calendarEventRequests.delete eventId
    settling := page.settling.erase eventId }

/-- The continuation of a mutation that has succeeded. -/
def mutated (request : RequestId) (event : CalendarEvent Details) (page : Page Details) :
    Mutation → Page Details
  | .create => page.store event.id ⟨event, request, false⟩
  | .update eventId =>
      { page.store eventId ⟨event, request, false⟩ with
        updatedAt :=
          Function.update page.updatedAt eventId (max (page.updatedAt eventId) request) }
  | .restore eventId => page.store eventId ⟨event, request, false⟩
  | .delete eventId => page.invalidateCalendarEvent (some eventId)
  | .purge eventId =>
      { page with
        calendarEventDetails := page.calendarEventDetails.delete eventId
        updatedAt := Function.update page.updatedAt eventId 0 }

/-- The continuation of a request that has succeeded. What answers a deletion is not read. -/
def answered (request : RequestId) (event : CalendarEvent Details) (page : Page Details) :
    Request → Page Details
  | .read eventId =>
      { page.store eventId ⟨event, request, true⟩ with settling := eventId :: page.settling }
  | .mutate mutation => page.mutated request event mutation

/-- The continuation of one that has failed. -/
def failed (page : Page Details) : Request → Page Details
  | .read eventId => { page with settling := eventId :: page.settling }
  | .mutate _ => page

/-- `handleCalendarResourceEvent`. -/
def handleCalendarResourceEvent (eventType : String) (entityId : Option String)
    (isOwnEcho : Bool) (page : Page Details) : Page Details :=
  if eventType = "resync" then
    { page with
      calendarEventDetails := .empty, calendarEventRequests := .empty
      invalidatedAt := fun _ => page.nextRequest }
  else if !eventType.startsWith "calendar." then page
  else if isOwnEcho then page
  else page.invalidateCalendarEvent entityId

end Page

inductive Action (Details : Type)
  | getCalendarEvent (eventId : String)
  | mutate (mutation : Mutation)
  | answer (request : RequestId) (event : CalendarEvent Details)
  | fail (request : RequestId)
  | settle (eventId : String)
  | frame (eventType : String) (entityId : Option String) (isOwnEcho : Bool)

def step (page : Page Details) : Action Details → Option (Page Details)
  | .getCalendarEvent eventId => some (page.getCalendarEvent eventId)
  | .mutate mutation => some (page.issue (.mutate mutation))
  | .answer request event =>
      match page.inFlight.get request with
      | none => none
      | some asked =>
          some (Page.answered request event
            { page with inFlight := page.inFlight.delete request } asked)
  | .fail request =>
      match page.inFlight.get request with
      | none => none
      | some asked =>
          some (Page.failed { page with inFlight := page.inFlight.delete request } asked)
  | .settle eventId => if eventId ∈ page.settling then some (page.settle eventId) else none
  | .frame eventType entityId isOwnEcho =>
      some (page.handleCalendarResourceEvent eventType entityId isOwnEcho)

def system (Details : Type) : TransitionSystem (Page Details) (Action Details) where
  Initial := fun page => page = .empty
  step := step

end FrontDashboard.EventDetails
