import FrontDashboard.Listing.Loaders
import FrontDashboard.Overview.Frames
import FrontDashboard.Resync.AsGoodAsFull

/-! # A tab that looks on

A tab that writes nothing itself shows its user's summaries while others, and the user in other
tabs, commit requests one after the other. It applies frames or reloads because of them, a while
later; a stream that is lost is opened again with the mark of the last event that it told of, and
the server answers with what was missed.
-/

namespace FrontDashboard.Overview

open Calendar (TimezoneName Zone)
open Listing (Summaries)
open FrontDashboard.Membership (dashboardAudienceUserIds)
open Resync
open FrontDashboard.Stream (State.advance)

/-! ## The stream -/

/-- What comes over the stream, as far as the summaries and the mark are concerned: frames about
dashboards, frames that other handlers take, and what a connection begins with. -/
inductive Message
  | dashboard (eventId : Nat) (frame : Frame)
  | content (eventId : Nat)
  /-- The page resyncs by itself if it was connected before and had no mark to offer. -/
  | connected (head : Option Nat) (resyncs : Bool)
  | resync (head : Option Nat) (scopes : Option (List String))

variable (zoneInfo : TimezoneName → Zone) (settings : Settings) (user : UserId)

/-- The frames about lists and calendars, to one user. -/
def contents (tables : Tables) (step : Commit) : List Message :=
  match perform zoneInfo settings tables step.request with
  | some (id, .ok (some _)) =>
      match announcement step.request, tables.dashboards.find? fun row => row.id = id with
      | none, some row =>
          if user ∈ dashboardAudienceUserIds row.userId (tables.shares id) then
            [.content step.eventId]
          else []
      | _, _ => []
  | _ => []

/-- What a request that commits sends to one user. -/
def messages (tables : Tables) (createdAt : Time) (step : Commit) : List Message :=
  (frames zoneInfo settings user tables createdAt step.request).map (.dashboard step.eventId) ++
    contents zoneInfo settings user tables step

/-- What a stream begins with that is opened again: with a mark the server decides whether to
resync, without one the page does. -/
def greeting (tables : Tables) (mark : Option Nat) : List Message :=
  let (needed, head, scopes) := tables.connectState mark user
  .connected head mark.isNone :: if needed then [.resync none (resyncDict scopes)] else []

/-! ## The page -/

/-- The answer to a load, with how many of the messages on their way it was drawn after. -/
structure Answer where
  dashboards : List Tables.DashboardSummary
  known : Nat

def Answer.heard (answer : Answer) : Answer := { answer with known := answer.known - 1 }

def Answer.adrift (answer : Answer) : Answer := { answer with known := 0 }

/-- The rows, the stream of one user, and his page: `mark` is the last event that it was told of,
and `due` says that the debounced refresh is scheduled. -/
structure World where
  tables : Tables
  queue : List Message
  mark : Option Nat
  page : Summaries Summary
  answer : Option Answer
  due : Bool

/-- There are summaries, or they are on their way. -/
def World.listing (world : World) : Bool :=
  world.page.summariesLoaded || world.page.summariesLoading || !world.page.summaries.isEmpty

/-- `handleDashboardEvent`, as far as the summaries are concerned, for a frame or for the signal
of a resync. -/
def handleDashboardEvent (world : World) : Option Frame → World
  | none => if world.listing then { world with page := world.page.loadSummaries true } else world
  | some frame =>
      if !world.listing then world
      else if canSkipDashboardSummaryReload frame then
        { world with
          page := { world.page with
            summaries := applyLocalDashboardSummaryUpdate world.page.summaries frame } }
      else { world with due := true }

/-- A resync wants the dashboards. -/
def wantsDashboards (scopes : Option (List String)) : Bool :=
  (resyncRoutes scopes).all fun routes => .dashboard ∈ routes

/-- The handlers of `useSSE`. -/
def receive (world : World) : Message → World
  | .dashboard eventId frame =>
      handleDashboardEvent { world with mark := State.advance world.mark eventId } (some frame)
  | .content eventId => { world with mark := State.advance world.mark eventId }
  | .connected head resyncs =>
      let marked : World := { world with mark := head.or world.mark }
      if resyncs then handleDashboardEvent marked none else marked
  | .resync head scopes =>
      let marked : World := { world with mark := head.elim world.mark (State.advance world.mark) }
      if wantsDashboards scopes then handleDashboardEvent marked none else marked

inductive Action
  | commit (step : Commit) (createdAt : Time)
  /-- The queue overflows, and the head is read for the resync, or cannot be. -/
  | overflow (reads : Bool)
  /-- The stream is lost, with all that was on its way, and opened again. -/
  | reconnect
  | deliver
  | loadSummaries (force : Bool)
  | refresh
  | draw
  | land
  | fail

/-- The step function. -/
def step (world : World) : Action → Option World
  | .commit step createdAt =>
      if ∀ now ∈ stampedAt step.request, now = createdAt then
        (commit zoneInfo settings world.tables step).map fun next => { world with
          tables := next
          queue := world.queue ++ messages zoneInfo settings user world.tables createdAt step }
      else none
  | .overflow reads => some { world with
      queue := [.resync (if reads then world.tables.currentEventId else none) none]
      answer := world.answer.map .adrift }
  | .reconnect => some { world with
      queue := greeting user world.tables world.mark
      answer := world.answer.map .adrift }
  | .deliver =>
      match world.queue with
      | [] => none
      | message :: rest =>
          some (receive { world with queue := rest, answer := world.answer.map .heard } message)
  | .loadSummaries force => some { world with page := world.page.loadSummaries force }
  | .refresh =>
      if world.due then some { world with due := false, page := world.page.loadSummaries true }
      else none
  | .draw =>
      if world.page.flight.awaiting.isSome ∧ world.answer.isNone then
        some { world with
          answer := some ⟨world.tables.listDashboards user, world.queue.length⟩ }
      else none
  | .land => world.answer.map fun answer =>
      { world with page := world.page.answered (answer.dashboards.map .answered), answer := none }
  | .fail =>
      if world.page.flight.awaiting.isSome then
        some { world with page := world.page.failed, answer := none }
      else none

/-- The page has just been opened, and its stream with it. -/
structure Opened (world : World) : Prop where
  constrained : world.tables.Constrained
  bound : world.tables.Bound
  attached : world.tables.Attached
  queue : world.queue = [.connected world.tables.currentEventId false]
  mark : world.mark = none
  page : world.page = .empty
  answer : world.answer = none
  due : world.due = false

def system : TransitionSystem World Action where
  Initial := Opened
  step := step zoneInfo settings user

/-! ## What is admitted -/

namespace Message

/-- The message asks for a reload. -/
def reloads : Message → Bool
  | .dashboard _ frame => !canSkipDashboardSummaryReload frame
  | .content _ => false
  | .connected _ resyncs => resyncs
  | .resync _ scopes => wantsDashboards scopes

/-- The message asks for a reload, or is applied to the summaries. -/
def bears (message : Message) : Bool :=
  message.reloads || match message with
    | .dashboard _ frame => shouldApplyLocalDashboardSummaryTouch frame
    | _ => false

end Message

/-- The frame says of a dashboard what an answer does not have. -/
def Says (frame : Frame) (dashboard : Tables.DashboardSummary) : Prop :=
  dashboard.id = frame.dashboardId ∧
    ¬ (dashboard.version = max frame.entityVersion dashboard.version ∧
      dashboard.updatedAt = frame.createdAt)

/-- A reload is still to come, or the frame changes nothing in an answer on its way that was drawn
before its write. -/
def Timely (world : World) (frame : Frame) (rest : List Message) : Prop :=
  (world.due = true ∨ world.page.flight.queued = true ∨
    ∃ message ∈ rest, message.reloads = true) ∨
  ∀ answer ∈ world.answer, answer.known = 0 →
    shouldApplyLocalDashboardSummaryTouch frame = true →
      ∀ dashboard ∈ answer.dashboards, ¬ Says frame dashboard

/-- The page, as it offers its mark. -/
def World.client (world : World) : Client := ⟨user, world.mark, [.summaries]⟩

/-- A stream that is lost takes nothing with it that bears on the summaries, or what was logged
since the mark has them refetched: too much of it, something the page does not know, or something
about a dashboard that the user sees by now. -/
def MakesUp (world : World) : Prop :=
  (∀ message ∈ world.queue, message.bears = false) ∨
    (world.client user).Unscoped world.tables ∨
      (world.client user).Announced world.tables .summaries

/-- A commit is told, a frame that is applied is timely, a stream that is opened again makes up for
what is lost, and a load fails only while another one follows. -/
def Admits (world : World) : Action → Prop
  | .commit step _ => ¬ Untold user world.tables step.request
  | .reconnect => MakesUp user world
  | .deliver =>
      match world.queue with
      | .dashboard _ frame :: rest =>
          canSkipDashboardSummaryReload frame = true → Timely world frame rest
      | _ => True
  | .fail => world.page.flight.queued = true
  | _ => True

section Decidable

variable (client : Client) (tables : Tables) (event : ActivityEvent) (resource : Resource)

instance : DecidablePred (client.Missed tables) := fun event =>
  inferInstanceAs (Decidable (event ∈ tables.log ∧ _ ∧ _))

instance : Decidable (client.Unscoped tables) :=
  have : Decidable (∃ event, client.Missed tables event ∧ resyncTargets event.entityType = none) :=
    decidable_of_iff (∃ event ∈ tables.log,
        client.Missed tables event ∧ resyncTargets event.entityType = none)
      (exists_congr fun _ => and_iff_right_of_imp fun missed => missed.1.1)
  inferInstanceAs (Decidable (_ ∨ _ ∨ _))

instance : Decidable (client.Announced tables resource) :=
  decidable_of_iff (∃ event ∈ tables.log, client.Missed tables event ∧
      ∃ targets ∈ resyncTargets event.entityType, ∃ route ∈ targets, resource.heeds route)
    (exists_congr fun _ => and_iff_right_of_imp fun missed => missed.1.1)

instance (frame : Frame) (dashboard : Tables.DashboardSummary) : Decidable (Says frame dashboard) :=
  inferInstanceAs (Decidable (_ ∧ ¬ (_ ∧ _)))

instance (world : World) (frame : Frame) (rest : List Message) :
    Decidable (Timely world frame rest) :=
  inferInstanceAs (Decidable ((_ ∨ _ ∨ _) ∨ _))

instance (world : World) : Decidable (MakesUp user world) :=
  inferInstanceAs (Decidable (_ ∨ _ ∨ _))

instance (world : World) (action : Action) : Decidable (Admits user world action) := by
  cases action with
  | deliver =>
      dsimp only [Admits]
      split <;> infer_instance
  | _ => dsimp only [Admits]; infer_instance

end Decidable

end FrontDashboard.Overview
