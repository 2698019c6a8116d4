import Mathlib.Data.List.Basic
import FrontDashboard.Library.TransitionSystem

/-! # The event stream of one client

The activity log, the broadcasts its events still await, the server's side of one
client's stream and the client's side of it. A stream is opened with the client's
mark, reads the log's head, registers its queue, sends the connected frame and,
when the log has moved past the mark, a resync frame; then it sends what is
queued. A queue that overflows is replaced by a sentinel, which the stream turns
into a resync frame.

Three fields record history and influence nothing: the ids delivered to the
client, the ids a resync has covered, and the baseline from which the client
follows the log.
-/

namespace FrontDashboard.Stream

/-- A row of the activity log, and whether it is addressed to the client's user. -/
structure ActivityEvent where
  id : Nat
  addressed : Bool
  deriving DecidableEq, Repr

/-- What a client's queue holds: a frame, or `OVERFLOW_SENTINEL`. -/
inductive Frame
  | event (id : Nat)
  | overflow
  deriving DecidableEq, Repr

/-- `_QUEUE_MAX`. -/
def queueMax : Nat := 256

/-- How far a stream has come. -/
inductive Phase
  /-- No stream. -/
  | closed
  /-- The client has asked for a stream with a mark, or without one. -/
  | opening (watermark : Option Nat)
  /-- `_connect_state` has read the head and decided whether a resync is needed. -/
  | headRead (head : Option Nat) (needed : Bool)
  /-- The queue is registered; the connected frame comes next. -/
  | registered (head : Option Nat) (needed : Bool)
  /-- The connected frame is sent, the resync frame comes next; `before` is the mark
  the connected frame replaced. -/
  | resyncDue (before : Option Nat)
  /-- The stream sends what is queued. -/
  | live
  /-- The sentinel is dequeued and the head read; the resync frame comes next. -/
  | catchingUp (head : Option Nat)
  deriving DecidableEq, Repr

structure State where
  log : List ActivityEvent
  awaiting : List Nat
  phase : Phase
  queue : List Frame
  resyncPending : Bool
  mark : Option Nat
  needsResync : Bool
  serverDecidesResync : Bool
  delivered : List Nat
  resynced : List Nat
  baseline : Option Nat
  deriving Repr

/-- A page that has opened no stream yet, beside a log with some history. -/
def State.fresh (log : List ActivityEvent) : State where
  log := log
  awaiting := []
  phase := .closed
  queue := []
  resyncPending := false
  mark := none
  needsResync := false
  serverDecidesResync := false
  delivered := []
  resynced := []
  baseline := none

/-- `current_event_id`. -/
def currentEventId (log : List ActivityEvent) : Option Nat :=
  log.getLast?.map (·.id)

/-- `_resync_needed`. -/
def resyncNeeded (watermark head : Option Nat) : Bool :=
  match watermark, head with
  | none, _ => false
  | some _, none => false
  | some watermark, some head => watermark < head

/-- The mark has reached the event. -/
def Passed (mark : Option Nat) (id : Nat) : Prop := id ≤ mark.getD 0

instance (mark : Option Nat) (id : Nat) : Decidable (Passed mark id) :=
  inferInstanceAs (Decidable (_ ≤ _))

/-- Whether the queue is registered with the manager. -/
def Phase.isRegistered : Phase → Bool
  | .registered _ _ | .resyncDue _ | .live | .catchingUp _ => true
  | _ => false

/-- Whether the stream sends from its queue. -/
def Phase.isSending : Phase → Bool
  | .live | .catchingUp _ => true
  | _ => false

namespace State

/-- A row commits; one addressed to the client will be broadcast. -/
def append (event : ActivityEvent) (state : State) : State :=
  { state with
    log := state.log ++ [event]
    awaiting := if event.addressed then state.awaiting ++ [event.id] else state.awaiting }

/-- `SseManager.broadcast`, for this client's queue: a frame is dropped while a
resync is pending, and one too many drains the queue to the sentinel. -/
def enqueue (id : Nat) (state : State) : State :=
  if state.resyncPending then state
  else if state.queue.length < queueMax then { state with queue := state.queue ++ [.event id] }
  else { state with queue := [.overflow], resyncPending := true }

/-- The broadcast of an event reaches the queue if it is registered. -/
def broadcast (id : Nat) (state : State) : State :=
  let announced : State := { state with awaiting := state.awaiting.erase id }
  if state.phase.isRegistered then announced.enqueue id else announced

/-- A resync reaches a client whose mark was `before` when the answer began: it
covers every committed event that mark had not passed. -/
def cover (before : Option Nat) (state : State) : State :=
  { state with resynced := state.resynced ++
      (state.log.map (·.id)).filter fun id => !decide (Passed before id) }

/-- The client opens a stream, with its mark when it reconnects. -/
def openStream (state : State) : State :=
  { state with
    phase := .opening (if state.needsResync then state.mark else none)
    serverDecidesResync := state.needsResync && state.mark.isSome }

/-- `_connect_state`. -/
def connectState (watermark : Option Nat) (state : State) : State :=
  let head := currentEventId state.log
  { state with phase := .headRead head (resyncNeeded watermark head) }

/-- `SseManager.connect`. -/
def connect (head : Option Nat) (needed : Bool) (state : State) : State :=
  { state with phase := .registered head needed, queue := [], resyncPending := false }

/-- The mark and the baseline after a connected frame. -/
def follow (head : Option Nat) (state : State) : State :=
  { state with
    mark := head.or state.mark
    baseline := state.baseline.or (some (head.getD 0)) }

/-- `onConnected`. -/
def onConnected (head : Option Nat) (state : State) : State :=
  let marked := state.follow head
  if state.needsResync then
    let answered : State := { marked with needsResync := false }
    if state.serverDecidesResync then answered else answered.cover state.mark
  else marked

/-- The connected frame is sent and received. -/
def greet (head : Option Nat) (needed : Bool) (state : State) : State :=
  { state.onConnected head with phase := if needed then .resyncDue state.mark else .live }

/-- The resync frame is sent and received. -/
def resync (before : Option Nat) (state : State) : State :=
  { state.cover before with phase := .live }

/-- The mark after a frame that carries an id. -/
def advance (mark : Option Nat) (id : Nat) : Option Nat :=
  if mark.getD 0 < id then some id else mark

/-- `readActivityFrame`, for the frame at the front of the queue. -/
def deliver (id : Nat) (rest : List Frame) (state : State) : State :=
  { state with
    queue := rest, delivered := state.delivered ++ [id], mark := advance state.mark id }

/-- The sentinel is dequeued; reading the head may fail. -/
def catchUp (reads : Bool) (rest : List Frame) (state : State) : State :=
  { state with
    queue := rest, phase := .catchingUp (if reads then currentEventId state.log else none) }

/-- The resync frame that answers an overflow. -/
def refresh (head : Option Nat) (state : State) : State :=
  { state.cover state.mark with
    phase := .live, resyncPending := false
    mark := match head with
      | some head => advance state.mark head
      | none => state.mark }

/-- The stream ends, for whatever reason, and the client will reconnect. -/
def disconnect (state : State) : State :=
  { state with phase := .closed, queue := [], resyncPending := false, needsResync := true }

end State

/-- The steps of the log, of the stream and of the connection. -/
inductive Action
  | commit (event : ActivityEvent)
  | broadcast (id : Nat)
  | openStream
  | readHead
  | register
  | greet
  | resync
  | deliver
  | catchUp (reads : Bool)
  | refresh
  | disconnect
  deriving DecidableEq, Repr

/-- The step function. Rows commit in the order of their ids. -/
def step (state : State) : Action → Option State
  | .commit event =>
      if (currentEventId state.log).getD 0 < event.id then some (state.append event) else none
  | .broadcast id => if id ∈ state.awaiting then some (state.broadcast id) else none
  | .openStream =>
      match state.phase with
      | .closed => some state.openStream
      | _ => none
  | .readHead =>
      match state.phase with
      | .opening watermark => some (state.connectState watermark)
      | _ => none
  | .register =>
      match state.phase with
      | .headRead head needed => some (state.connect head needed)
      | _ => none
  | .greet =>
      match state.phase with
      | .registered head needed => some (state.greet head needed)
      | _ => none
  | .resync =>
      match state.phase with
      | .resyncDue before => some (state.resync before)
      | _ => none
  | .deliver =>
      match state.phase, state.queue with
      | .live, .event id :: rest => some (state.deliver id rest)
      | _, _ => none
  | .catchUp reads =>
      match state.phase, state.queue with
      | .live, .overflow :: rest => some (state.catchUp reads rest)
      | _, _ => none
  | .refresh =>
      match state.phase with
      | .catchingUp head => some (state.refresh head)
      | _ => none
  | .disconnect =>
      match state.phase with
      | .closed => none
      | _ => some state.disconnect

/-- One client beside the log, whose history so far is in the order of its ids. -/
def system : TransitionSystem State Action where
  Initial := fun state => ∃ log, state = .fresh log ∧ (log.map (·.id)).Pairwise (· < ·) ∧
    ∀ event ∈ log, 0 < event.id
  step := step

end FrontDashboard.Stream
