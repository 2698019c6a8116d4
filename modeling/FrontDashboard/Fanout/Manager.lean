import FrontDashboard.Library.TransitionSystem

/-! # The event streams of one worker

`SseManager` with the clients whose streams are open on it, and `stream_events` of each.
A client leaves the model when its stream ends: it is unregistered by then, and nothing
refers to it any more. A revoked client is unregistered first and its stream ends later.

Three fields record history and influence nothing: what was offered to the client so far,
what its stream has yielded, and whether its session was revoked. A queued frame carries
its place among those offered, and a resync how many had been offered when it was yielded.
-/

namespace FrontDashboard.Fanout

variable {Message : Type}

/-- What a client's queue holds: a frame, `OVERFLOW_SENTINEL` or `REVOKED_SENTINEL`. -/
inductive Item (Message : Type)
  | frame (serial : Nat) (message : Message)
  | overflow
  | revoked
  deriving DecidableEq

/-- What a stream yields. -/
inductive Sent (Message : Type)
  | connected (watermark : Option Nat)
  | resync (scopes : Option (List String)) (lastEventId : Option Nat) (offered : Nat)
  | frame (serial : Nat) (message : Message)
  deriving DecidableEq

/-- Where a stream is. -/
inductive Phase
  /-- Registered; the connected frame comes next. -/
  | started
  /-- The connected frame is sent, the resync frame comes next. -/
  | resyncDue
  /-- At the head of the loop. -/
  | looping
  /-- Awaiting `revalidate`. -/
  | revalidating
  /-- Awaiting the queue. -/
  | waiting
  /-- The overflow sentinel is dequeued; awaiting `read_head`. -/
  | readingHead
  deriving DecidableEq

/-- `_QUEUE_MAX`. -/
def queueMax : Nat := 256

/-- Whom a frame is for: its audience, or the actor alone where that is empty or absent. -/
def addresses (userIds : Option (List Nat)) (actorId userId : Nat) : Bool :=
  if (userIds.getD []).isEmpty then userId = actorId else userId ∈ userIds.getD []

/-- A `_Client` with its stream. -/
structure Client (Message : Type) where
  userId : Nat
  sessionId : Nat
  sendResync : Bool
  watermark : Option Nat
  resyncScopes : Option (List String)
  registered : Bool
  queue : List (Item Message)
  resyncPending : Bool
  phase : Phase
  revoked : Bool
  offered : List Message
  sent : List (Sent Message)

/-- What the stream of a connecting client is opened with. -/
structure Connection where
  userId : Nat
  sessionId : Nat
  sendResync : Bool
  watermark : Option Nat
  resyncScopes : Option (List String)
  deriving DecidableEq

namespace Client

/-- `SseManager.connect`. -/
def connect (connection : Connection) : Client Message where
  userId := connection.userId
  sessionId := connection.sessionId
  sendResync := connection.sendResync
  watermark := connection.watermark
  resyncScopes := connection.resyncScopes
  registered := true
  queue := []
  resyncPending := false
  phase := .started
  revoked := false
  offered := []
  sent := []

/-- `_overflow`. -/
def overflow (client : Client Message) : Client Message :=
  { client with queue := [.overflow], resyncPending := true }

/-- One frame for one client: dropped while a resync is pending, and one too many for its
queue overflows it. -/
def offer (message : Message) (client : Client Message) : Client Message :=
  let noted := { client with offered := client.offered ++ [message] }
  if client.resyncPending then noted
  else if client.queue.length < queueMax then
    { noted with queue := client.queue ++ [.frame client.offered.length message] }
  else noted.overflow

/-- What `disconnect_session` does to a client of the session. -/
def revoke (client : Client Message) : Client Message :=
  { client with queue := [.revoked], registered := false, revoked := true }

/-- Whether a broadcast addresses the client. -/
def addressed (userIds : Option (List Nat)) (actorId : Nat) (client : Client Message) : Bool :=
  addresses userIds actorId client.userId

def yield (sent : Sent Message) (phase : Phase) (client : Client Message) : Client Message :=
  { client with phase := phase, sent := client.sent ++ [sent] }

end Client

/-- What happens to a stream next, as far as the clock, the database and the consumer
decide it. -/
inductive StreamAction
  | greet
  | resync
  | expire
  | checkSession
  | revalidated (live : Bool)
  | await
  | timeout
  | dequeue
  | headRead (head : Option Nat)
  | close
  deriving DecidableEq

/-- `stream_events`, up to its next await or yield; `some none` is its end. -/
def Client.advance (client : Client Message) : StreamAction → Option (Option (Client Message))
  | .greet =>
      match client.phase with
      | .started =>
          some (some (client.yield (.connected client.watermark)
            (if client.sendResync then .resyncDue else .looping)))
      | _ => none
  | .resync =>
      match client.phase with
      | .resyncDue =>
          some (some (client.yield (.resync client.resyncScopes none client.offered.length)
            .looping))
      | _ => none
  | .expire =>
      match client.phase with
      | .looping => some none
      | _ => none
  | .checkSession =>
      match client.phase with
      | .looping => some (some { client with phase := .revalidating })
      | _ => none
  | .revalidated live =>
      match client.phase with
      | .revalidating => some (if live then some { client with phase := .waiting } else none)
      | _ => none
  | .await =>
      match client.phase with
      | .looping => some (some { client with phase := .waiting })
      | _ => none
  | .timeout =>
      match client.phase with
      | .waiting => some (some { client with phase := .looping })
      | _ => none
  | .dequeue =>
      match client.phase, client.queue with
      | .waiting, .frame serial message :: rest =>
          some (some ({ client with queue := rest }.yield (.frame serial message) .looping))
      | .waiting, .overflow :: rest =>
          some (some { client with queue := rest, phase := .readingHead })
      | .waiting, .revoked :: _ => some none
      | _, _ => none
  | .headRead head =>
      match client.phase with
      | .readingHead =>
          some (some ({ client with resyncPending := false }.yield
            (.resync none head client.offered.length) .looping))
      | _ => none
  | .close => some none

/-- The clients whose streams are open. -/
abbrev State (Message : Type) := List (Client Message)

namespace State

def broadcast (message : Message) (userIds : Option (List Nat)) (actorId : Nat)
    (state : State Message) : State Message :=
  state.map fun client =>
    if client.registered && client.addressed userIds actorId then client.offer message else client

def deliverToAll (message : Message) (state : State Message) : State Message :=
  state.map fun client => if client.registered then client.offer message else client

def disconnectSession (sessionId : Nat) (state : State Message) : State Message :=
  state.map fun client =>
    if client.registered && client.sessionId = sessionId then client.revoke else client

end State

inductive Action (Message : Type)
  | connect (connection : Connection)
  | broadcast (message : Message) (userIds : Option (List Nat)) (actorId : Nat)
  | deliverToAll (message : Message)
  | disconnectSession (sessionId : Nat)
  | stream (index : Nat) (action : StreamAction)

/-- The step function. -/
def step (state : State Message) : Action Message → Option (State Message)
  | .connect connection => some (state ++ [.connect connection])
  | .broadcast message userIds actorId => some (state.broadcast message userIds actorId)
  | .deliverToAll message => some (state.deliverToAll message)
  | .disconnectSession sessionId => some (state.disconnectSession sessionId)
  | .stream index action =>
      match state[index]? with
      | none => none
      | some client =>
          match client.advance action with
          | none => none
          | some none => some (state.eraseIdx index)
          | some (some after) => some (state.set index after)

variable (Message) in
/-- One worker's streams, from none on. -/
def system : TransitionSystem (State Message) (Action Message) where
  Initial := fun state => state = []
  step := step

end FrontDashboard.Fanout
