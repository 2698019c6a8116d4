import Mathlib.Data.List.Basic
import FrontDashboard.Fanout.Manager

/-! # The fan-out between workers

The Redis stream, and of each worker the publisher (`publish`), the reader
(`run_subscriber`) and the clients connected to it. The stream server answers a blocking
read from `$` with entries added after it received the call and a read from an id with the
entries after that id; any call may fail at any time, before or after it took effect.

Of a client the model keeps what reached it: the frames, and how many had been committed
when it was last sent a resync. `since` says how many there were when it connected.
-/

namespace FrontDashboard.Fanout

variable {Message : Type}

/-- A frame as `encode` writes it. -/
structure Frame (Message : Type) where
  origin : Nat
  message : Message
  userIds : Option (List Nat)
  actorId : Nat
  deriving DecidableEq

/-- An entry of the stream; `serial` is the place of its frame among those committed. -/
structure Entry (Message : Type) where
  id : Nat
  serial : Nat
  frame : Frame Message
  deriving DecidableEq

/-- A committed frame that is not published yet; `started` once its publication waits for
the stream. -/
structure Outgoing (Message : Type) where
  serial : Nat
  frame : Frame Message
  started : Option Nat
  deriving DecidableEq

/-- A client of a worker. -/
structure Listener where
  userId : Nat
  since : Nat
  received : List Nat
  resynced : Nat
  deriving DecidableEq, Repr

/-- Where a reader is. -/
inductive Reader (Message : Type)
  /-- Between two calls. -/
  | between
  /-- Its call was received; it is answered with entries after the given id. -/
  | reading (after : Nat)
  /-- It was answered with entries, some of which are not delivered yet. -/
  | delivering (entry : Entry Message) (rest : List (Entry Message))
  deriving DecidableEq

/-- A worker; `lastId` is `none` while it is `$`. -/
structure Worker (Message : Type) where
  workerId : Nat
  outgoing : List (Outgoing Message)
  publishRetryAfter : Nat
  reader : Reader Message
  lastId : Option Nat
  readerDegraded : Bool
  clients : List Listener
  deriving DecidableEq

structure Cluster (Message : Type) where
  now : Nat
  committed : List (Frame Message)
  stream : List (Entry Message)
  nextId : Nat
  workers : List (Worker Message)
  deriving DecidableEq

/-- `_STREAM_MAXLEN`. -/
def streamMaxlen : Nat := 1000

/-- The `count` of a read. -/
def readCount : Nat := 100

/-- `_PUBLISH_BACKOFF_SECONDS`, in milliseconds. -/
def publishBackoff : Nat := 5000

namespace Worker

/-- A worker that has just started. -/
def start (workerId : Nat) : Worker Message where
  workerId := workerId
  outgoing := []
  publishRetryAfter := 0
  reader := .between
  lastId := none
  readerDegraded := false
  clients := []

/-- `manager.deliver_to_all(resync_dict())`. -/
def resyncAll (committed : Nat) (worker : Worker Message) : Worker Message :=
  { worker with clients := worker.clients.map fun client => { client with resynced := committed } }

/-- What a read that was answered does first. -/
def recover (committed : Nat) (worker : Worker Message) : Worker Message :=
  if worker.readerDegraded then { worker.resyncAll committed with readerDegraded := false }
  else worker

/-- `_deliver`. -/
def deliver (entry : Entry Message) (worker : Worker Message) : Worker Message :=
  if entry.frame.origin = worker.workerId then worker
  else
    { worker with
      clients := worker.clients.map fun client =>
        if addresses entry.frame.userIds entry.frame.actorId client.userId then
          { client with received := client.received ++ [entry.serial] }
        else client }

/-- The read call is received by the server; `tail` is the id of the newest entry. -/
def call (tail : Nat) (worker : Worker Message) : Worker Message :=
  { worker with reader := .reading (worker.lastId.getD tail) }

/-- A read fails, or what follows it does. -/
def fail (worker : Worker Message) : Worker Message :=
  { worker with reader := .between, readerDegraded := true }

/-- The reader goes on after an entry. -/
def pass (entry : Entry Message) (rest : List (Entry Message)) (worker : Worker Message) :
    Worker Message :=
  { worker.deliver entry with
    lastId := some entry.id
    reader := match rest with
      | [] => .between
      | next :: rest => .delivering next rest }

end Worker

/-- How an attempt to publish ends: the entry is added or not, and the worker hears of
success or of failure. -/
inductive Outcome
  | succeeded
  | failed (added : Bool)
  deriving DecidableEq

inductive Event (Message : Type)
  | elapse (span : Nat)
  | commit (worker : Nat) (message : Message) (userIds : Option (List Nat)) (actorId : Nat)
  | beginPublish (worker index : Nat)
  | endPublish (worker index : Nat) (outcome : Outcome)
  | trim (count : Nat)
  | call (worker : Nat)
  | answer (worker : Nat)
  | idle (worker : Nat)
  | fail (worker : Nat)
  | deliver (worker : Nat)
  | connect (worker userId : Nat)
  | disconnect (worker index : Nat)

namespace Cluster

def setWorker (cluster : Cluster Message) (index : Nat) (worker : Worker Message) :
    Cluster Message :=
  { cluster with workers := cluster.workers.set index worker }

/-- `xadd`. -/
def add (cluster : Cluster Message) (outgoing : Outgoing Message) : Cluster Message :=
  { cluster with
    stream := cluster.stream ++ [⟨cluster.nextId, outgoing.serial, outgoing.frame⟩]
    nextId := cluster.nextId + 1 }

/-- The entries a read after an id is answered with. -/
def entriesAfter (cluster : Cluster Message) (after : Nat) : List (Entry Message) :=
  (cluster.stream.filter fun entry => after < entry.id).take readCount

/-- The id of the newest entry ever. -/
def tail (cluster : Cluster Message) : Nat := cluster.nextId - 1

/-- A write is committed on a worker, and its frame awaits publication. -/
def commit (cluster : Cluster Message) (index : Nat) (worker : Worker Message)
    (message : Message) (userIds : Option (List Nat)) (actorId : Nat) : Cluster Message :=
  let frame := ⟨worker.workerId, message, userIds, actorId⟩
  { cluster.setWorker index { worker with
      outgoing := worker.outgoing ++ [⟨cluster.committed.length, frame, none⟩] } with
    committed := cluster.committed ++ [frame] }

/-- `publish`, up to the call: within the backoff the frame is given up. -/
def beginPublish (cluster : Cluster Message) (index : Nat) (worker : Worker Message)
    (place : Nat) (outgoing : Outgoing Message) : Cluster Message :=
  cluster.setWorker index { worker with
    outgoing :=
      if cluster.now < worker.publishRetryAfter then worker.outgoing.eraseIdx place
      else worker.outgoing.set place { outgoing with started := some cluster.now } }

/-- `publish`, from the call on. -/
def endPublish (cluster : Cluster Message) (index : Nat) (worker : Worker Message)
    (place : Nat) (outgoing : Outgoing Message) (started : Nat) (outcome : Outcome) :
    Cluster Message :=
  let rest := worker.outgoing.eraseIdx place
  match outcome with
  | .succeeded =>
      (cluster.add outgoing).setWorker index
        { worker with outgoing := rest, publishRetryAfter := 0 }
  | .failed added =>
      (if added then cluster.add outgoing else cluster).setWorker index
        { worker with outgoing := rest, publishRetryAfter := started + publishBackoff }

/-- The read is answered. -/
def answer (cluster : Cluster Message) (index : Nat) (worker : Worker Message)
    (entry : Entry Message) (rest : List (Entry Message)) : Cluster Message :=
  cluster.setWorker index
    { worker.recover cluster.committed.length with reader := .delivering entry rest }

/-- The read is answered with nothing. -/
def idle (cluster : Cluster Message) (index : Nat) (worker : Worker Message) : Cluster Message :=
  cluster.setWorker index { worker.recover cluster.committed.length with reader := .between }

def connect (cluster : Cluster Message) (index : Nat) (worker : Worker Message) (userId : Nat) :
    Cluster Message :=
  cluster.setWorker index
    { worker with clients := worker.clients ++ [⟨userId, cluster.committed.length, [], 0⟩] }

/-- The step function. -/
def step (cluster : Cluster Message) : Event Message → Option (Cluster Message)
  | .elapse span => some { cluster with now := cluster.now + span }
  | .commit index message userIds actorId =>
      cluster.workers[index]?.map fun worker =>
        cluster.commit index worker message userIds actorId
  | .beginPublish index place => do
      let worker ← cluster.workers[index]?
      let outgoing ← worker.outgoing[place]?
      match outgoing.started with
      | none => some (cluster.beginPublish index worker place outgoing)
      | some _ => none
  | .endPublish index place outcome => do
      let worker ← cluster.workers[index]?
      let outgoing ← worker.outgoing[place]?
      let started ← outgoing.started
      some (cluster.endPublish index worker place outgoing started outcome)
  | .trim count =>
      if count + streamMaxlen ≤ cluster.stream.length then
        some { cluster with stream := cluster.stream.drop count }
      else none
  | .call index => do
      let worker ← cluster.workers[index]?
      match worker.reader with
      | .between => some (cluster.setWorker index (worker.call cluster.tail))
      | _ => none
  | .answer index => do
      let worker ← cluster.workers[index]?
      match worker.reader with
      | .reading after =>
          match cluster.entriesAfter after with
          | entry :: rest => some (cluster.answer index worker entry rest)
          | [] => none
      | _ => none
  | .idle index => do
      let worker ← cluster.workers[index]?
      match worker.reader with
      | .reading after =>
          match cluster.entriesAfter after with
          | _ :: _ => none
          | [] => some (cluster.idle index worker)
      | _ => none
  | .fail index =>
      cluster.workers[index]?.map fun worker => cluster.setWorker index worker.fail
  | .deliver index => do
      let worker ← cluster.workers[index]?
      match worker.reader with
      | .delivering entry rest => some (cluster.setWorker index (worker.pass entry rest))
      | _ => none
  | .connect index userId =>
      cluster.workers[index]?.map fun worker => cluster.connect index worker userId
  | .disconnect index place =>
      cluster.workers[index]?.map fun worker =>
        cluster.setWorker index { worker with clients := worker.clients.eraseIdx place }

variable (Message) in
/-- Any number of workers beside one stream, all just started. -/
def system : TransitionSystem (Cluster Message) (Event Message) where
  Initial := fun cluster => ∃ workers : List Nat,
    cluster = ⟨0, [], [], 1, workers.map Worker.start⟩
  step := step

end Cluster

end FrontDashboard.Fanout
