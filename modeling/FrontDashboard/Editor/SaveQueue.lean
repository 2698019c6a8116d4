import FrontDashboard.Boards.Rebase

/-! # The calls of `saveLayout`

Each drag calls `saveLayout`. A call drains the pending layouts, or leaves its layout to
the call that already does; which of the two is decided by a flag of the store, so that
nothing but the flag keeps two calls from sending at once. An `await` suspends a call,
and it goes on when its reply lands or fails. One dashboard stays open, and the server
answers its requests and no one else's.

The last layout requested, the last one sent, and whether a reply failed or a PUT was
refused are recorded and influence nothing.
-/

namespace FrontDashboard.Editor.SaveQueue

open Boards

/-- `PendingLayoutSave`. -/
structure PendingLayoutSave where
  dashboardId : String
  layout : Layout
  retried : Bool
  deriving DecidableEq

/-- `UpdateLayoutResult`; of a dashboard saved, the version. -/
inductive UpdateLayoutResult
  | conflict
  | saved (version : Nat)
  deriving DecidableEq

/-- What a call awaits, and the reply once the server has given one. -/
inductive Awaited
  | put (version : Nat) (reply : Option UpdateLayoutResult)
  | rebase (reply : Option (Layout × Nat))
  deriving DecidableEq

/-- A call that is suspended, with the layout of its pass. -/
structure Call where
  pending : PendingLayoutSave
  awaited : Awaited
  deriving DecidableEq

structure Saves where
  /-- The dashboard held: its id, its version and its widgets. -/
  dashboardId : String
  version : Nat
  widgets : List String
  conflict : Bool
  layoutSaveInFlight : Bool
  pendingLayoutSave : Option PendingLayoutSave
  calls : List Call
  /-- The dashboard's row: its layout and its version. -/
  stored : Layout
  storedVersion : Nat
  requested : Option Layout
  sent : Option Layout
  failed : Bool
  refused : Bool

namespace Saves

/-- The call ends, and releases the flag. -/
def finish (saves : Saves) : Saves :=
  { saves with pendingLayoutSave := none, layoutSaveInFlight := false }

/-- A PUT goes out. -/
def send (pending : PendingLayoutSave) (saves : Saves) : Saves :=
  { saves with
    pendingLayoutSave := none
    calls := saves.calls ++ [⟨pending, .put saves.version none⟩]
    sent := some pending.layout }

/-- The loop of `saveLayout` up to its next `await`. -/
def drain (saves : Saves) : Saves :=
  match saves.pendingLayoutSave with
  | none => saves.finish
  | some pending =>
      if saves.dashboardId = pending.dashboardId then saves.send pending else saves.finish

/-- `saveLayout`, called with the layout of a drag. -/
def saveLayout (layout : Layout) (saves : Saves) : Saves :=
  let queued : Saves :=
    { saves with
      pendingLayoutSave := some ⟨saves.dashboardId, layout, false⟩
      requested := some layout }
  if saves.layoutSaveInFlight then queued
  else { queued with layoutSaveInFlight := true }.drain

/-- Stop, with the banner. -/
def giveUp (saves : Saves) : Saves := { saves.finish with conflict := true }

/-- The PUT conflicted: read the dashboard again, unless this was the replay. -/
def landConflict (pending : PendingLayoutSave) (saves : Saves) : Saves :=
  if pending.retried then saves.giveUp
  else { saves with calls := saves.calls ++ [⟨pending, .rebase none⟩] }

/-- The PUT was accepted. -/
def landSaved (version : Nat) (saves : Saves) : Saves :=
  { saves with version, conflict := false }.drain

/-- The dashboard was read again: the replay is queued, unless a newer layout is. -/
def landRebased (pending : PendingLayoutSave) (server : Layout × Nat) (saves : Saves) : Saves :=
  let replay : PendingLayoutSave :=
    ⟨pending.dashboardId, rebaseLayout server.1 pending.layout, true⟩
  { saves with
    version := server.2
    pendingLayoutSave := saves.pendingLayoutSave.or (some replay) }.drain

/-- The reply of a call lands, once the server has given it. -/
def land (call : Call) (saves : Saves) : Option Saves :=
  match call.awaited with
  | .put _ (some .conflict) => some (saves.landConflict call.pending)
  | .put _ (some (.saved version)) => some (saves.landSaved version)
  | .rebase (some server) => some (saves.landRebased call.pending server)
  | _ => none

/-- The request of a call fails: an error for a PUT, the banner for a rebase. -/
def fail (call : Call) (saves : Saves) : Saves :=
  match call.awaited with
  | .put _ _ => saves.finish
  | .rebase _ => saves.giveUp

/-- `update_layout`: the layout is stored if the version is the current one. -/
def updateLayout (index : Nat) (pending : PendingLayoutSave) (version : Nat) (saves : Saves) :
    Saves :=
  if saves.storedVersion = version then
    { saves with
      stored := pending.layout
      storedVersion := saves.storedVersion + 1
      calls := saves.calls.set index
        ⟨pending, .put version (some (.saved (saves.storedVersion + 1)))⟩ }
  else
    { saves with
      calls := saves.calls.set index ⟨pending, .put version (some .conflict)⟩
      refused := true }

/-- The server answers the request of a call. -/
def serve (index : Nat) (call : Call) (saves : Saves) : Option Saves :=
  match call.awaited with
  | .put version none => some (saves.updateLayout index call.pending version)
  | .rebase none =>
      some { saves with
        calls := saves.calls.set index
          ⟨call.pending, .rebase (some (saves.stored, saves.storedVersion))⟩ }
  | _ => none

/-- The calls without the one that goes on. -/
def resume (index : Nat) (saves : Saves) : Saves :=
  { saves with calls := saves.calls.eraseIdx index }

/-- The PUTs in flight. -/
def puts (saves : Saves) : List Call :=
  saves.calls.filter fun call => match call.awaited with
    | .put _ _ => true
    | .rebase _ => false

end Saves

inductive Action
  /-- A drag ends with a layout that has an entry for each widget. -/
  | drag (layout : Layout)
  | serve (index : Nat)
  | land (index : Nat)
  /-- The reply is an error, or is lost. -/
  | fail (index : Nat)
  deriving DecidableEq

def step (saves : Saves) (action : Action) : Option Saves :=
  match action with
  | .drag layout =>
      if (layout.map Boards.LayoutItem.i).Perm saves.widgets then some (saves.saveLayout layout)
      else none
  | .serve index => saves.calls[index]?.bind fun call => saves.serve index call
  | .land index => saves.calls[index]?.bind fun call => (saves.resume index).land call
  | .fail index => saves.calls[index]?.map fun call =>
      { (saves.resume index).fail call with failed := true }

/-- A dashboard has just been opened. -/
structure Opened (saves : Saves) : Prop where
  unique : saves.widgets.Nodup
  idle : saves.layoutSaveInFlight = false
  nothingPending : saves.pendingLayoutSave = none
  noCalls : saves.calls = []
  current : saves.version = saves.storedVersion
  nothingRequested : saves.requested = none
  nothingSent : saves.sent = none
  nothingFailed : saves.failed = false
  nothingRefused : saves.refused = false

def system : TransitionSystem Saves Action where
  Initial := Opened
  step := step

end FrontDashboard.Editor.SaveQueue
