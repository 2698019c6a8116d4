import FrontDashboard.Editor.Board
import FrontDashboard.Library.InsertionMap

/-! # The dashboard store of one client

The dashboard the editor holds, the coroutines that load dashboards and save
layouts, the requests of the other mutations, and what the grid shows. An `await`
splits an action in two: what runs before it happens when the action is called, and
what runs after it happens when the response lands.

Two kinds of history are recorded and influence nothing. A layout remembers at which
versions it was read and which entries the user's gestures placed; and the store remembers
its last foreground load and what became of it.
-/

namespace FrontDashboard.Editor

/-! ## Data -/

/-- Where a layout was read: the dashboard, the version of it that was drawn on, and the
version that was last read to rebase the layout. -/
structure Reading where
  dashboard : Nat
  since : Nat
  upTo : Nat
  deriving DecidableEq

/-- A layout in the client's hands, with the widgets that the user's own gestures placed. -/
structure Arrangement where
  items : List LayoutItem
  reading : Option Reading
  moved : List Nat

/-- A dashboard as the client holds it. -/
structure Dashboard where
  id : Nat
  name : String
  layout : Arrangement
  widgets : List DashboardWidget
  version : Nat

/-- `NormalizedLoadDashboardOptions`. -/
structure LoadOptions where
  background : Bool
  surfaceAccessLoss : Bool
  deriving DecidableEq, Repr

def LoadOptions.foreground : LoadOptions := ⟨false, false⟩

/-- `InFlightDashboardLoad`, with the response to its request once there is one. -/
structure Load where
  id : Nat
  options : LoadOptions
  queuedOptions : Option LoadOptions
  latestRequestSerial : Nat
  response : Option Dashboard

/-- What became of the request of a foreground load. -/
inductive Answer
  | waiting (load : Nat)
  | succeeded
  | failed
  deriving DecidableEq, Repr

/-- A foreground load. -/
structure Navigation where
  dashboard : Nat
  answer : Answer
  deriving DecidableEq, Repr

/-- `PendingLayoutSave`. -/
structure PendingLayoutSave where
  dashboardId : Nat
  layout : Arrangement
  retried : Bool

/-- `UpdateLayoutResult`. -/
inductive UpdateLayoutResult
  | conflict
  | saved (dashboard : Dashboard)

/-- What the drain of `saveLayout` awaits. -/
inductive SaveRequest
  | put (version : Nat) (reply : Option UpdateLayoutResult)
  | rebase (reply : Option Dashboard)

/-- The dashboard a reply to the drain brings. -/
def SaveRequest.reply : SaveRequest → Option Dashboard
  | .put _ (some (.saved saved)) => some saved
  | .rebase reply => reply
  | _ => none

/-- The pass of the drain that is under way. -/
structure Drain where
  pending : PendingLayoutSave
  request : SaveRequest

/-- The other mutations of a dashboard. -/
inductive Mutation
  | addWidget (resourceId : Option Nat) (config : String)
  | removeWidget (widget : Nat)
  | updateWidget (widget : Nat) (config : String)
  | renameDashboard (name : String)
  deriving DecidableEq, Repr

/-- Whether the answer replaces the dashboard held. -/
def Mutation.replaces : Mutation → Bool
  | .addWidget _ _ | .removeWidget _ => true
  | _ => false

/-- Whether the answer renames the dashboard held. -/
def Mutation.renames : Mutation → Bool
  | .renameDashboard _ => true
  | _ => false

/-- A mutation's request: the dashboard it names, and the dashboard the server
answered from. -/
structure Request where
  dashboardId : Nat
  mutation : Mutation
  reply : Option Dashboard

/-- The grid's draft of a layout. -/
structure Draft where
  layout : Arrangement
  baseVersion : Nat

structure Client where
  dashboard : Option Dashboard
  loading : Bool
  loadError : Bool
  conflict : Bool
  connected : Bool
  loads : InsertionMap Nat Load
  inFlightDashboardLoad : Option Nat
  latestDashboardRequest : Option (Nat × Nat)
  dashboardRefresh : Option (Nat × Bool)
  pendingLayoutSave : Option PendingLayoutSave
  drain : Option Drain
  requests : InsertionMap Nat Request
  draft : Option Draft
  gesture : Option Arrangement
  navigation : Option Navigation

/-- A page that has just been opened. -/
def Client.fresh : Client where
  dashboard := none
  loading := false
  loadError := false
  conflict := false
  connected := false
  loads := .empty
  inFlightDashboardLoad := none
  latestDashboardRequest := none
  dashboardRefresh := none
  pendingLayoutSave := none
  drain := none
  requests := .empty
  draft := none
  gesture := none
  navigation := none

/-- What the server answers with. -/
def Board.response (id : Nat) (board : Board) : Dashboard where
  id := id
  name := board.name
  layout := ⟨board.layout.current, some ⟨id, board.layout.version, board.layout.version⟩, []⟩
  widgets := board.widgets
  version := board.layout.version

/-! ## Layouts -/

namespace Arrangement

/-- A layout with other entries, which nobody has read. -/
def change (items : List LayoutItem) (layout : Arrangement) : Arrangement :=
  { layout with items, reading := if items = layout.items then layout.reading else none }

/-- `rebaseLayout`: the server's entries with ours over them, and then the entries
the server does not know. -/
def rebase (server ours : Arrangement) : Arrangement where
  items :=
    (server.items.map fun item => (entry ours.items item.i).getD item) ++
      ours.items.filter fun item => item.i ∉ server.items.map (·.i)
  reading := ours.reading.bind fun own =>
    (server.reading.filter fun theirs => theirs.dashboard = own.dashboard ∧
      own.upTo ≤ theirs.upTo).map fun theirs => { own with upTo := theirs.upTo }
  moved := ours.moved

/-- What the grid reports when a gesture ends: an entry for each of its children,
from the gesture, from what it showed, or made up for a child that has none. -/
def arrange (widgets : List DashboardWidget) (gestured fitted : List LayoutItem)
    (shown : Arrangement) : Arrangement where
  items := widgets.filterMap fun widget =>
    ((entry gestured widget.id).or (entry shown.items widget.id)).or (entry fitted widget.id)
  reading := shown.reading
  moved := gestured.map (·.i) ++ shown.moved

end Arrangement

/-- `sameLayout`. -/
def sameLayout (first second : List LayoutItem) : Bool :=
  first.length == second.length && second.all fun item => entry first item.i == some item

namespace Client

/-! ## Loading -/

/-- `isLatestDashboardRequest`. -/
def isLatest (load : Load) (client : Client) : Bool :=
  client.latestDashboardRequest == some (load.id, load.latestRequestSerial)

/-- The serial `beginDashboardRequest` returns. -/
def nextSerial (client : Client) : Nat :=
  (client.latestDashboardRequest.map (·.2)).getD 0 + 1

/-- `beginDashboardRequest`. -/
def beginDashboardRequest (id : Nat) (client : Client) : Client :=
  { client with latestDashboardRequest := some (id, client.nextSerial) }

/-- The store's flags when a request goes out. -/
def startLoading (options : LoadOptions) (client : Client) : Client :=
  if options.background then client else { client with loading := true, loadError := false }

/-- `mergeDashboardLoadOptions`. -/
def mergeOptions (current : Option LoadOptions) (next : LoadOptions) : LoadOptions :=
  match current with
  | none => next
  | some current =>
      ⟨current.background && next.background, current.surfaceAccessLoss || next.surfaceAccessLoss⟩

/-- `dashboardLoadSatisfiesRequest`. -/
def satisfiesRequest (current requested : LoadOptions) : Bool :=
  (requested.background || !current.background) &&
    (!requested.surfaceAccessLoss || current.surfaceAccessLoss)

/-- The load that `inFlightDashboardLoad` points to, if it is one of the dashboard. -/
def joined (id : Nat) (client : Client) : Option (Nat × Load) :=
  client.inFlightDashboardLoad.bind fun key =>
    (client.loads.get key).bind fun load => if load.id = id then some (key, load) else none

/-- A load of the same dashboard joins the one in flight. -/
def join (key : Nat) (load : Load) (requested : LoadOptions) (client : Client) : Client :=
  let queued := requested.background || !satisfiesRequest load.options requested
  let next : Load :=
    { load with
      latestRequestSerial := client.nextSerial
      queuedOptions :=
        if queued then some (mergeOptions load.queuedOptions requested) else load.queuedOptions }
  { client.beginDashboardRequest load.id with loads := client.loads.insert key next }

/-- A load begins its first request. -/
def beginLoad (id : Nat) (requested : LoadOptions) (client : Client) : Client :=
  let load : Load := ⟨id, requested, none, client.nextSerial, none⟩
  { (client.beginDashboardRequest id).startLoading requested with
    loads := client.loads.insert client.nextSerial load
    inFlightDashboardLoad := some client.nextSerial }

/-- `loadDashboard` from the request serial on. -/
def request (id : Nat) (requested : LoadOptions) (client : Client) : Client :=
  match client.joined id with
  | some (key, load) => client.join key load requested
  | none => client.beginLoad id requested

/-- Whether a foreground load has nothing to fetch. -/
def isCurrent (id : Nat) (client : Client) : Bool :=
  (client.joined id).isNone && client.dashboard.any (·.id == id) && !client.loadError &&
    !client.conflict && client.connected

/-- A foreground `loadDashboard`. -/
def navigate (id : Nat) (client : Client) : Client :=
  if client.isCurrent id then
    { client.beginDashboardRequest id with
      loading := false, navigation := some ⟨id, .succeeded⟩ }
  else
    let key := ((client.joined id).map (·.1)).getD client.nextSerial
    { client.request id .foreground with navigation := some ⟨id, .waiting key⟩ }

/-- A background `loadDashboard`. -/
def refresh (id : Nat) (surfaceAccessLoss : Bool) (client : Client) : Client :=
  client.request id ⟨true, surfaceAccessLoss⟩

/-- The loop of a load goes on with what was queued, or the load ends. -/
def proceed (key : Nat) (load : Load) (client : Client) : Client :=
  match load.queuedOptions with
  | some options =>
      let next : Load := { load with options, queuedOptions := none, response := none }
      { client.startLoading options with loads := client.loads.insert key next }
  | none =>
      { client with
        loads := client.loads.delete key
        inFlightDashboardLoad :=
          if client.inFlightDashboardLoad = some key then none else client.inFlightDashboardLoad }

/-- The foreground load that awaited this request has its answer. -/
def answer (key : Nat) (load : Load) (answer : Answer) (client : Client) : Client :=
  { client with
    navigation := client.navigation.map fun navigation =>
      if navigation.answer = .waiting key ∧ load.options.background = false then
        { navigation with answer }
      else navigation }

/-- What a response does to the store. -/
def showLoaded (load : Load) (dashboard : Dashboard) (client : Client) : Client :=
  if client.isLatest load then
    { client with
      dashboard := some dashboard
      conflict := false
      loadError := false
      loading := client.loading && load.options.background }
  else client

/-- What a failure does to the store. -/
def showFailed (load : Load) (forbidden : Bool) (client : Client) : Client :=
  let accessLoss := load.options.background && load.options.surfaceAccessLoss && forbidden
  if client.isLatest load && (!load.options.background || accessLoss) then
    { client with
      dashboard := if accessLoss then none else client.dashboard
      loadError := true
      loading := false
      conflict := false }
  else client

/-- The response of a load lands. -/
def landLoad (key : Nat) (load : Load) (dashboard : Dashboard) (client : Client) : Client :=
  ((client.showLoaded load dashboard).answer key load .succeeded).proceed key load

/-- The request of a load fails; `forbidden` says that it did with 403 or 404. -/
def failLoad (key : Nat) (load : Load) (forbidden : Bool) (client : Client) : Client :=
  ((client.showFailed load forbidden).answer key load .failed).proceed key load

/-! ## Saving layouts -/

/-- One turn of the loop of `saveLayout`: the pending layout is sent if its dashboard
is still the one held. -/
def drainNext (client : Client) : Client :=
  match client.pendingLayoutSave, client.dashboard with
  | some pending, some dashboard =>
      if dashboard.id = pending.dashboardId then
        { client with
          pendingLayoutSave := none, drain := some ⟨pending, .put dashboard.version none⟩ }
      else { client with pendingLayoutSave := none, drain := none }
  | _, _ => { client with pendingLayoutSave := none, drain := none }

/-- `saveLayout`. -/
def saveLayout (layout : Arrangement) (client : Client) : Client :=
  match client.dashboard with
  | none => client
  | some dashboard =>
      let queued : Client := { client with pendingLayoutSave := some ⟨dashboard.id, layout, false⟩ }
      if client.drain.isSome then queued else queued.drainNext

/-- The save gives up. -/
def abandonSave (conflict : Bool) (client : Client) : Client :=
  { client with
    pendingLayoutSave := none, drain := none, conflict := client.conflict || conflict }

/-- The PUT conflicted: read the dashboard again, unless this was the replay. -/
def landConflict (pending : PendingLayoutSave) (client : Client) : Client :=
  if pending.retried then client.abandonSave true
  else { client with drain := some ⟨pending, .rebase none⟩ }

/-- The PUT was accepted: its answer is shown with the widgets held. -/
def showSaved (saved : Dashboard) (client : Client) : Client :=
  { client with
    dashboard := some { saved with
      widgets := (client.dashboard.map (·.widgets)).getD saved.widgets }
    conflict := false }

/-- The dashboard was read again: its version is taken over. -/
def showRebased (server : Dashboard) (client : Client) : Client :=
  { client with
    dashboard := client.dashboard.map fun dashboard =>
      { dashboard with version := server.version } }

/-- The replay is queued, unless a newer layout is. -/
def queueReplay (pending : PendingLayoutSave) (server : Dashboard) (client : Client) : Client :=
  let replay : PendingLayoutSave :=
    ⟨pending.dashboardId, server.layout.rebase pending.layout, true⟩
  { client with pendingLayoutSave := client.pendingLayoutSave.or (some replay) }

/-- The response the drain awaits lands. -/
def landSave (drain : Drain) (client : Client) : Client :=
  match drain.request with
  | .put _ (some .conflict) => client.landConflict drain.pending
  | .put _ (some (.saved saved)) => (client.showSaved saved).drainNext
  | .rebase (some server) =>
    ((client.showRebased server).queueReplay drain.pending server).drainNext
  | _ => client

/-- The request the drain awaits fails: an error for a PUT, the banner for a rebase. -/
def failSave (drain : Drain) (client : Client) : Client :=
  match drain.request with
  | .put _ _ => client.abandonSave false
  | .rebase _ => client.abandonSave true

/-! ## The other mutations -/

/-- The response of a mutation lands. Adding and removing a widget show the answer;
renaming takes the name and the version over; a widget's new configuration replaces
the widget. -/
def landMutation (dashboardId : Nat) (mutation : Mutation) (reply : Dashboard)
    (client : Client) : Client :=
  match mutation with
  | .addWidget _ _ | .removeWidget _ => { client with dashboard := some reply }
  | .renameDashboard _ =>
      { client with
        dashboard := client.dashboard.map fun dashboard =>
          if dashboard.id = dashboardId then
            { dashboard with name := reply.name, version := reply.version }
          else dashboard }
  | .updateWidget id _ =>
      { client with
        dashboard := client.dashboard.map fun dashboard =>
          { dashboard with
            widgets := dashboard.widgets.map fun widget =>
              if widget.id = id then
                (reply.widgets.find? fun updated => updated.id = id).getD widget
              else widget } }

/-! ## Frames -/

/-- `scheduleDashboardRefresh`: the last call decides what will run. -/
def scheduleRefresh (id : Nat) (surfaceAccessLoss : Bool) (client : Client) : Client :=
  { client with dashboardRefresh := some (id, surfaceAccessLoss) }

/-- `handleDashboardEvent` for a deletion. -/
def loseDashboard (client : Client) : Client :=
  { client with dashboard := none, loadError := true, loading := false, conflict := false }

/-- `patchWidgetConfig`. -/
def patchWidgetConfig (id : Nat) (config : String) (dashboard : Dashboard) : Dashboard :=
  { dashboard with
    widgets := dashboard.widgets.map fun widget =>
      if widget.id = id then { widget with config } else widget }

/-- `handleContentEvent` for a deleted list. -/
def dropList (list : Nat) (dashboard : Dashboard) : Dashboard :=
  let removed := Board.boundTo list dashboard.widgets
  { dashboard with
    widgets := dashboard.widgets.filter fun widget => widget.resourceId ≠ some list
    layout := dashboard.layout.change (dashboard.layout.items.filter fun item => item.i ∉ removed)
    version := if removed = [] then dashboard.version else dashboard.version + 1 }

/-- What a frame does, when it concerns the dashboard held. -/
def handleFrame (frame : Frame) (dashboard : Dashboard) (client : Client) : Client :=
  match frame with
  | .layout _ version own =>
      if own || version ≤ dashboard.version then client
      else client.scheduleRefresh dashboard.id false
  | .widgets _ own | .name _ own =>
      if own then client else client.scheduleRefresh dashboard.id false
  | .config _ widget config own =>
      if own then client
      else if widget ∈ dashboard.widgets.map (·.id) then
        { client with dashboard := some (patchWidgetConfig widget config dashboard) }
      else client.scheduleRefresh dashboard.id false
  | .shares _ own => if own then client else client.scheduleRefresh dashboard.id true
  | .deleted _ => client.loseDashboard
  | .listDeleted _ list _ _ => { client with dashboard := some (dropList list dashboard) }

/-- `handleDashboardEvent` and `handleContentEvent`. -/
def receive (frame : Frame) (client : Client) : Client :=
  match client.dashboard with
  | some dashboard =>
      if frame.dashboard = dashboard.id then client.handleFrame frame dashboard else client
  | none => client

/-! ## The grid -/

/-- `activeLayout`. -/
def shown (dashboard : Dashboard) (client : Client) : Arrangement :=
  match client.draft with
  | some draft =>
      if draft.baseVersion = dashboard.version then draft.layout else dashboard.layout
  | none => dashboard.layout

/-- The grid is mounted anew, with what the store holds as its draft. -/
def mountGrid (client : Client) : Client :=
  { client with
    draft := client.dashboard.map fun dashboard => ⟨dashboard.layout, dashboard.version⟩
    gesture := none }

/-- A gesture begins on what the grid shows. -/
def grab (dashboard : Dashboard) (client : Client) : Client :=
  { client with gesture := some (client.shown dashboard) }

/-- `handleLayoutStop`: the layout the grid reports becomes the draft, and is saved
unless it is the one held. -/
def drop (dashboard : Dashboard) (layout : Arrangement) (client : Client) : Client :=
  let dropped : Client :=
    { client with draft := some ⟨layout, dashboard.version⟩, gesture := none }
  if sameLayout dashboard.layout.items layout.items then dropped else dropped.saveLayout layout

end Client

end FrontDashboard.Editor
