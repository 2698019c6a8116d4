import FrontDashboard.Library.TransitionSystem
import FrontDashboard.Editor.Store

/-! # One editor among others

The client beside the server and the frames on their way to it. The other editors
appear as writes of the server's dashboards. A request goes out, is answered by the
server and lands, or fails, at three different moments; frames arrive in the order of
the writes, with any delay, and are lost while there is no stream.
-/

namespace FrontDashboard.Editor

/-- A layout of this client's that the server has accepted: the version it was checked
against, and the widgets the user had placed in it. -/
structure Save where
  dashboard : Nat
  version : Nat
  moved : List Nat

/-- The saves are on record only. -/
structure World where
  client : Client
  server : Nat → Board
  frames : List Frame
  saves : List Save

inductive Action
  /-- `loadDashboard` in the foreground. -/
  | navigate (id : Nat)
  /-- A resync reaches the store. -/
  | resync
  /-- The debounced refresh runs. -/
  | runRefresh
  | connect (connected : Bool)
  | serveLoad (key : Nat)
  | landLoad (key : Nat)
  | failLoad (key : Nat) (forbidden : Bool)
  /-- Another editor's write. -/
  | write (dashboard : Nat) (write : Write)
  | deliver
  | lose
  | mutate (key dashboardId : Nat) (mutation : Mutation)
  /-- A mutation is answered; a widget added gets the id and the place given. -/
  | serveMutation (key : Nat) (item : LayoutItem)
  | landMutation (key : Nat)
  | failMutation (key : Nat)
  | mountGrid
  | grab
  | drop (gestured fitted : List LayoutItem)
  | serveSave
  | landSave
  | failSave
  deriving DecidableEq, Repr

/-- The write a mutation asks for. -/
def Mutation.write (item : LayoutItem) : Mutation → Write
  | .addWidget resourceId config => .add ⟨item.i, resourceId, config⟩ item
  | .removeWidget widget => .remove widget
  | .updateWidget widget config => .config widget config
  | .renameDashboard name => .name name

/-- Renaming names its dashboard; the other mutations are of the dashboard held. -/
def Mutation.allowed (dashboardId : Nat) (client : Client) : Mutation → Bool
  | .renameDashboard _ => true
  | _ => client.dashboard.any (·.id == dashboardId)

/-- Whether the drain's request has been answered. -/
def SaveRequest.answered : SaveRequest → Bool
  | .put _ reply => reply.isSome
  | .rebase reply => reply.isSome

namespace World

/-- The server after a write has been carried out and announced. -/
def announce (dashboard : Nat) (write : Write) (own : Bool) (after : Board) (world : World) :
    World :=
  { world with
    server := Function.update world.server dashboard after
    frames := world.frames ++ [Board.frame dashboard write (world.server dashboard) after own] }

/-- The server carries a write out, unless it refuses it. -/
def perform (dashboard : Nat) (write : Write) (own : Bool) (world : World) : Option World :=
  ((world.server dashboard).apply write).map fun after =>
    world.announce dashboard write own after

/-- What the server would answer to a GET. -/
def get (id : Nat) (world : World) : Dashboard := (world.server id).response id

/-- A GET of a load is answered. -/
def serveLoad (key : Nat) (load : Load) (world : World) : World :=
  let answered : Load := { load with response := some (world.get load.id) }
  { world with
    client := { world.client with loads := world.client.loads.insert key answered } }

/-- A mutation is answered with the dashboard after it. -/
def answerMutation (key : Nat) (request : Request) (world : World) : World :=
  let answered : Request := { request with reply := some (world.get request.dashboardId) }
  { world with
    client := { world.client with requests := world.client.requests.insert key answered } }

/-- The drain's request gets its answer. -/
def answerSave (drain : Drain) (request : SaveRequest) (world : World) : World :=
  { world with client := { world.client with drain := some { drain with request } } }

/-- `update_layout`: the layout is stored if the version is the current one. -/
def updateLayout (drain : Drain) (version : Nat) (world : World) : Option World :=
  let id := drain.pending.dashboardId
  if (world.server id).layout.version = version then
    (world.perform id (.layout drain.pending.layout.items) true).map fun after =>
      { after.answerSave drain (.put version (some (.saved (after.get id)))) with
        saves := world.saves ++ [⟨id, version, drain.pending.layout.moved⟩] }
  else some (world.answerSave drain (.put version (some .conflict)))

/-- The drain's request is answered. -/
def serveSave (world : World) : Option World :=
  match world.client.drain with
  | some drain =>
      match drain.request with
      | .put version none => world.updateLayout drain version
      | .rebase none =>
          some (world.answerSave drain (.rebase (some (world.get drain.pending.dashboardId))))
      | _ => none
  | none => none

end World

/-- The step function. -/
def step (world : World) (action : Action) : Option World :=
  let client := world.client
  let become : Client → World := fun client => { world with client }
  match action with
  | .navigate id => some (become (client.navigate id))
  | .resync =>
      match client.dashboard with
      | some dashboard => some (become (client.refresh dashboard.id true))
      | none => some world
  | .runRefresh =>
      match client.dashboardRefresh with
      | some (id, surfaceAccessLoss) =>
          some (become ({ client with dashboardRefresh := none }.refresh id surfaceAccessLoss))
      | none => none
  | .connect connected => some (become { client with connected })
  | .serveLoad key => (client.loads.get key).map fun load => world.serveLoad key load
  | .landLoad key =>
      (client.loads.get key).bind fun load =>
        load.response.map fun dashboard => become (client.landLoad key load dashboard)
  | .failLoad key forbidden =>
      (client.loads.get key).map fun load => become (client.failLoad key load forbidden)
  | .write dashboard write => world.perform dashboard write false
  | .deliver =>
      match world.frames with
      | frame :: rest => some { world with client := client.receive frame, frames := rest }
      | [] => none
  | .lose =>
      match world.frames with
      | _ :: rest => some { world with frames := rest }
      | [] => none
  | .mutate key dashboardId mutation =>
      if (client.requests.get key).isNone && mutation.allowed dashboardId client then
        some (become { client with
          requests := client.requests.insert key ⟨dashboardId, mutation, none⟩ })
      else none
  | .serveMutation key item =>
      (client.requests.get key).bind fun request =>
        if request.reply.isNone then
          (world.perform request.dashboardId (request.mutation.write item) true).map
            (World.answerMutation key request)
        else none
  | .landMutation key =>
      (client.requests.get key).bind fun request =>
        request.reply.map fun reply =>
          become ({ client with requests := client.requests.delete key }.landMutation
            request.dashboardId request.mutation reply)
  | .failMutation key =>
      (client.requests.get key).map fun _ =>
        become { client with requests := client.requests.delete key }
  | .mountGrid => some (become client.mountGrid)
  | .grab => client.dashboard.map fun dashboard => become (client.grab dashboard)
  | .drop gestured fitted =>
      match client.dashboard, client.gesture with
      | some dashboard, some shown =>
          if ∀ item ∈ gestured, item.i ∈ dashboard.widgets.map (·.id) then
            some (become (client.drop dashboard (shown.arrange dashboard.widgets gestured fitted)))
          else none
      | _, _ => none
  | .serveSave => world.serveSave
  | .landSave =>
      client.drain.bind fun drain =>
        if drain.request.answered then some (become (client.landSave drain)) else none
  | .failSave => client.drain.map fun drain => become (client.failSave drain)

/-- The editor's page opens beside any dashboards. -/
def system : TransitionSystem World Action where
  Initial := fun world => world.client = .fresh ∧ world.frames = [] ∧ world.saves = []
  step := step

/-- A page beside dashboards with two widgets side by side. -/
def sharedBoard : World where
  client := .fresh
  server := fun _ =>
    ⟨"Home", [⟨1, none, ""⟩, ⟨2, none, ""⟩], .initial [⟨1, 0, 0, 4, 4⟩, ⟨2, 4, 0, 4, 4⟩]⟩
  frames := []
  saves := []

theorem sharedBoard_initial : system.Initial sharedBoard := ⟨rfl, rfl, rfl⟩

end FrontDashboard.Editor
