import FrontDashboard.Editor.System

/-! # What a step can do

Each step changes the dashboard held in one of a few ways, brings at most what the
server answers now into the replies on their way, and makes layouts only from those
it has. The results about the store are derived from these three lists.
-/

namespace FrontDashboard.Editor

/-- The steps of the system, each with what it needs and what it leads to. -/
inductive Moves (world : World) : Action → World → Prop
  | navigate {id : Nat} :
      Moves world (.navigate id) { world with client := world.client.navigate id }
  | resync {dashboard : Dashboard} : world.client.dashboard = some dashboard →
      Moves world .resync { world with client := world.client.refresh dashboard.id true }
  | idle : world.client.dashboard = none → Moves world .resync world
  | runRefresh {id : Nat} {surfaceAccessLoss : Bool} :
      world.client.dashboardRefresh = some (id, surfaceAccessLoss) →
        Moves world .runRefresh { world with
          client := { world.client with dashboardRefresh := none }.refresh id surfaceAccessLoss }
  | connect {connected : Bool} :
      Moves world (.connect connected) { world with client := { world.client with connected } }
  | serveLoad {key : Nat} {load : Load} : world.client.loads.get key = some load →
      Moves world (.serveLoad key) (world.serveLoad key load)
  | landLoad {key : Nat} {load : Load} {dashboard : Dashboard} :
      world.client.loads.get key = some load → load.response = some dashboard →
        Moves world (.landLoad key)
          { world with client := world.client.landLoad key load dashboard }
  | failLoad {key : Nat} {load : Load} {forbidden : Bool} :
      world.client.loads.get key = some load →
        Moves world (.failLoad key forbidden)
          { world with client := world.client.failLoad key load forbidden }
  | write {dashboard : Nat} {write : Write} {after : Board} :
      (world.server dashboard).apply write = some after →
        Moves world (.write dashboard write) (world.announce dashboard write false after)
  | deliver {frame : Frame} {rest : List Frame} : world.frames = frame :: rest →
      Moves world .deliver { world with client := world.client.receive frame, frames := rest }
  | lose {frame : Frame} {rest : List Frame} : world.frames = frame :: rest →
      Moves world .lose { world with frames := rest }
  | mutate {key dashboardId : Nat} {mutation : Mutation} : world.client.requests.get key = none →
      Moves world (.mutate key dashboardId mutation) { world with
        client := { world.client with
          requests := world.client.requests.insert key ⟨dashboardId, mutation, none⟩ } }
  | serveMutation {key : Nat} {item : LayoutItem} {request : Request} {after : Board} :
      world.client.requests.get key = some request →
        (world.server request.dashboardId).apply (request.mutation.write item) = some after →
          Moves world (.serveMutation key item) ((world.announce request.dashboardId
            (request.mutation.write item) true after).answerMutation key request)
  | landMutation {key : Nat} {request : Request} {reply : Dashboard} :
      world.client.requests.get key = some request → request.reply = some reply →
        Moves world (.landMutation key) { world with
          client := { world.client with
            requests := world.client.requests.delete key }.landMutation request.dashboardId
              request.mutation reply }
  | failMutation {key : Nat} :
      Moves world (.failMutation key) { world with
        client := { world.client with requests := world.client.requests.delete key } }
  | mountGrid : Moves world .mountGrid { world with client := world.client.mountGrid }
  | grab {dashboard : Dashboard} : world.client.dashboard = some dashboard →
      Moves world .grab { world with client := world.client.grab dashboard }
  | drop {gestured fitted : List LayoutItem} {dashboard : Dashboard} {shown : Arrangement} :
      world.client.dashboard = some dashboard → world.client.gesture = some shown →
        Moves world (.drop gestured fitted) { world with
          client := world.client.drop dashboard (shown.arrange dashboard.widgets gestured fitted) }
  | accept {drain : Drain} : world.client.drain = some drain →
      ∀ {version : Nat}, drain.request = .put version none →
        (world.server drain.pending.dashboardId).layout.version = version →
          ∀ {after : Board}, (world.server drain.pending.dashboardId).apply
              (.layout drain.pending.layout.items) = some after →
            ∀ {next : World}, next = world.announce drain.pending.dashboardId
                (.layout drain.pending.layout.items) true after →
              Moves world .serveSave { next.answerSave drain
                (.put version (some (.saved (next.get drain.pending.dashboardId)))) with
                saves := world.saves ++
                  [⟨drain.pending.dashboardId, version, drain.pending.layout.moved⟩] }
  | refuse {drain : Drain} {version : Nat} : world.client.drain = some drain →
      drain.request = .put version none →
        Moves world .serveSave (world.answerSave drain (.put version (some .conflict)))
  | reread {drain : Drain} : world.client.drain = some drain → drain.request = .rebase none →
      Moves world .serveSave (world.answerSave drain
        (.rebase (some (world.get drain.pending.dashboardId))))
  | landSave {drain : Drain} : world.client.drain = some drain →
      Moves world .landSave { world with client := world.client.landSave drain }
  | failSave {drain : Drain} : world.client.drain = some drain →
      Moves world .failSave { world with client := world.client.failSave drain }

/-- A step is one of the moves. -/
theorem step_moves {world next : World} {action : Action}
    (moved : step world action = some next) : Moves world action next := by
  cases action with
  | navigate id =>
      cases moved
      exact .navigate
  | resync =>
      simp only [step] at moved
      split at moved
      next dashboard holds =>
        cases moved
        exact .resync holds
      next empty =>
        cases moved
        exact .idle empty
  | runRefresh =>
      simp only [step] at moved
      split at moved
      next id surfaceAccessLoss scheduled =>
        cases moved
        exact .runRefresh scheduled
      next => cases moved
  | connect connected =>
      cases moved
      exact .connect
  | serveLoad key =>
      obtain ⟨load, found, rfl⟩ := Option.map_eq_some_iff.mp moved
      exact .serveLoad found
  | landLoad key =>
      obtain ⟨load, found, moved⟩ := Option.bind_eq_some_iff.mp moved
      obtain ⟨dashboard, answered, rfl⟩ := Option.map_eq_some_iff.mp moved
      exact .landLoad found answered
  | failLoad key forbidden =>
      obtain ⟨load, found, rfl⟩ := Option.map_eq_some_iff.mp moved
      exact .failLoad found
  | write dashboard write =>
      obtain ⟨after, applied, rfl⟩ := Option.map_eq_some_iff.mp moved
      exact .write applied
  | deliver =>
      simp only [step] at moved
      split at moved
      next frame rest front =>
        cases moved
        exact .deliver front
      next => cases moved
  | lose =>
      simp only [step] at moved
      split at moved
      next frame rest front =>
        cases moved
        exact .lose front
      next => cases moved
  | mutate key dashboardId mutation =>
      simp only [step] at moved
      split at moved
      next allowed =>
        cases moved
        simp only [Bool.and_eq_true, Option.isNone_iff_eq_none] at allowed
        exact .mutate allowed.1
      next => cases moved
  | serveMutation key item =>
      obtain ⟨request, found, moved⟩ := Option.bind_eq_some_iff.mp moved
      split at moved
      · obtain ⟨served, performed, rfl⟩ := Option.map_eq_some_iff.mp moved
        obtain ⟨after, applied, rfl⟩ := Option.map_eq_some_iff.mp performed
        exact .serveMutation found applied
      · cases moved
  | landMutation key =>
      obtain ⟨request, found, moved⟩ := Option.bind_eq_some_iff.mp moved
      obtain ⟨reply, answered, rfl⟩ := Option.map_eq_some_iff.mp moved
      exact .landMutation found answered
  | failMutation key =>
      obtain ⟨request, -, rfl⟩ := Option.map_eq_some_iff.mp moved
      exact .failMutation
  | mountGrid =>
      cases moved
      exact .mountGrid
  | grab =>
      obtain ⟨dashboard, holds, rfl⟩ := Option.map_eq_some_iff.mp moved
      exact .grab holds
  | drop gestured fitted =>
      simp only [step] at moved
      split at moved
      next dashboard shown holds gesture =>
        split at moved
        · cases moved
          exact .drop holds gesture
        · cases moved
      next => cases moved
  | serveSave =>
      simp only [step, World.serveSave] at moved
      split at moved
      next drain draining =>
        split at moved
        next version waiting =>
          simp only [World.updateLayout] at moved
          split at moved
          next current =>
            obtain ⟨served, performed, rfl⟩ := Option.map_eq_some_iff.mp moved
            obtain ⟨after, applied, rfl⟩ := Option.map_eq_some_iff.mp performed
            exact .accept draining waiting current applied rfl
          next =>
            cases moved
            exact .refuse draining waiting
        next waiting =>
          cases moved
          exact .reread draining waiting
        next => cases moved
      next => cases moved
  | landSave =>
      obtain ⟨drain, draining, moved⟩ := Option.bind_eq_some_iff.mp moved
      split at moved
      · cases moved
        exact .landSave draining
      · cases moved
  | failSave =>
      obtain ⟨drain, draining, rfl⟩ := Option.map_eq_some_iff.mp moved
      exact .failSave draining

namespace Client

/-! ## The dashboard held -/

/-- Loading leaves the dashboard held. -/
@[simp]
theorem startLoading_dashboard (options : LoadOptions) (client : Client) :
    (client.startLoading options).dashboard = client.dashboard := by
  unfold startLoading
  split <;> rfl

@[simp]
theorem request_dashboard (id : Nat) (requested : LoadOptions) (client : Client) :
    (client.request id requested).dashboard = client.dashboard := by
  unfold request
  split
  · rfl
  · simp [beginLoad, beginDashboardRequest]

@[simp]
theorem navigate_dashboard (id : Nat) (client : Client) :
    (client.navigate id).dashboard = client.dashboard := by
  unfold navigate
  split
  · rfl
  · simp

@[simp]
theorem refresh_dashboard (id : Nat) (surfaceAccessLoss : Bool) (client : Client) :
    (client.refresh id surfaceAccessLoss).dashboard = client.dashboard :=
  request_dashboard id _ client

@[simp]
theorem proceed_dashboard (key : Nat) (load : Load) (client : Client) :
    (client.proceed key load).dashboard = client.dashboard := by
  unfold proceed
  split
  · simp
  · rfl

/-- A response is shown when its load is the latest. -/
@[simp]
theorem landLoad_dashboard (key : Nat) (load : Load) (dashboard : Dashboard) (client : Client) :
    (client.landLoad key load dashboard).dashboard =
      if client.isLatest load then some dashboard else client.dashboard := by
  simp only [landLoad, proceed_dashboard, answer, showLoaded]
  split <;> rfl

/-- A failure takes the dashboard away when a latest background load that surfaces it finds no
access. -/
@[simp]
theorem failLoad_dashboard (key : Nat) (load : Load) (forbidden : Bool) (client : Client) :
    (client.failLoad key load forbidden).dashboard =
      if client.isLatest load && load.options.background && load.options.surfaceAccessLoss &&
        forbidden then none else client.dashboard := by
  simp only [failLoad, proceed_dashboard, answer, showFailed]
  cases client.isLatest load <;> cases load.options.background <;>
    cases load.options.surfaceAccessLoss <;> cases forbidden <;> rfl

/-- The queue of layouts leaves the dashboard held when its next request goes out. -/
@[simp]
theorem drainNext_dashboard (client : Client) :
    client.drainNext.dashboard = client.dashboard := by
  unfold drainNext
  split
  · split <;> simp_all
  · rfl

/-- A layout that joins the queue leaves the dashboard held. -/
@[simp]
theorem saveLayout_dashboard (layout : Arrangement) (client : Client) :
    (client.saveLayout layout).dashboard = client.dashboard := by
  unfold saveLayout
  split
  · rfl
  · dsimp only
    split <;> simp_all

/-- A layout that is dropped leaves the dashboard held. -/
@[simp]
theorem drop_dashboard (dashboard : Dashboard) (layout : Arrangement) (client : Client) :
    (client.drop dashboard layout).dashboard = client.dashboard := by
  unfold drop
  dsimp only
  split
  · rfl
  · exact saveLayout_dashboard _ _

/-- A save that fails leaves the dashboard held. -/
@[simp]
theorem failSave_dashboard (drain : Drain) (client : Client) :
    (client.failSave drain).dashboard = client.dashboard := by
  unfold failSave
  split <;> rfl

end Client

/-- What the store may hold after an action. -/
inductive Held (world : World) : Action → Option Dashboard → Prop
  | kept {action : Action} : Held world action world.client.dashboard
  /-- The response of the latest load. -/
  | loaded {key : Nat} {load : Load} {dashboard : Dashboard} :
      world.client.loads.get key = some load → load.response = some dashboard →
        world.client.isLatest load = true → Held world (.landLoad key) (some dashboard)
  /-- Nothing, when the server has refused a background load. -/
  | refused {key : Nat} {load : Load} : world.client.loads.get key = some load →
      world.client.isLatest load = true → load.options.background = true →
        Held world (.failLoad key true) none
  /-- Nothing, when the dashboard held is deleted. -/
  | deleted {dashboard : Dashboard} {rest : List Frame} :
      world.client.dashboard = some dashboard → world.frames = .deleted dashboard.id :: rest →
        Held world .deliver none
  /-- The answer of an accepted layout. -/
  | saved {drain : Drain} {version : Nat} {saved : Dashboard} :
      world.client.drain = some drain → drain.request = .put version (some (.saved saved)) →
        Held world .landSave (some { saved with
          widgets := (world.client.dashboard.map (·.widgets)).getD saved.widgets })
  /-- The version of the dashboard read again. -/
  | rebased {drain : Drain} {server : Dashboard} :
      world.client.drain = some drain → drain.request = .rebase (some server) →
        Held world .landSave (world.client.dashboard.map fun dashboard =>
          { dashboard with version := server.version })
  /-- The answer to a widget added or removed. -/
  | mutated {key : Nat} {request : Request} {reply : Dashboard} :
      world.client.requests.get key = some request → request.reply = some reply →
        request.mutation.replaces = true → Held world (.landMutation key) (some reply)
  /-- The name and the version of the dashboard renamed. -/
  | renamed {key : Nat} {request : Request} {reply : Dashboard} :
      world.client.requests.get key = some request → request.reply = some reply →
        request.mutation.renames = true →
          Held world (.landMutation key) (world.client.dashboard.map fun dashboard =>
            if dashboard.id = request.dashboardId then
              { dashboard with name := reply.name, version := reply.version }
            else dashboard)
  /-- The widgets with the new configuration of one. -/
  | configured {key : Nat} {request : Request} {dashboard : Dashboard}
      {widgets : List DashboardWidget} : world.client.requests.get key = some request →
        request.mutation.replaces = false → request.mutation.renames = false →
          world.client.dashboard = some dashboard →
            Held world (.landMutation key) (some { dashboard with widgets })
  /-- The same, from a frame. -/
  | patched {dashboard : Dashboard} {widgets : List DashboardWidget} :
      world.client.dashboard = some dashboard →
        Held world .deliver (some { dashboard with widgets })
  /-- The dashboard without the widgets of a deleted list. -/
  | dropped {dashboard : Dashboard} {list version : Nat} {removed : List Nat}
      {rest : List Frame} : world.client.dashboard = some dashboard →
        world.frames = .listDeleted dashboard.id list removed version :: rest →
          Held world .deliver (some (Client.dropList list dashboard))

/-- A step may leave the dashboard held. -/
theorem Held.of_same {world : World} {action : Action} {next : Option Dashboard}
    (same : next = world.client.dashboard) : Held world action next :=
  same ▸ .kept

/-- A frame changes the dashboard held as its type says. -/
theorem held_deliver {world : World} {frame : Frame} {rest : List Frame}
    (front : world.frames = frame :: rest) :
    Held world .deliver (world.client.receive frame).dashboard := by
  unfold Client.receive
  split
  next dashboard holds =>
    split
    next concerns =>
      unfold Client.handleFrame
      split
      next => split <;> exact .of_same rfl
      next => split <;> exact .of_same rfl
      next => split <;> exact .of_same rfl
      next =>
        split
        · exact .of_same rfl
        · split
          · exact .patched holds
          · exact .of_same rfl
      next => split <;> exact .of_same rfl
      next deleted =>
        cases concerns
        exact .deleted holds front
      next list removed version =>
        cases concerns
        exact .dropped holds front
    next => exact .kept
  next => exact .kept

/-- The answer to a layout changes the dashboard held as the answer says. -/
theorem held_landSave {world : World} {drain : Drain} (draining : world.client.drain = some drain) :
    Held world .landSave (world.client.landSave drain).dashboard := by
  unfold Client.landSave
  split
  next =>
    unfold Client.landConflict
    split <;> exact .kept
  next version saved request =>
    rw [Client.drainNext_dashboard]
    exact .saved draining request
  next server request =>
    rw [Client.drainNext_dashboard]
    exact .rebased draining request
  next => exact .kept

/-- A reply replaces the dashboard held or patches it. -/
theorem held_landMutation {world : World} {key : Nat} {request : Request} {reply : Dashboard}
    (found : world.client.requests.get key = some request) (answered : request.reply = some reply)
    (client : Client) (same : client.dashboard = world.client.dashboard) :
    Held world (.landMutation key)
      (client.landMutation request.dashboardId request.mutation reply).dashboard := by
  cases mutation : request.mutation with
  | addWidget _ _ | removeWidget _ => exact .mutated found answered (by rw [mutation]; rfl)
  | updateWidget widget config =>
      simp only [Client.landMutation, same]
      cases holds : world.client.dashboard with
      | none => exact .of_same holds.symm
      | some dashboard =>
          exact .configured found (by rw [mutation]; rfl) (by rw [mutation]; rfl) holds
  | renameDashboard name =>
      simp only [Client.landMutation, same]
      exact .renamed found answered (by rw [mutation]; rfl)

/-- **The dashboard held** after a step. -/
theorem step_held {world next : World} {action : Action} (moved : step world action = some next) :
    Held world action next.client.dashboard := by
  cases step_moves moved with
  | navigate => exact .of_same (Client.navigate_dashboard _ _)
  | resync | runRefresh => exact .of_same (Client.refresh_dashboard _ _ _)
  | landLoad found answered =>
      rw [Client.landLoad_dashboard]
      split
      next latest => exact .loaded found answered latest
      next => exact .kept
  | failLoad found =>
      rw [Client.failLoad_dashboard]
      split
      next refused =>
        simp only [Bool.and_eq_true] at refused
        obtain ⟨⟨⟨latest, background⟩, -⟩, rfl⟩ := refused
        exact .refused found latest background
      next => exact .kept
  | deliver front => exact held_deliver front
  | landMutation found answered => exact held_landMutation found answered _ rfl
  | drop => exact .of_same (Client.drop_dashboard _ _ _)
  | accept _ _ _ _ same =>
      rw [same]
      exact .kept
  | landSave draining => exact held_landSave draining
  | failSave => exact .of_same (Client.failSave_dashboard _ _)
  | _ => exact .kept

/-! ## What stays -/

/-- Nothing of the drain, of the mutations or of the grid has changed. -/
structure SavingKept (client next : Client) : Prop where
  drain : next.drain = client.drain
  pending : next.pendingLayoutSave = client.pendingLayoutSave
  requests : next.requests = client.requests
  draft : next.draft = client.draft
  gesture : next.gesture = client.gesture

/-- Nothing of the loads has changed. -/
structure LoadingKept (client next : Client) : Prop where
  loads : next.loads = client.loads
  inFlight : next.inFlightDashboardLoad = client.inFlightDashboardLoad
  latest : next.latestDashboardRequest = client.latestDashboardRequest
  navigation : next.navigation = client.navigation

namespace Client

/-- Starting to load leaves the saving of layouts alone. -/
theorem startLoading_savingKept (options : LoadOptions) (client : Client) :
    SavingKept client (client.startLoading options) := by
  unfold startLoading
  split <;> exact ⟨rfl, rfl, rfl, rfl, rfl⟩

/-- A request for a dashboard leaves the saving of layouts alone. -/
theorem request_savingKept (id : Nat) (requested : LoadOptions) (client : Client) :
    SavingKept client (client.request id requested) := by
  unfold request
  split
  · exact ⟨rfl, rfl, rfl, rfl, rfl⟩
  · have kept := startLoading_savingKept requested (client.beginDashboardRequest id)
    exact ⟨kept.drain, kept.pending, kept.requests, kept.draft, kept.gesture⟩

/-- A navigation leaves the saving of layouts alone. -/
theorem navigate_savingKept (id : Nat) (client : Client) :
    SavingKept client (client.navigate id) := by
  unfold navigate
  split
  · exact ⟨rfl, rfl, rfl, rfl, rfl⟩
  · have kept := request_savingKept id .foreground client
    exact ⟨kept.drain, kept.pending, kept.requests, kept.draft, kept.gesture⟩

/-- A load that goes on or ends leaves the saving of layouts alone. -/
theorem proceed_savingKept (key : Nat) (load : Load) (client : Client) :
    SavingKept client (client.proceed key load) := by
  unfold proceed
  split
  next options _ =>
    have kept := startLoading_savingKept options client
    exact ⟨kept.drain, kept.pending, kept.requests, kept.draft, kept.gesture⟩
  next => exact ⟨rfl, rfl, rfl, rfl, rfl⟩

/-- What a load shows leaves the saving of layouts alone. -/
theorem showLoaded_savingKept (load : Load) (dashboard : Dashboard) (client : Client) :
    SavingKept client (client.showLoaded load dashboard) := by
  unfold showLoaded
  split <;> exact ⟨rfl, rfl, rfl, rfl, rfl⟩

/-- What a failure shows leaves the saving of layouts alone. -/
theorem showFailed_savingKept (load : Load) (forbidden : Bool) (client : Client) :
    SavingKept client (client.showFailed load forbidden) := by
  unfold showFailed
  dsimp only
  split <;> exact ⟨rfl, rfl, rfl, rfl, rfl⟩

/-- What a load shows leaves the loads alone. -/
theorem showLoaded_loadingKept (load : Load) (dashboard : Dashboard) (client : Client) :
    LoadingKept client (client.showLoaded load dashboard) := by
  unfold showLoaded
  split <;> exact ⟨rfl, rfl, rfl, rfl⟩

/-- What a failure shows leaves the loads alone. -/
theorem showFailed_loadingKept (load : Load) (forbidden : Bool) (client : Client) :
    LoadingKept client (client.showFailed load forbidden) := by
  unfold showFailed
  dsimp only
  split <;> exact ⟨rfl, rfl, rfl, rfl⟩

/-- A response leaves the saving of layouts alone. -/
theorem landLoad_savingKept (key : Nat) (load : Load) (dashboard : Dashboard)
    (client : Client) : SavingKept client (client.landLoad key load dashboard) := by
  have kept := proceed_savingKept key load ((client.showLoaded load dashboard).answer key load
    .succeeded)
  have shown := showLoaded_savingKept load dashboard client
  exact ⟨kept.drain.trans shown.drain, kept.pending.trans shown.pending,
    kept.requests.trans shown.requests, kept.draft.trans shown.draft,
    kept.gesture.trans shown.gesture⟩

/-- A failure leaves it alone. -/
theorem failLoad_savingKept (key : Nat) (load : Load) (forbidden : Bool) (client : Client) :
    SavingKept client (client.failLoad key load forbidden) := by
  have kept := proceed_savingKept key load ((client.showFailed load forbidden).answer key load
    .failed)
  have shown := showFailed_savingKept load forbidden client
  exact ⟨kept.drain.trans shown.drain, kept.pending.trans shown.pending,
    kept.requests.trans shown.requests, kept.draft.trans shown.draft,
    kept.gesture.trans shown.gesture⟩

/-- A frame leaves the saving of layouts alone. -/
theorem receive_savingKept (frame : Frame) (client : Client) :
    SavingKept client (client.receive frame) := by
  unfold receive handleFrame
  split
  · split
    · split
      all_goals first | exact ⟨rfl, rfl, rfl, rfl, rfl⟩ | skip
      all_goals split
      all_goals first | exact ⟨rfl, rfl, rfl, rfl, rfl⟩ | skip
      all_goals split <;> exact ⟨rfl, rfl, rfl, rfl, rfl⟩
    · exact ⟨rfl, rfl, rfl, rfl, rfl⟩
  · exact ⟨rfl, rfl, rfl, rfl, rfl⟩

/-- A frame leaves the loads alone. -/
theorem receive_loadingKept (frame : Frame) (client : Client) :
    LoadingKept client (client.receive frame) := by
  unfold receive handleFrame
  split
  · split
    · split
      all_goals first | exact ⟨rfl, rfl, rfl, rfl⟩ | skip
      all_goals split
      all_goals first | exact ⟨rfl, rfl, rfl, rfl⟩ | skip
      all_goals split <;> exact ⟨rfl, rfl, rfl, rfl⟩
    · exact ⟨rfl, rfl, rfl, rfl⟩
  · exact ⟨rfl, rfl, rfl, rfl⟩

/-- A reply leaves the saving of layouts alone. -/
theorem landMutation_savingKept (dashboardId : Nat) (mutation : Mutation) (reply : Dashboard)
    (client : Client) :
    SavingKept client (client.landMutation dashboardId mutation reply) := by
  unfold landMutation
  split <;> exact ⟨rfl, rfl, rfl, rfl, rfl⟩

/-- A reply leaves the loads alone. -/
theorem landMutation_loadingKept (dashboardId : Nat) (mutation : Mutation) (reply : Dashboard)
    (client : Client) :
    LoadingKept client (client.landMutation dashboardId mutation reply) := by
  unfold landMutation
  split <;> exact ⟨rfl, rfl, rfl, rfl⟩

/-- The queue of layouts leaves the loads alone. -/
theorem drainNext_loadingKept (client : Client) : LoadingKept client client.drainNext := by
  unfold drainNext
  split
  · split <;> exact ⟨rfl, rfl, rfl, rfl⟩
  · exact ⟨rfl, rfl, rfl, rfl⟩

theorem saveLayout_loadingKept (layout : Arrangement) (client : Client) :
    LoadingKept client (client.saveLayout layout) := by
  unfold saveLayout
  split
  · exact ⟨rfl, rfl, rfl, rfl⟩
  next dashboard _ =>
    dsimp only
    split
    · exact ⟨rfl, rfl, rfl, rfl⟩
    · have kept := drainNext_loadingKept
        { client with pendingLayoutSave := some ⟨dashboard.id, layout, false⟩ }
      exact ⟨kept.loads, kept.inFlight, kept.latest, kept.navigation⟩

theorem drop_loadingKept (dashboard : Dashboard) (layout : Arrangement) (client : Client) :
    LoadingKept client (client.drop dashboard layout) := by
  unfold drop
  dsimp only
  split
  · exact ⟨rfl, rfl, rfl, rfl⟩
  · have kept := saveLayout_loadingKept layout
      { client with draft := some ⟨layout, dashboard.version⟩, gesture := none }
    exact ⟨kept.loads, kept.inFlight, kept.latest, kept.navigation⟩

theorem landSave_loadingKept (drain : Drain) (client : Client) :
    LoadingKept client (client.landSave drain) := by
  unfold landSave
  split
  · unfold landConflict
    split <;> exact ⟨rfl, rfl, rfl, rfl⟩
  next saved _ =>
    have kept := drainNext_loadingKept (client.showSaved saved)
    exact ⟨kept.loads, kept.inFlight, kept.latest, kept.navigation⟩
  next server _ =>
    have kept :=
      drainNext_loadingKept ((client.showRebased server).queueReplay drain.pending server)
    exact ⟨kept.loads, kept.inFlight, kept.latest, kept.navigation⟩
  · exact ⟨rfl, rfl, rfl, rfl⟩

theorem failSave_loadingKept (drain : Drain) (client : Client) :
    LoadingKept client (client.failSave drain) := by
  unfold failSave
  split <;> exact ⟨rfl, rfl, rfl, rfl⟩

end Client

/-! ## Replies -/

/-- Every reply the client has not acted on yet stands in a relation to the dashboard
that was asked for. -/
structure Replies (predicate : Nat → Dashboard → Prop) (client : Client) : Prop where
  loads : ∀ key load reply, client.loads.get key = some load → load.response = some reply →
    predicate load.id reply
  drain : ∀ drain reply, client.drain = some drain → drain.request.reply = some reply →
    predicate drain.pending.dashboardId reply
  requests : ∀ key request reply, client.requests.get key = some request →
    request.reply = some reply → predicate request.dashboardId reply

section Replies

variable {predicate : Nat → Dashboard → Prop} {client : Client}

/-- Replies of a kind are of every weaker kind. -/
theorem Replies.mono {weaker : Nat → Dashboard → Prop} (replies : Replies predicate client)
    (implies : ∀ id reply, predicate id reply → weaker id reply) : Replies weaker client :=
  ⟨fun _ _ _ found answered => implies _ _ (replies.loads _ _ _ found answered),
    fun _ _ draining answered => implies _ _ (replies.drain _ _ draining answered),
    fun _ _ _ found answered => implies _ _ (replies.requests _ _ _ found answered)⟩

/-- Replies stay of a kind where neither saving nor loading changes. -/
theorem Replies.of_kept (replies : Replies predicate client) {next : Client}
    (saving : SavingKept client next) (loading : next.loads = client.loads) :
    Replies predicate next := by
  constructor
  · rw [loading]
    exact replies.loads
  · rw [saving.drain]
    exact replies.drain
  · rw [saving.requests]
    exact replies.requests

/-- A load is added whose response, if it has one, is of the kind. -/
theorem Replies.insertLoad (replies : Replies predicate client) {next : Client} {key : Nat}
    {load : Load} (loads : next.loads = client.loads.insert key load)
    (saving : SavingKept client next)
    (answered : ∀ reply, load.response = some reply → predicate load.id reply) :
    Replies predicate next := by
  refine ⟨?_, ?_, ?_⟩
  · intro other found reply present response
    rw [loads] at present
    rcases InsertionMap.get_of_insert present with ⟨-, rfl⟩ | ⟨-, old⟩
    · exact answered reply response
    · exact replies.loads other found reply old response
  · rw [saving.drain]
    exact replies.drain
  · rw [saving.requests]
    exact replies.requests

/-- A load that is joined is the one in flight, of the same dashboard. -/
theorem joined_eq_some {id key : Nat} {load : Load} (joins : client.joined id = some (key, load)) :
    client.inFlightDashboardLoad = some key ∧ client.loads.get key = some load ∧ load.id = id := by
  obtain ⟨pointed, inFlight, joins⟩ := Option.bind_eq_some_iff.mp joins
  obtain ⟨found, present, joins⟩ := Option.bind_eq_some_iff.mp joins
  split at joins
  next same =>
    cases joins
    exact ⟨inFlight, present, same⟩
  next => cases joins

/-- A request for a dashboard brings no reply. -/
theorem Replies.request (replies : Replies predicate client) (id : Nat) (requested : LoadOptions) :
    Replies predicate (client.request id requested) := by
  have kept := Client.request_savingKept id requested client
  unfold Client.request at kept ⊢
  split
  next key load joins =>
    rw [joins] at kept
    obtain ⟨-, present, -⟩ := joined_eq_some joins
    exact replies.insertLoad rfl kept fun reply => replies.loads key load reply present
  next joins =>
    rw [joins] at kept
    exact replies.insertLoad rfl kept fun _ answered => by cases answered

/-- A load that goes on or ends brings none. -/
theorem Replies.proceed (replies : Replies predicate client) (key : Nat) (load : Load) :
    Replies predicate (client.proceed key load) := by
  have kept := Client.proceed_savingKept key load client
  unfold Client.proceed at kept ⊢
  split
  next options queued =>
    rw [queued] at kept
    exact replies.insertLoad rfl kept fun _ answered => by cases answered
  next =>
    refine ⟨?_, replies.drain, replies.requests⟩
    intro other found reply present response
    exact replies.loads other found reply (InsertionMap.get_of_delete present) response

theorem Replies.answer (replies : Replies predicate client) (key : Nat) (load : Load)
    (answer : Answer) : Replies predicate (client.answer key load answer) :=
  ⟨replies.loads, replies.drain, replies.requests⟩

/-- A request for a layout that goes out brings none yet. -/
theorem Replies.drainNext (replies : Replies predicate client) :
    Replies predicate client.drainNext := by
  refine ⟨?_, ?_, ?_⟩
  · rw [(Client.drainNext_loadingKept client).loads]
    exact replies.loads
  · unfold Client.drainNext
    intro drain reply draining answered
    split at draining
    · split at draining
      · cases draining
        cases answered
      · cases draining
    · cases draining
  · have same : client.drainNext.requests = client.requests := by
      unfold Client.drainNext
      split
      · split <;> rfl
      · rfl
    rw [same]
    exact replies.requests

theorem Replies.drop (replies : Replies predicate client) (dashboard : Dashboard)
    (layout : Arrangement) : Replies predicate (client.drop dashboard layout) := by
  unfold Client.drop
  dsimp only
  split
  · exact ⟨replies.loads, replies.drain, replies.requests⟩
  · unfold Client.saveLayout
    split
    · exact ⟨replies.loads, replies.drain, replies.requests⟩
    · dsimp only
      split
      · exact ⟨replies.loads, replies.drain, replies.requests⟩
      · apply Replies.drainNext
        exact ⟨replies.loads, replies.drain, replies.requests⟩

/-- An answer that has landed is no longer on its way. -/
theorem Replies.landSave (replies : Replies predicate client) (drain : Drain) :
    Replies predicate (client.landSave drain) := by
  unfold Client.landSave
  split
  · unfold Client.landConflict
    split
    · exact ⟨replies.loads, nofun, replies.requests⟩
    · refine ⟨replies.loads, ?_, replies.requests⟩
      intro other reply draining answered
      cases draining
      cases answered
  · apply Replies.drainNext
    exact ⟨replies.loads, replies.drain, replies.requests⟩
  · apply Replies.drainNext
    exact ⟨replies.loads, replies.drain, replies.requests⟩
  · exact replies

theorem Replies.failSave (replies : Replies predicate client) (drain : Drain) :
    Replies predicate (client.failSave drain) := by
  unfold Client.failSave
  split <;> exact ⟨replies.loads, nofun, replies.requests⟩

theorem Replies.deleteRequest (replies : Replies predicate client) (key : Nat) :
    Replies predicate { client with requests := client.requests.delete key } := by
  refine ⟨replies.loads, replies.drain, ?_⟩
  intro other request reply present answered
  exact replies.requests other request reply (InsertionMap.get_of_delete present) answered

/-- A request is added whose reply, if it has one, is of the kind. -/
theorem Replies.insertRequest (replies : Replies predicate client) {key : Nat}
    {request : Request}
    (answered : ∀ reply, request.reply = some reply → predicate request.dashboardId reply) :
    Replies predicate { client with requests := client.requests.insert key request } := by
  refine ⟨replies.loads, replies.drain, ?_⟩
  intro other found reply present given
  rcases InsertionMap.get_of_insert present with ⟨-, rfl⟩ | ⟨-, old⟩
  · exact answered reply given
  · exact replies.requests other found reply old given

/-- **Replies** after a step are old ones, or what the server would answer now. -/
theorem Replies.step {world next : World} {action : Action}
    (replies : Replies predicate world.client) (fresh : ∀ id, predicate id (next.get id))
    (moved : step world action = some next) : Replies predicate next.client := by
  cases step_moves moved with
  | @navigate id =>
      unfold Client.navigate
      split
      · exact ⟨replies.loads, replies.drain, replies.requests⟩
      · have requested := replies.request id .foreground
        exact ⟨requested.loads, requested.drain, requested.requests⟩
  | resync => exact replies.request _ _
  | runRefresh =>
      apply Replies.request
      exact ⟨replies.loads, replies.drain, replies.requests⟩
  | serveLoad found =>
      refine replies.insertLoad rfl ⟨rfl, rfl, rfl, rfl, rfl⟩ ?_
      intro reply answered
      cases answered
      exact fresh _
  | @landLoad key load dashboard found answered =>
      apply Replies.proceed
      have shown := Client.showLoaded_savingKept load dashboard world.client
      exact (replies.of_kept shown (Client.showLoaded_loadingKept _ _ _).loads).answer _ _ _
  | @failLoad key load forbidden found =>
      apply Replies.proceed
      have shown := Client.showFailed_savingKept load forbidden world.client
      exact (replies.of_kept shown (Client.showFailed_loadingKept _ _ _).loads).answer _ _ _
  | deliver =>
      exact replies.of_kept (Client.receive_savingKept _ _) (Client.receive_loadingKept _ _).loads
  | mutate => exact replies.insertRequest nofun
  | serveMutation =>
      apply Replies.insertRequest replies
      intro reply answered
      cases answered
      exact fresh _
  | landMutation =>
      exact (replies.deleteRequest _).of_kept (Client.landMutation_savingKept _ _ _ _)
        (Client.landMutation_loadingKept _ _ _ _).loads
  | failMutation => exact replies.deleteRequest _
  | drop => exact replies.drop _ _
  | accept draining waiting current applied same =>
      subst same
      refine ⟨replies.loads, ?_, replies.requests⟩
      intro other reply given answered
      cases given
      cases answered
      exact fresh _
  | refuse =>
      refine ⟨replies.loads, ?_, replies.requests⟩
      intro other reply given answered
      cases given
      cases answered
  | reread =>
      refine ⟨replies.loads, ?_, replies.requests⟩
      intro other reply given answered
      cases given
      cases answered
      exact fresh _
  | landSave => exact replies.landSave _
  | failSave => exact replies.failSave _
  | _ => exact ⟨replies.loads, replies.drain, replies.requests⟩

end Replies

/-! ## The server -/

/-- Each dashboard keeps the versions it has had. -/
def Continues (later earlier : Nat → Board) : Prop :=
  ∀ id, (later id).layout.Extends (earlier id).layout

theorem Continues.refl (server : Nat → Board) : Continues server server :=
  fun id => Ledger.Extends.refl (server id).layout

/-- **The server** after a step is as before, or has carried out one write. -/
theorem step_server {world next : World} {action : Action}
    (moved : step world action = some next) :
    (next.server = world.server ∧ ∀ frame ∈ next.frames, frame ∈ world.frames) ∨
      ∃ dashboard write own after, (world.server dashboard).apply write = some after ∧
        next.server = (world.announce dashboard write own after).server ∧
          next.frames = (world.announce dashboard write own after).frames := by
  cases step_moves moved with
  | write applied => exact .inr ⟨_, _, _, _, applied, rfl, rfl⟩
  | serveMutation found applied => exact .inr ⟨_, _, _, _, applied, rfl, rfl⟩
  | accept draining waiting current applied same =>
      subst same
      exact .inr ⟨_, _, _, _, applied, rfl, rfl⟩
  | deliver front =>
      refine .inl ⟨rfl, fun other later => ?_⟩
      rw [front]
      exact List.mem_cons_of_mem _ later
  | lose front =>
      refine .inl ⟨rfl, fun other later => ?_⟩
      rw [front]
      exact List.mem_cons_of_mem _ later
  | _ => exact .inl ⟨rfl, fun _ member => member⟩

/-- A write takes a board on. -/
theorem announce_continues {world : World} {dashboard : Nat} {write : Write} {own : Bool}
    {after : Board} (applied : (world.server dashboard).apply write = some after) :
    Continues (world.announce dashboard write own after).server world.server := by
  intro id
  by_cases same : id = dashboard
  · subst same
    simp only [World.announce, Function.update_self]
    exact Board.extends_apply applied
  · simp only [World.announce, Function.update_of_ne same]
    exact Ledger.Extends.refl _

/-- Every step takes the boards of the server on. -/
theorem step_continues {world next : World} {action : Action}
    (moved : step world action = some next) : Continues next.server world.server := by
  rcases step_server moved with ⟨same, -⟩ | ⟨dashboard, write, own, after, applied, same, -⟩
  · rw [same]
    exact Continues.refl _
  · rw [same]
    exact announce_continues applied

end FrontDashboard.Editor
