import FrontDashboard.Editor.Steps

/-! # Responses and the dashboards they belong to

Once another dashboard has been opened, a response of the first one should neither
change which dashboard the store holds nor touch the dashboard held. A load checks
that it is still the latest. The other mutations write what they were answered into
whatever the store holds.
-/

namespace FrontDashboard.Editor

/-- Whether a mutation concerns the dashboard as a whole; a new configuration concerns
its widget alone. -/
def Mutation.ofDashboard : Mutation → Bool
  | .updateWidget _ _ => false
  | _ => true

/-- The dashboard whose response lands, or fails to. -/
def Action.responseOf (world : World) : Action → Option Nat
  | .landLoad key | .failLoad key _ => (world.client.loads.get key).map (·.id)
  | .landMutation key | .failMutation key =>
      ((world.client.requests.get key).filter (·.mutation.ofDashboard)).map (·.dashboardId)
  | .landSave | .failSave => world.client.drain.map (·.pending.dashboardId)
  | _ => none

/-- Another dashboard than this one has been opened. -/
def OpenedAnother (world : World) (id : Nat) : Prop :=
  world.client.navigation.any (·.dashboard != id) = true

instance (world : World) (id : Nat) : Decidable (OpenedAnother world id) :=
  inferInstanceAs (Decidable (_ = _))

/-- The store holds a dashboard with this id. -/
def Holds (world : World) (id : Nat) : Prop :=
  world.client.dashboard.any (·.id == id) = true

instance (world : World) (id : Nat) : Decidable (Holds world id) :=
  inferInstanceAs (Decidable (_ = _))

/-- From one state to the next, the store holds the same dashboard, and unless it is
the given one, holds it unchanged. -/
def LeavesAlone (world next : World) (id : Nat) : Prop :=
  next.client.dashboard.map (·.id) = world.client.dashboard.map (·.id) ∧
    (¬ Holds world id → next.client.dashboard = world.client.dashboard)

/-! ## The steps that do not cross -/

/-- What the drain was answered finds its dashboard held; a version read again may also
find none, or the same version. -/
def FindsDashboard (world : World) (drain : Drain) : Prop :=
  match drain.request with
  | .put _ (some (.saved _)) => Holds world drain.pending.dashboardId
  | .rebase (some server) => Holds world drain.pending.dashboardId ∨
      ∀ dashboard ∈ world.client.dashboard.toList, dashboard.version = server.version
  | _ => True

instance (world : World) (drain : Drain) : Decidable (FindsDashboard world drain) := by
  unfold FindsDashboard
  split <;> infer_instance

/-- The steps that do not cross. Background loads are of the dashboard last opened; and
once another dashboard has been opened, the answer to a save, to an addition or to a
removal finds its dashboard held, and a version read again finds its dashboard, none, or
the same version. -/
def StaysApart (world : World) : Action → Prop
  | .resync => ∀ dashboard ∈ world.client.dashboard.toList,
      world.client.navigation.any (·.dashboard == dashboard.id) = true
  | .runRefresh => ∀ scheduled ∈ world.client.dashboardRefresh.toList,
      world.client.navigation.any (·.dashboard == scheduled.1) = true
  | .landMutation key => ∀ request ∈ (world.client.requests.get key).toList,
      request.mutation.replaces = true → OpenedAnother world request.dashboardId →
        Holds world request.dashboardId
  | .landSave => ∀ drain ∈ world.client.drain.toList,
      OpenedAnother world drain.pending.dashboardId → FindsDashboard world drain
  | _ => True

/-! ## The latest request is of the dashboard last opened -/

/-- The latest request is one of the dashboard last opened. -/
def FollowsNavigation (client : Client) : Prop :=
  ∀ navigation, client.navigation = some navigation →
    client.latestDashboardRequest.map (·.1) = some navigation.dashboard

/-- A request is the latest one. -/
theorem request_latest (id : Nat) (requested : LoadOptions) (client : Client) :
    (client.request id requested).latestDashboardRequest = some (id, client.nextSerial) := by
  unfold Client.request
  split
  next key load joins =>
    obtain ⟨-, -, same⟩ := joined_eq_some joins
    rw [← same]
    rfl
  next =>
    unfold Client.beginLoad Client.startLoading
    split <;> rfl

/-- A request navigates nowhere. -/
theorem request_navigation (id : Nat) (requested : LoadOptions) (client : Client) :
    (client.request id requested).navigation = client.navigation := by
  unfold Client.request
  split
  · rfl
  · unfold Client.beginLoad Client.startLoading
    split <;> rfl

/-- A load that goes on is asked for no anew. -/
theorem proceed_latest (key : Nat) (load : Load) (client : Client) :
    (client.proceed key load).latestDashboardRequest = client.latestDashboardRequest := by
  unfold Client.proceed
  split
  · unfold Client.startLoading
    split <;> rfl
  · rfl

/-- A load that goes on navigates nowhere. -/
theorem proceed_navigation (key : Nat) (load : Load) (client : Client) :
    (client.proceed key load).navigation = client.navigation := by
  unfold Client.proceed
  split
  · unfold Client.startLoading
    split <;> rfl
  · rfl

/-- The latest load stays that of the page navigated to. -/
theorem FollowsNavigation.of_kept {client next : Client} (follows : FollowsNavigation client)
    (kept : LoadingKept client next) : FollowsNavigation next := by
  unfold FollowsNavigation
  rw [kept.navigation, kept.latest]
  exact follows

theorem FollowsNavigation.answer {client : Client} (follows : FollowsNavigation client)
    (key : Nat) (load : Load) (answer : Answer) :
    FollowsNavigation (client.answer key load answer) := by
  intro navigation same
  obtain ⟨before, opened, rfl⟩ := Option.map_eq_some_iff.mp same
  split <;> exact follows before opened

theorem FollowsNavigation.proceed {client : Client} (follows : FollowsNavigation client)
    (key : Nat) (load : Load) : FollowsNavigation (client.proceed key load) := by
  unfold FollowsNavigation
  rw [proceed_navigation, proceed_latest]
  exact follows

theorem followsNavigation_navigate (id : Nat) (client : Client) :
    FollowsNavigation (client.navigate id) := by
  intro navigation same
  unfold Client.navigate at same ⊢
  split
  next current =>
    rw [if_pos current] at same
    cases same
    rfl
  next stale =>
    rw [if_neg stale] at same
    cases same
    exact congrArg (Option.map (·.1)) (request_latest id .foreground client)

theorem followsNavigation_refresh {client : Client} {id : Nat} {surfaceAccessLoss : Bool}
    (opened : client.navigation.any (·.dashboard == id) = true) :
    FollowsNavigation (client.refresh id surfaceAccessLoss) := by
  intro navigation same
  unfold Client.refresh at same ⊢
  rw [request_navigation] at same
  rw [request_latest]
  rw [same] at opened
  have dashboard : navigation.dashboard = id := by simpa using opened
  rw [dashboard]
  rfl

/-- A step that stays apart keeps it. -/
theorem FollowsNavigation.step {world next : World} {action : Action}
    (follows : FollowsNavigation world.client) (apart : StaysApart world action)
    (moved : step world action = some next) : FollowsNavigation next.client := by
  cases step_moves moved with
  | navigate => exact followsNavigation_navigate _ _
  | resync holds => exact followsNavigation_refresh (apart _ (by simpa using holds))
  | runRefresh scheduled =>
      have opened := apart _ (by simpa using scheduled)
      exact followsNavigation_refresh opened
  | landLoad =>
      apply FollowsNavigation.proceed
      apply FollowsNavigation.answer
      exact follows.of_kept (Client.showLoaded_loadingKept _ _ _)
  | failLoad =>
      apply FollowsNavigation.proceed
      apply FollowsNavigation.answer
      exact follows.of_kept (Client.showFailed_loadingKept _ _ _)
  | deliver => exact follows.of_kept (Client.receive_loadingKept _ _)
  | @landMutation key =>
      have kept : FollowsNavigation { world.client with
        requests := world.client.requests.delete key } := follows
      exact kept.of_kept (Client.landMutation_loadingKept _ _ _ _)
  | drop => exact follows.of_kept (Client.drop_loadingKept _ _ _)
  | accept _ _ _ _ same =>
      subst same
      exact follows
  | landSave => exact follows.of_kept (Client.landSave_loadingKept _ _)
  | failSave => exact follows.of_kept (Client.failSave_loadingKept _ _)
  | _ => exact follows

/-! ## Responses -/

/-- The invariant: the latest request is of the dashboard last opened, and every reply
is of the dashboard that was asked for. -/
structure ApartSoFar (world : World) : Prop where
  latest : FollowsNavigation world.client
  replies : Replies (fun id reply => reply.id = id) world.client

/-- A step that stays apart keeps all the steps so. -/
theorem ApartSoFar.step {world next : World} {action : Action} (so : ApartSoFar world)
    (apart : StaysApart world action) (moved : step world action = some next) :
    ApartSoFar next :=
  ⟨so.latest.step apart moved, so.replies.step (fun _ => rfl) moved⟩

/-- At first there are no steps. -/
theorem apartSoFar_of_initial {world : World} (begins : system.Initial world) :
    ApartSoFar world := by
  obtain ⟨fresh, -⟩ := begins
  constructor
  · rw [fresh]
    exact nofun
  · rw [fresh]
    exact ⟨nofun, nofun, nofun⟩

/-- The latest load is of the dashboard last opened. -/
theorem ApartSoFar.not_openedAnother {world : World} (so : ApartSoFar world) {load : Load}
    (latest : world.client.isLatest load = true) : ¬ OpenedAnother world load.id := by
  intro another
  unfold OpenedAnother at another
  cases opened : world.client.navigation with
  | none =>
      rw [opened] at another
      cases another
  | some navigation =>
      have requested := so.latest navigation opened
      have mine : world.client.latestDashboardRequest = some
        (load.id, load.latestRequestSerial) := by
        simpa [Client.isLatest] using latest
      rw [mine] at requested
      rw [opened] at another
      have same : load.id = navigation.dashboard := by simpa using requested
      simp [same] at another

/-- A step that leaves the page leaves its dashboard alone. -/
theorem leavesAlone_of_same {world next : World} {id : Nat}
    (same : next.client.dashboard = world.client.dashboard) : LeavesAlone world next id :=
  ⟨congrArg _ same, fun _ => same⟩

/-- A step that shows the dashboard at its own version leaves it alone. -/
theorem leavesAlone_of_holds {world next : World} {id : Nat} {dashboard : Dashboard}
    (holds : Holds world id) (held : next.client.dashboard = some dashboard)
    (same : dashboard.id = id) : LeavesAlone world next id := by
  refine ⟨?_, fun not => absurd holds not⟩
  unfold Holds at holds
  cases before : world.client.dashboard with
  | none =>
      rw [before] at holds
      cases holds
  | some was =>
      rw [before] at holds
      have mine : was.id = id := by simpa using holds
      rw [held, Option.map_some, Option.map_some, same, mine]

/-- A response leaves every dashboard but its own alone. -/
theorem ApartSoFar.leavesAlone {world next : World} {action : Action} (so : ApartSoFar world)
    (apart : StaysApart world action) (moved : Editor.step world action = some next) {id : Nat}
    (response : action.responseOf world = some id) (another : OpenedAnother world id) :
    LeavesAlone world next id := by
  have shown := step_held moved
  generalize held : next.client.dashboard = after at shown
  cases shown with
  | kept => exact leavesAlone_of_same held
  | loaded found answered latest =>
      simp only [Action.responseOf, found] at response
      cases response
      exact absurd another (so.not_openedAnother latest)
  | refused found latest =>
      simp only [Action.responseOf, found] at response
      cases response
      exact absurd another (so.not_openedAnother latest)
  | deleted => cases response
  | @saved drain version saved draining request =>
      simp only [Action.responseOf, draining] at response
      cases response
      have holds := apart drain (by simpa using draining) another
      unfold FindsDashboard at holds
      rw [request] at holds
      have replied : drain.request.reply = some saved := by
        rw [request]
        rfl
      exact leavesAlone_of_holds holds held (so.replies.drain drain saved draining replied)
  | @rebased drain server draining request =>
      simp only [Action.responseOf, draining] at response
      cases response
      refine ⟨?_, fun holdsNot => ?_⟩
      · rw [held, Option.map_map]
        rfl
      · have found := apart drain (by simpa using draining) another
        unfold FindsDashboard at found
        rw [request] at found
        have same := found.resolve_left holdsNot
        rw [held]
        cases before : world.client.dashboard with
        | none => rfl
        | some dashboard =>
            rw [Option.map_some, ← same dashboard (by simp [before])]
  | @mutated key request reply found answered replaces =>
      have whole : request.mutation.ofDashboard = true := by
        cases kind : request.mutation <;> simp_all [Mutation.replaces, Mutation.ofDashboard]
      simp only [Action.responseOf, found, Option.filter_some, whole] at response
      cases response
      have holds := apart request (by simpa using found) replaces another
      exact leavesAlone_of_holds holds held (so.replies.requests key request reply found answered)
  | @renamed key request reply found answered renames =>
      have whole : request.mutation.ofDashboard = true := by
        cases kind : request.mutation <;> simp_all [Mutation.renames, Mutation.ofDashboard]
      simp only [Action.responseOf, found, Option.filter_some, whole] at response
      cases response
      rw [LeavesAlone, held]
      cases before : world.client.dashboard with
      | none => exact ⟨rfl, fun _ => rfl⟩
      | some dashboard =>
          rw [Option.map_some]
          split
          next same =>
            refine ⟨rfl, fun holdsNot => absurd ?_ holdsNot⟩
            simp [Holds, before, same]
          next => exact ⟨rfl, fun _ => rfl⟩
  | @configured key request dashboard widgets found replaces renames =>
      have alone : request.mutation.ofDashboard = false := by
        cases kind : request.mutation <;>
          simp_all [Mutation.replaces, Mutation.renames, Mutation.ofDashboard]
      simp only [Action.responseOf, found, Option.filter_some, alone] at response
      cases response
  | patched => cases response
  | dropped => cases response

/-- **Responses stay apart.** In a run that stays apart, once another dashboard has been
opened a response changes neither which dashboard the store holds nor, unless it is its
own, the dashboard held. -/
theorem leavesAlone_of_staysApart {world : World}
    (reached : system.ReachedWithin StaysApart world) {action : Action}
    (apart : StaysApart world action) {next : World}
    (moved : step world action = some next) {id : Nat}
    (response : action.responseOf world = some id) (another : OpenedAnother world id) :
    LeavesAlone world next id := by
  have so : ApartSoFar world := by
    apply reached.invariant
    · exact fun _ => apartSoFar_of_initial
    · intro before action after so apart moved
      exact so.step apart moved
  exact so.leavesAlone apart moved response another

/-! ## Runs -/

instance (world : World) (action : Action) : Decidable (StaysApart world action) := by
  unfold StaysApart
  split <;> infer_instance

/-- The answer to a widget added to the first dashboard lands after the second has been
opened, and puts the first one back. -/
theorem added_widget_crosses :
    ¬ ∀ world, system.Reachable world → ∀ action next, step world action = some next →
      ∀ id, action.responseOf world = some id → OpenedAnother world id →
        LeavesAlone world next id := by
  intro apart
  obtain ⟨world, reached, bad⟩ := TransitionSystem.exists_reachable_of_run sharedBoard_initial
    [.navigate 0, .serveLoad 1, .landLoad 1, .mutate 0 0 (.addWidget none ""), .navigate 1,
      .serveLoad 2, .landLoad 2, .serveMutation 0 ⟨7, 0, 8, 4, 4⟩]
    (fun world => decide (OpenedAnother world 0) &&
      (Action.landMutation 0).responseOf world == some 0 &&
        (step world (.landMutation 0)).any fun next =>
          next.client.dashboard.map (·.id) != world.client.dashboard.map (·.id)) (by decide)
  simp only [Bool.and_eq_true, decide_eq_true_eq, beq_iff_eq, Option.any_eq_true, bne_iff_ne,
    ne_eq] at bad
  obtain ⟨⟨another, response⟩, next, moved, differs⟩ := bad
  exact differs (apart world reached _ next moved 0 response another).1

/-- A save answered before the next dashboard arrives changes the first one only. -/
theorem leavesAlone_while_loading : ∃ world next : World,
    (world.client.navigation.map (·.dashboard) = some 1 ∧
      next.client.dashboard.map (fun dashboard => (dashboard.id, dashboard.version)) =
        some (0, 1)) ∧ LeavesAlone world next 0 := by
  obtain ⟨world, reached, shape⟩ := TransitionSystem.exists_reachedWithin_of_run StaysApart
    sharedBoard_initial
    [.navigate 0, .serveLoad 1, .landLoad 1, .mountGrid, .grab, .drop [⟨1, 0, 12, 4, 4⟩] [],
      .navigate 1, .serveSave]
    (fun world => decide (StaysApart world .landSave) && decide (OpenedAnother world 0) &&
      Action.landSave.responseOf world == some 0 &&
      world.client.navigation.map (·.dashboard) == some 1 &&
        (step world .landSave).any fun next =>
          next.client.dashboard.map (fun dashboard => (dashboard.id, dashboard.version)) ==
            some (0, 1)) (by decide)
  simp only [Bool.and_eq_true, decide_eq_true_eq, beq_iff_eq, Option.any_eq_true] at shape
  obtain ⟨⟨⟨⟨apart, another⟩, response⟩, opened⟩, next, moved, held⟩ := shape
  exact ⟨world, next, ⟨opened, held⟩,
    leavesAlone_of_staysApart reached apart moved response another⟩

end FrontDashboard.Editor
