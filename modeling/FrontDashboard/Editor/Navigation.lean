import FrontDashboard.Editor.Loads

/-! # The last foreground load wins

Once no load is in flight, the store should not be loading, and should hold the
dashboard that the last foreground load named, if its request succeeded. A foreground
load holds its own as long as no background load of another dashboard takes its place
as the latest, and no load that has been left behind goes on in the foreground.
-/

namespace FrontDashboard.Editor

/-! ## What the store shows -/

/-- The invariant of the store: it is loading only while the latest load is in the
foreground, and it shows a dashboard whose request has succeeded. -/
structure StoreRight (client : Client) : Prop where
  loading : client.loading = true → client.Awaited
  shows : ∀ navigation, client.navigation = some navigation → navigation.answer = .succeeded →
    client.Shows navigation.dashboard

/-- While the latest load is in the foreground, no answer has come. -/
theorem LoadsRight.not_awaited {client : Client} (right : LoadsRight client)
    {navigation : Navigation} (opened : client.navigation = some navigation)
    (succeeded : navigation.answer = .succeeded) : ¬ client.Awaited := by
  intro awaited
  obtain ⟨key, load, present, latest, wants⟩ := awaited_iff.mp awaited
  obtain ⟨other, given, waits⟩ := right.waits present latest wants
  cases opened.symm.trans given
  exact nomatch succeeded.symm.trans waits

/-- The page waits for what it waited for while the loads stay. -/
theorem awaited_of_kept {client next : Client} (awaited : client.Awaited)
    (kept : LoadingKept client next) : next.Awaited := by
  obtain ⟨key, load, present, latest, wants⟩ := awaited_iff.mp awaited
  refine awaited_iff.mpr ⟨key, load, ?_, ?_, wants⟩
  · rw [kept.loads, present]
  · rw [isLatest_of_latest kept.latest, latest]

/-- The page shows what it showed while the dashboard held and the error do. -/
theorem shows_of_same {client next : Client} {id : Nat} (shows : client.Shows id)
    (held : next.dashboard.map (·.id) = client.dashboard.map (·.id))
    (loadError : next.loadError = client.loadError) : next.Shows id := by
  rcases shows with ⟨dashboard, holds, same⟩ | ⟨none, error⟩
  · rw [holds, Option.map_some] at held
    obtain ⟨after, given, known⟩ := Option.map_eq_some_iff.mp held
    exact .inl ⟨after, given, known.trans same⟩
  · rw [none, Option.map_none, Option.map_eq_none_iff] at held
    exact .inr ⟨held, loadError.trans error⟩

/-- A step that leaves what is awaited and shown keeps the store right. -/
theorem StoreRight.of_kept {client next : Client} (right : StoreRight client)
    (kept : LoadingKept client next)
    (held : next.dashboard.map (·.id) = client.dashboard.map (·.id))
    (loading : next.loading = client.loading) (loadError : next.loadError = client.loadError) :
    StoreRight next := by
  constructor
  · intro loads
    rw [loading] at loads
    exact awaited_of_kept (right.loading loads) kept
  · intro navigation opened succeeded
    rw [kept.navigation] at opened
    exact shows_of_same (right.shows navigation opened succeeded) held loadError

/-- A latest load in the foreground is awaited. -/
theorem awaited_of_placed {client : Client} {key : Nat} {load : Load}
    (present : client.loads.get key = some load)
    (latest : client.latestDashboardRequest = some (load.id, load.latestRequestSerial))
    (wants : load.wantsForeground = true) : client.Awaited :=
  awaited_iff.mpr ⟨key, load, present, isLatest_iff.mpr latest, wants⟩

/-- A navigation begins with the store right. -/
theorem storeRight_navigate (id : Nat) (client : Client) : StoreRight (client.navigate id) := by
  unfold Client.navigate
  split
  next current =>
    refine ⟨nofun, fun navigation opened _ => ?_⟩
    cases opened
    unfold Client.isCurrent at current
    simp only [Bool.and_eq_true, Option.any_eq_true, beq_iff_eq] at current
    exact .inl current.1.1.1.2
  next =>
    refine ⟨fun _ => ?_, fun navigation opened succeeded => by cases opened; cases succeeded⟩
    dsimp only
    unfold Client.request
    split
    next key load joins =>
      apply @awaited_of_placed _ key (load.joinedBy client.nextSerial .foreground)
      · exact InsertionMap.insert_get_self _ _ _
      · rfl
      · rw [wantsForeground_joinedBy]
        exact Bool.or_true _
    next =>
      refine @awaited_of_placed _ client.nextSerial
        ⟨id, .foreground, none, client.nextSerial, none⟩ ?_ rfl rfl
      exact InsertionMap.insert_get_self _ _ _

/-- A refresh leaves the flags. -/
theorem refresh_flags (id : Nat) (surfaceAccessLoss : Bool) (client : Client) :
    (client.refresh id surfaceAccessLoss).loading = client.loading ∧
      (client.refresh id surfaceAccessLoss).loadError = client.loadError := by
  unfold Client.refresh Client.request
  split <;> exact ⟨rfl, rfl⟩

/-- A refresh of the dashboard asked for last keeps the store right. -/
theorem StoreRight.refresh {client : Client} (right : StoreRight client)
    (loads : LoadsRight client) {id : Nat} (surfaceAccessLoss : Bool)
    (names : ∀ navigation, client.navigation = some navigation → navigation.answer ≠ .failed →
      navigation.dashboard = id) : StoreRight (client.refresh id surfaceAccessLoss) := by
  have flags := refresh_flags id surfaceAccessLoss client
  constructor
  · intro loading
    rw [flags.1] at loading
    obtain ⟨key, load, present, latest, wants⟩ := awaited_iff.mp (right.loading loading)
    obtain ⟨navigation, opened, waits⟩ := loads.waits present latest wants
    obtain ⟨found, joins, -, wanted⟩ := loads.joined_of_waiting opened waits
    rw [names navigation opened (by rw [waits]; nofun)] at joins
    unfold Client.refresh Client.request
    rw [joins]
    apply @awaited_of_placed _ key (found.joinedBy client.nextSerial ⟨true, surfaceAccessLoss⟩)
    · exact InsertionMap.insert_get_self _ _ _
    · rfl
    · rw [wantsForeground_joinedBy, wanted]
      rfl
  · intro navigation opened succeeded
    unfold Client.refresh at opened
    rw [request_navigation] at opened
    have shows := right.shows navigation opened succeeded
    exact shows_of_same shows (congrArg _ (Client.refresh_dashboard _ _ _)) flags.2

/-- A load that ends in the background leaves the flags. -/
theorem proceed_flags {key : Nat} {load : Load} {client : Client}
    (stays : load.queuedOptions.any (fun options => !options.background) = false) :
    (client.proceed key load).loading = client.loading ∧
      (client.proceed key load).loadError = client.loadError := by
  unfold Client.proceed
  split
  next options queued =>
    have background : options.background = true := by simpa [queued] using stays
    simp [Client.startLoading, background]
  next => exact ⟨rfl, rfl⟩

/-- A load that has been asked for in the foreground goes on in it. -/
theorem proceed_goesOn {key : Nat} {load : Load} {client : Client}
    (goes : load.queuedOptions.any (fun options => !options.background) = true) :
    ∃ next, (client.proceed key load).loads = client.loads.insert key next ∧
      next.id = load.id ∧ next.latestRequestSerial = load.latestRequestSerial ∧
        next.wantsForeground = true := by
  unfold Client.proceed
  split
  next options queued =>
    have foreground : options.background = false := by simpa [queued] using goes
    refine ⟨⟨load.id, options, none, load.latestRequestSerial, none⟩, ?_, rfl, rfl, ?_⟩
    · unfold Client.startLoading
      split <;> rfl
    · simp [Load.wantsForeground, foreground]
  next ended => simp [ended] at goes

/-- The other loads stay. -/
theorem proceed_get_of_ne {key other : Nat} {load : Load} {client : Client}
    (differs : other ≠ key) :
    (client.proceed key load).loads.get other = client.loads.get other := by
  unfold Client.proceed
  split
  · unfold Client.startLoading
    split <;> exact InsertionMap.insert_get_of_ne _ _ differs
  · exact InsertionMap.delete_get_of_ne _ differs

/-- A load left behind goes on in the foreground only beside the latest. -/
def Beside (load : Load) (client : Client) : Prop :=
  load.queuedOptions.any (fun options => !options.background) = true → client.Awaited

/-- What is awaited when an answer comes is awaited still, unless it was this answer. -/
theorem awaited_proceed {client after : Client} {key : Nat} {load : Load}
    (present : client.loads.get key = some load)
    (sameLoads : after.loads = client.loads)
    (sameLatest : after.latestDashboardRequest = client.latestDashboardRequest)
    (awaited : client.Awaited)
    (background : client.isLatest load = true → load.options.background = true) :
    (after.proceed key load).Awaited := by
  obtain ⟨other, found, given, latest, wants⟩ := awaited_iff.mp awaited
  have latestAfter : (after.proceed key load).latestDashboardRequest =
      some (found.id, found.latestRequestSerial) := by
    rw [proceed_latest, sameLatest, isLatest_iff.mp latest]
  by_cases mine : other = key
  · subst mine
    cases present.symm.trans given
    have goes : load.queuedOptions.any (fun options => !options.background) = true := by
      simpa [Load.wantsForeground, background latest] using wants
    obtain ⟨next, placed, id, serial, wanted⟩ := @proceed_goesOn other load after goes
    apply @awaited_of_placed _ other next
    · rw [placed]
      exact InsertionMap.insert_get_self _ _ _
    · rw [latestAfter, id, serial]
    · exact wanted
  · apply @awaited_of_placed _ other found
    · rw [proceed_get_of_ne mine, sameLoads, given]
    · exact latestAfter
    · exact wants

/-- The store stays right when a load whose answer it has shown goes on, or ends. -/
theorem StoreRight.proceed {client after : Client} (right : StoreRight client)
    (loads : LoadsRight client) {key : Nat} {load : Load} {answer : Answer}
    (present : client.loads.get key = some load)
    (beside : client.isLatest load = false → Beside load client)
    (sameLoads : after.loads = client.loads)
    (sameLatest : after.latestDashboardRequest = client.latestDashboardRequest)
    (navigation : after.navigation = (client.answer key load answer).navigation)
    (loading : after.loading = true →
      client.loading = true ∧ (client.isLatest load = true → load.options.background = true))
    (shows : ∀ navigation, after.navigation = some navigation → navigation.answer = .succeeded →
      after.Shows navigation.dashboard) : StoreRight (after.proceed key load) := by
  -- Going on in the foreground means that an answer is still to come.
  have goesOn : load.queuedOptions.any (fun options => !options.background) = true →
      client.Awaited ∧ load.options.background = true := by
    intro goes
    constructor
    · cases latest : client.isLatest load with
      | false => exact beside latest goes
      | true =>
          refine awaited_iff.mpr ⟨key, load, present, latest, ?_⟩
          unfold Load.wantsForeground
          rw [goes, Bool.or_true]
    · by_contra foreground
      cases queued : load.queuedOptions with
      | none => simp [queued] at goes
      | some options =>
          have background :=
            loads.single key load present (by simpa using foreground) options queued
          simp [queued, background] at goes
  constructor
  · intro given
    cases goes : load.queuedOptions.any (fun options => !options.background) with
    | true =>
        obtain ⟨awaited, background⟩ := goesOn goes
        exact awaited_proceed present sameLoads sameLatest awaited fun _ => background
    | false =>
        rw [(proceed_flags goes).1] at given
        obtain ⟨before, background⟩ := loading given
        exact awaited_proceed present sameLoads sameLatest (right.loading before) background
  · intro opened given succeeded
    rw [proceed_navigation] at given
    have stays : load.queuedOptions.any (fun options => !options.background) = false := by
      by_contra goes
      obtain ⟨awaited, background⟩ := goesOn (by simpa using goes)
      rw [navigation] at given
      rcases answer_navigation given with ⟨was, -⟩ | ⟨-, -, -, foreground, -⟩
      · exact loads.not_awaited was succeeded awaited
      · exact absurd (foreground.symm.trans background) nofun
    exact shows_of_same (shows opened given succeeded)
      (congrArg _ (Client.proceed_dashboard _ _ _)) (proceed_flags stays).2

/-- A response to the latest load is shown. -/
theorem showLoaded_shows {client : Client} {load : Load} {dashboard : Dashboard}
    (latest : client.isLatest load = true) :
    (client.showLoaded load dashboard).dashboard = some dashboard := by
  unfold Client.showLoaded
  rw [if_pos latest]

/-- A response keeps the store right. -/
theorem StoreRight.landLoad {client : Client} (right : StoreRight client)
    (loads : LoadsRight client) {key : Nat} {load : Load} {dashboard : Dashboard}
    (present : client.loads.get key = some load) (same : dashboard.id = load.id)
    (beside : client.isLatest load = false → Beside load client) :
    StoreRight (client.landLoad key load dashboard) := by
  have kept := Client.showLoaded_loadingKept load dashboard client
  have navigation : ((client.showLoaded load dashboard).answer key load .succeeded).navigation =
      (client.answer key load .succeeded).navigation := by
    unfold Client.answer
    rw [kept.navigation]
  unfold Client.landLoad
  refine right.proceed loads present beside kept.loads kept.latest navigation ?_ ?_
  · intro loading
    unfold Client.answer Client.showLoaded at loading
    cases latest : client.isLatest load with
    | false =>
        rw [latest] at loading
        exact ⟨loading, nofun⟩
    | true =>
        rw [latest] at loading
        obtain ⟨before, background⟩ := Bool.and_eq_true_iff.mp loading
        exact ⟨before, fun _ => background⟩
  · intro opened given succeeded
    rw [navigation] at given
    cases latest : client.isLatest load with
    | true =>
        have follows := loads.follows_answer given (by rw [succeeded]; nofun)
        rw [isLatest_iff.mp latest] at follows
        have named : load.id = opened.dashboard := by simpa using follows
        exact .inl ⟨dashboard, showLoaded_shows latest, same.trans named⟩
    | false =>
        have unshown : client.showLoaded load dashboard = client := by
          unfold Client.showLoaded
          rw [latest]
          rfl
        rw [unshown]
        rcases answer_navigation given with ⟨was, -⟩ | ⟨before, was, waits, -, -⟩
        · exact right.shows opened was succeeded
        · obtain ⟨found, old, is, -, -⟩ := loads.waiting before key was waits
          cases present.symm.trans old
          exact absurd (latest.symm.trans is) nofun

/-- A failure keeps the store right. -/
theorem StoreRight.failLoad {client : Client} (right : StoreRight client)
    (loads : LoadsRight client) {key : Nat} {load : Load} {forbidden : Bool}
    (present : client.loads.get key = some load)
    (beside : client.isLatest load = false → Beside load client) :
    StoreRight (client.failLoad key load forbidden) := by
  have kept := Client.showFailed_loadingKept load forbidden client
  have navigation : ((client.showFailed load forbidden).answer key load .failed).navigation =
      (client.answer key load .failed).navigation := by
    unfold Client.answer
    rw [kept.navigation]
  unfold Client.failLoad
  refine right.proceed loads present beside kept.loads kept.latest navigation ?_ ?_
  · intro loading
    unfold Client.answer Client.showFailed at loading
    dsimp only at loading
    split at loading
    · cases loading
    next shown =>
      refine ⟨loading, fun latest => ?_⟩
      by_contra foreground
      exact shown (by simp [latest, foreground])
  · intro opened given succeeded
    rw [navigation] at given
    rcases answer_navigation given with ⟨was, -⟩ | ⟨before, -, -, -, rfl⟩
    · have background : client.isLatest load = true → load.options.background = true := by
        intro latest
        by_contra foreground
        refine loads.not_awaited was succeeded
          (awaited_iff.mpr ⟨key, load, present, latest, ?_⟩)
        have foreground : load.options.background = false := by simpa using foreground
        simp [Load.wantsForeground, foreground]
      have shows := right.shows opened was succeeded
      unfold Client.showFailed
      dsimp only
      split
      next shown =>
        simp only [Bool.and_eq_true] at shown
        obtain ⟨latest, lost⟩ := shown
        rw [background latest] at lost ⊢
        simp only [Bool.not_true, Bool.true_and, Bool.false_or] at lost ⊢
        exact .inr ⟨if_pos lost, rfl⟩
      next => exact shows
    · cases succeeded

/-- A dashboard that is lost leaves the store right. -/
theorem storeRight_loseDashboard (client : Client) : StoreRight client.loseDashboard :=
  ⟨nofun, fun _ _ _ => .inr ⟨rfl, rfl⟩⟩

/-- A frame about the dashboard held keeps the store right. -/
theorem StoreRight.handleFrame {client : Client} (right : StoreRight client) {dashboard : Dashboard}
    (holds : client.dashboard = some dashboard) (frame : Frame) :
    StoreRight (client.handleFrame frame dashboard) := by
  have keeps : ∀ {next : Client} {after : Dashboard}, LoadingKept client next →
      next.dashboard = some after → after.id = dashboard.id → next.loading = client.loading →
        next.loadError = client.loadError → StoreRight next := by
    intro next after kept held same loading loadError
    refine right.of_kept kept ?_ loading loadError
    rw [held, holds, Option.map_some, Option.map_some, same]
  cases frame with
  | layout id version own =>
      unfold Client.handleFrame
      dsimp only
      split
      · exact right
      · exact keeps ⟨rfl, rfl, rfl, rfl⟩ holds rfl rfl rfl
  | widgets id own | name id own | shares id own =>
      unfold Client.handleFrame
      dsimp only
      split
      · exact right
      · exact keeps ⟨rfl, rfl, rfl, rfl⟩ holds rfl rfl rfl
  | config id widget config own =>
      unfold Client.handleFrame
      dsimp only
      split
      · exact right
      · split
        · exact keeps ⟨rfl, rfl, rfl, rfl⟩ rfl rfl rfl rfl
        · exact keeps ⟨rfl, rfl, rfl, rfl⟩ holds rfl rfl rfl
  | deleted id => exact storeRight_loseDashboard client
  | listDeleted id list removed own => exact keeps ⟨rfl, rfl, rfl, rfl⟩ rfl rfl rfl rfl

/-- Every frame keeps the store right. -/
theorem StoreRight.receive {client : Client} (right : StoreRight client) (frame : Frame) :
    StoreRight (client.receive frame) := by
  unfold Client.receive
  split
  next dashboard holds =>
    split
    · exact right.handleFrame holds frame
    · exact right
  next => exact right

/-- A reply about the dashboard held keeps the store right. -/
theorem StoreRight.landMutation {client : Client} (right : StoreRight client)
    {dashboardId : Nat} {mutation : Mutation} {reply : Dashboard} (same : reply.id = dashboardId)
    (holds : mutation.replaces = true → client.dashboard.map (·.id) = some dashboardId) :
    StoreRight (client.landMutation dashboardId mutation reply) := by
  have kept := Client.landMutation_loadingKept dashboardId mutation reply client
  unfold Client.landMutation at kept ⊢
  split at kept
  · refine right.of_kept kept ?_ rfl rfl
    rw [holds rfl, Option.map_some, same]
  · refine right.of_kept kept ?_ rfl rfl
    rw [holds rfl, Option.map_some, same]
  · refine right.of_kept kept ?_ rfl rfl
    rw [Option.map_map]
    refine congrArg (fun name => client.dashboard.map name) (funext fun dashboard => ?_)
    simp only [Function.comp_apply]
    split <;> rfl
  · refine right.of_kept kept ?_ rfl rfl
    rw [Option.map_map]
    rfl

/-- The queue of layouts leaves the flags when its next request goes out. -/
theorem drainNext_flags (client : Client) : client.drainNext.loading = client.loading ∧
    client.drainNext.loadError = client.loadError := by
  unfold Client.drainNext
  split
  · split <;> exact ⟨rfl, rfl⟩
  · exact ⟨rfl, rfl⟩

/-- A layout that joins the queue leaves the flags. -/
theorem saveLayout_flags (layout : Arrangement) (client : Client) :
    (client.saveLayout layout).loading = client.loading ∧
      (client.saveLayout layout).loadError = client.loadError := by
  unfold Client.saveLayout
  split
  · exact ⟨rfl, rfl⟩
  · dsimp only
    split
    · exact ⟨rfl, rfl⟩
    · exact drainNext_flags _

/-- A layout that is dropped keeps the store right. -/
theorem StoreRight.drop {client : Client} (right : StoreRight client) (dashboard : Dashboard)
    (layout : Arrangement) : StoreRight (client.drop dashboard layout) := by
  have flags : (client.drop dashboard layout).loading = client.loading ∧
      (client.drop dashboard layout).loadError = client.loadError := by
    unfold Client.drop
    dsimp only
    split
    · exact ⟨rfl, rfl⟩
    · exact saveLayout_flags layout _
  exact right.of_kept (Client.drop_loadingKept dashboard layout client)
    (congrArg _ (Client.drop_dashboard _ _ _)) flags.1 flags.2

/-- An answer about the dashboard held keeps the store right. -/
theorem StoreRight.landSave {client : Client} (right : StoreRight client) {drain : Drain}
    (holds : ∀ version saved, drain.request = .put version (some (.saved saved)) →
      client.dashboard.map (·.id) = some saved.id) : StoreRight (client.landSave drain) := by
  have kept := Client.landSave_loadingKept drain client
  unfold Client.landSave at kept ⊢
  split
  next pending =>
    unfold Client.landConflict
    split <;> exact right.of_kept ⟨rfl, rfl, rfl, rfl⟩ rfl rfl rfl
  next version saved request =>
    simp only [request] at kept
    have flags := drainNext_flags (client.showSaved saved)
    refine right.of_kept kept ?_ flags.1 flags.2
    rw [Client.drainNext_dashboard, holds version saved request]
    rfl
  next server request =>
    simp only [request] at kept
    have flags := drainNext_flags ((client.showRebased server).queueReplay drain.pending server)
    refine right.of_kept kept ?_ flags.1 flags.2
    rw [Client.drainNext_dashboard]
    exact Option.map_map _ _ _
  · exact right

/-- A save that fails keeps the store right. -/
theorem StoreRight.failSave {client : Client} (right : StoreRight client) (drain : Drain) :
    StoreRight (client.failSave drain) := by
  unfold Client.failSave
  split <;> exact right.of_kept ⟨rfl, rfl, rfl, rfl⟩ rfl rfl rfl

/-- An answer that is drawn keeps the store right. -/
theorem StoreRight.serveLoad {client next : Client} (right : StoreRight client) {key : Nat}
    {load : Load} {response : Option Dashboard} (present : client.loads.get key = some load)
    (same : next = { client with loads := client.loads.insert key { load with response } }) :
    StoreRight next := by
  subst same
  refine ⟨fun loading => ?_, right.shows⟩
  obtain ⟨other, found, old, latest, wants⟩ := awaited_iff.mp (right.loading loading)
  by_cases mine : other = key
  · subst mine
    cases present.symm.trans old
    exact awaited_iff.mpr ⟨other, _, InsertionMap.insert_get_self _ _ _, latest, wants⟩
  · refine awaited_iff.mpr ⟨other, found, ?_, latest, wants⟩
    exact (InsertionMap.insert_get_of_ne _ _ mine).trans old

/-! ## Runs -/

/-- The invariant of the runs that let the last foreground load win. -/
structure WinsSoFar (world : World) : Prop where
  loads : LoadsRight world.client
  store : StoreRight world.client
  replies : Replies (fun id reply => reply.id = id) world.client

/-- The store begins right. -/
theorem winsSoFar_of_initial {world : World} (begins : system.Initial world) :
    WinsSoFar world := by
  obtain ⟨fresh, -⟩ := begins
  constructor
  · rw [fresh]
    exact ⟨nofun, nofun, nofun, nofun, nofun, nofun⟩
  · rw [fresh]
    exact ⟨nofun, nofun⟩
  · rw [fresh]
    exact ⟨nofun, nofun, nofun⟩

/-- The dashboard named is the one asked for last. -/
theorem names_apply {world : World} {id : Nat} (names : Names world id)
    (navigation : Navigation) (opened : world.client.navigation = some navigation)
    (standing : navigation.answer ≠ .failed) : navigation.dashboard = id :=
  names navigation (by simpa using opened) standing

/-- A world that holds a dashboard has it by its id. -/
theorem held_of_holds {world : World} {id : Nat} (holds : Holds world id) :
    world.client.dashboard.map (·.id) = some id := by
  unfold Holds at holds
  cases held : world.client.dashboard with
  | none => simp [held] at holds
  | some dashboard => simpa [held] using holds

/-- **A step** keeps the loads right. -/
theorem LoadsRight.step {world next : World} {action : Action} (loads : LoadsRight world.client)
    (wins : LetsWin world action) (moved : step world action = some next) :
    LoadsRight next.client := by
  cases step_moves moved with
  | navigate => exact loads.navigate _
  | @resync dashboard holds =>
      exact loads.refresh true (names_apply (wins dashboard (by simpa using holds)))
  | @runRefresh id surfaceAccessLoss scheduled =>
      have cleared : LoadsRight { world.client with dashboardRefresh := none } :=
        loads.of_kept ⟨rfl, rfl, rfl, rfl⟩
      exact cleared.refresh _ (names_apply (wins (id, _) (by simpa using scheduled)))
  | serveLoad found => exact loads.serveLoad found rfl
  | @landLoad key load dashboard found answered =>
      have kept := Client.showLoaded_loadingKept load dashboard world.client
      refine (loads.of_kept kept).answered ?_ nofun
      rw [kept.loads, found]
  | @failLoad key load forbidden found =>
      have kept := Client.showFailed_loadingKept load forbidden world.client
      refine (loads.of_kept kept).answered ?_ nofun
      rw [kept.loads, found]
  | deliver => exact loads.of_kept (Client.receive_loadingKept _ _)
  | @landMutation key request reply =>
      have cleared : LoadsRight { world.client with
          requests := world.client.requests.delete key } :=
        loads.of_kept ⟨rfl, rfl, rfl, rfl⟩
      exact cleared.of_kept (Client.landMutation_loadingKept _ _ _ _)
  | drop => exact loads.of_kept (Client.drop_loadingKept _ _ _)
  | accept _ _ _ _ same =>
      subst same
      exact loads.of_kept ⟨rfl, rfl, rfl, rfl⟩
  | landSave => exact loads.of_kept (Client.landSave_loadingKept _ _)
  | failSave => exact loads.of_kept (Client.failSave_loadingKept _ _)
  | idle => exact loads
  | _ => exact loads.of_kept ⟨rfl, rfl, rfl, rfl⟩

/-- **A step** keeps the store right. -/
theorem StoreRight.step {world next : World} {action : Action} (so : WinsSoFar world)
    (wins : LetsWin world action) (moved : Editor.step world action = some next) :
    StoreRight next.client := by
  obtain ⟨loads, store, replies⟩ := so
  cases step_moves moved with
  | navigate => exact storeRight_navigate _ _
  | @resync dashboard holds =>
      exact store.refresh loads true (names_apply (wins dashboard (by simpa using holds)))
  | @runRefresh id surfaceAccessLoss scheduled =>
      have cleared : StoreRight { world.client with dashboardRefresh := none } :=
        store.of_kept ⟨rfl, rfl, rfl, rfl⟩ rfl rfl rfl
      exact cleared.refresh (loads.of_kept ⟨rfl, rfl, rfl, rfl⟩) _
        (names_apply (wins (id, _) (by simpa using scheduled)))
  | serveLoad found => exact store.serveLoad found rfl
  | @landLoad key load dashboard found answered =>
      exact store.landLoad loads found (replies.loads key load dashboard found answered)
        (wins load (by simpa using found))
  | @failLoad key load forbidden found =>
      exact store.failLoad loads found (wins load (by simpa using found))
  | deliver => exact store.receive _
  | @landMutation key request reply found answered =>
      have cleared : StoreRight { world.client with
          requests := world.client.requests.delete key } :=
        store.of_kept ⟨rfl, rfl, rfl, rfl⟩ rfl rfl rfl
      apply cleared.landMutation (replies.requests key request reply found answered)
      exact fun replaces => held_of_holds (wins request (by simpa using found) replaces)
  | drop => exact store.drop _ _
  | accept _ _ _ _ same =>
      subst same
      exact store.of_kept ⟨rfl, rfl, rfl, rfl⟩ rfl rfl rfl
  | @landSave drain draining =>
      apply store.landSave
      intro version saved request
      have own := wins drain (by simpa using draining)
      unfold SavesOwn at own
      rw [request] at own
      have replied : drain.request.reply = some saved := by
        rw [request]
        rfl
      rw [replies.drain drain saved draining replied]
      exact held_of_holds own
  | failSave => exact store.failSave _
  | idle => exact store
  | _ => exact store.of_kept ⟨rfl, rfl, rfl, rfl⟩ rfl rfl rfl

/-- **The last foreground load wins.** In a run that lets it win, once no load is in
flight the store is not loading, and shows the dashboard of the last foreground load if
its request succeeded. -/
theorem lastLoadWins_of_letsWin {world : World} (reached : system.ReachedWithin LetsWin world) :
    LastLoadWins world := by
  have so : WinsSoFar world := by
    apply reached.invariant
    · exact fun _ => winsSoFar_of_initial
    · intro before action after so wins moved
      exact ⟨so.loads.step wins moved, StoreRight.step so wins moved,
        so.replies.step (fun _ => rfl) moved⟩
  intro empty
  refine ⟨?_, so.store.shows⟩
  by_contra loading
  obtain ⟨key, load, present, -⟩ := awaited_iff.mp (so.store.loading (by simpa using loading))
  have mem := InsertionMap.mem_keys_of_get present
  rw [empty] at mem
  cases mem

instance (world : World) (action : Action) : Decidable (LetsWin world action) := by
  rcases action <;> dsimp only [LetsWin] <;> infer_instance

/-- A refresh scheduled for the first dashboard runs once the second one is on its way,
and becomes the latest load: its response puts the first dashboard back, and the spinner
of the second one stays. -/
theorem refresh_takes_over :
    ¬ ∀ world, system.Reachable world → LastLoadWins world := by
  intro wins
  obtain ⟨world, reached, bad⟩ := TransitionSystem.exists_reachable_of_run sharedBoard_initial
    [.navigate 0, .serveLoad 1, .landLoad 1, .write 0 (.layout []), .deliver, .navigate 1,
      .runRefresh, .serveLoad 2, .landLoad 2, .serveLoad 3, .landLoad 3]
    (fun world => world.client.loads.keys == [] && world.client.loading &&
      world.client.dashboard.map (·.id) == some 0 &&
        world.client.navigation == some ⟨1, .succeeded⟩) (by decide)
  simp only [Bool.and_eq_true, beq_iff_eq] at bad
  obtain ⟨⟨⟨empty, loading⟩, -⟩, -⟩ := bad
  exact absurd ((wins world reached empty).1.symm.trans loading) nofun

/-- The second dashboard opened is shown, with a refresh of it landing last. -/
theorem lastLoadWins_after_refresh : ∃ world : World,
    (world.client.loads.keys = [] ∧ world.client.navigation = some ⟨1, .succeeded⟩) ∧
      LastLoadWins world := by
  obtain ⟨world, reached, shape⟩ := TransitionSystem.exists_reachedWithin_of_run LetsWin
    sharedBoard_initial
    [.navigate 0, .serveLoad 1, .navigate 1, .serveLoad 2, .landLoad 1, .landLoad 2,
      .write 1 (.layout []), .deliver, .runRefresh, .serveLoad 3, .landLoad 3]
    (fun world => world.client.loads.keys == [] &&
      world.client.navigation == some ⟨1, .succeeded⟩) (by decide)
  simp only [Bool.and_eq_true, beq_iff_eq] at shape
  exact ⟨world, shape, lastLoadWins_of_letsWin reached⟩

end FrontDashboard.Editor
