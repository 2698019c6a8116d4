import FrontDashboard.Editor.Crossing

/-! # The loads of a dashboard

What it is for the last foreground load to win, the steps that let it, and the loads in
flight under them: the latest of those that run in the foreground names the dashboard that
was asked for last, and waits for its answer.
-/

namespace FrontDashboard.Editor

/-- Whether a load runs in the foreground, or will. -/
def Load.wantsForeground (load : Load) : Bool :=
  !load.options.background || load.queuedOptions.any fun options => !options.background

namespace Client

/-- A load that is the latest runs in the foreground, or will. -/
def Awaited (client : Client) : Prop :=
  client.loads.values.any (fun load => client.isLatest load && load.wantsForeground) = true

instance (client : Client) : Decidable client.Awaited :=
  inferInstanceAs (Decidable (_ = _))

/-- What the store shows of a navigation that succeeded: its dashboard, or the error
that says it is no longer there. -/
def Shows (id : Nat) (client : Client) : Prop :=
  (∃ dashboard, client.dashboard = some dashboard ∧ dashboard.id = id) ∨
    client.dashboard = none ∧ client.loadError = true

end Client

/-- With no load in flight, the store is not loading, and shows the dashboard of the
last foreground load if its request succeeded. -/
def LastLoadWins (world : World) : Prop :=
  world.client.loads.keys = [] → world.client.loading = false ∧
    ∀ navigation, world.client.navigation = some navigation →
      navigation.answer = .succeeded → world.client.Shows navigation.dashboard

/-! ## The steps that let it win -/

/-- The dashboard is the one of the last foreground load, unless that load failed. -/
def Names (world : World) (id : Nat) : Prop :=
  ∀ navigation ∈ world.client.navigation.toList, navigation.answer ≠ .failed →
    navigation.dashboard = id

instance (world : World) (id : Nat) : Decidable (Names world id) :=
  inferInstanceAs (Decidable (∀ navigation ∈ world.client.navigation.toList, _ → _))

/-- A load left behind that goes on in the foreground does so beside the latest. -/
def GoesOn (world : World) (key : Nat) : Prop :=
  ∀ load ∈ (world.client.loads.get key).toList, world.client.isLatest load = false →
    load.queuedOptions.any (fun options => !options.background) = true → world.client.Awaited

instance (world : World) (key : Nat) : Decidable (GoesOn world key) :=
  inferInstanceAs (Decidable (∀ load ∈ (world.client.loads.get key).toList, _ → _ → _))

/-- The answer to a layout finds its dashboard held. -/
def SavesOwn (world : World) (drain : Drain) : Prop :=
  match drain.request with
  | .put _ (some (.saved _)) => Holds world drain.pending.dashboardId
  | _ => True

instance (world : World) (drain : Drain) : Decidable (SavesOwn world drain) := by
  dsimp only [SavesOwn]
  generalize drain.request = request
  rcases request with ⟨_, _ | _ | _⟩ | _ <;> dsimp only <;> infer_instance

/-- The steps that let the last foreground load win. -/
def LetsWin (world : World) : Action → Prop
  | .resync => ∀ dashboard ∈ world.client.dashboard.toList, Names world dashboard.id
  | .runRefresh => ∀ scheduled ∈ world.client.dashboardRefresh.toList, Names world scheduled.1
  | .landLoad key | .failLoad key _ => GoesOn world key
  | .landMutation key => ∀ request ∈ (world.client.requests.get key).toList,
      request.mutation.replaces = true → Holds world request.dashboardId
  | .landSave => ∀ drain ∈ world.client.drain.toList, SavesOwn world drain
  | _ => True

/-! ## The loads -/

/-- The invariant of the loads. -/
structure LoadsRight (client : Client) : Prop where
  /-- The latest request is of the dashboard the last foreground load named. -/
  follows : ∀ navigation, client.navigation = some navigation → navigation.answer ≠ .failed →
    client.latestDashboardRequest.map (·.1) = some navigation.dashboard
  /-- The latest load is the one in flight. -/
  pointed : ∀ key load, client.loads.get key = some load → client.isLatest load = true →
    client.inFlightDashboardLoad = some key
  older : ∀ key load, client.loads.get key = some load →
    key < client.nextSerial ∧ load.latestRequestSerial < client.nextSerial
  /-- A load in the foreground has nothing queued but background loads. -/
  single : ∀ key load, client.loads.get key = some load → load.options.background = false →
    ∀ options, load.queuedOptions = some options → options.background = true
  /-- A foreground load in flight is awaited, or has been left for another dashboard. -/
  awaited : ∀ key load, client.inFlightDashboardLoad = some key →
    client.loads.get key = some load → load.wantsForeground = true →
      ∃ navigation, client.navigation = some navigation ∧
        (navigation.answer = .waiting key ∨
          navigation.answer = .succeeded ∧ navigation.dashboard ≠ load.id)
  /-- What the last foreground load waits for is the latest load. -/
  waiting : ∀ navigation key, client.navigation = some navigation →
    navigation.answer = .waiting key → ∃ load, client.loads.get key = some load ∧
      client.isLatest load = true ∧ load.id = navigation.dashboard ∧
        load.wantsForeground = true

theorem isLatest_iff {client : Client} {load : Load} : client.isLatest load = true ↔
    client.latestDashboardRequest = some (load.id, load.latestRequestSerial) := by
  simp [Client.isLatest]

theorem isLatest_of_latest {client next : Client}
    (latest : next.latestDashboardRequest = client.latestDashboardRequest) (load : Load) :
    next.isLatest load = client.isLatest load := by
  unfold Client.isLatest
  rw [latest]

theorem nextSerial_of_latest {client next : Client}
    (latest : next.latestDashboardRequest = client.latestDashboardRequest) :
    next.nextSerial = client.nextSerial := by
  unfold Client.nextSerial
  rw [latest]

theorem awaited_iff {client : Client} : client.Awaited ↔
    ∃ key load, client.loads.get key = some load ∧ client.isLatest load = true ∧
      load.wantsForeground = true := by
  unfold Client.Awaited
  simp only [List.any_eq_true, InsertionMap.mem_values, Bool.and_eq_true]
  constructor
  · rintro ⟨load, ⟨key, present⟩, latest, wants⟩
    exact ⟨key, load, present, latest, wants⟩
  · rintro ⟨key, load, present, latest, wants⟩
    exact ⟨load, ⟨key, present⟩, latest, wants⟩

/-- The latest foreground load is the one the last foreground load waits for. -/
theorem LoadsRight.waits {client : Client} (right : LoadsRight client) {key : Nat} {load : Load}
    (present : client.loads.get key = some load) (latest : client.isLatest load = true)
    (wants : load.wantsForeground = true) :
    ∃ navigation, client.navigation = some navigation ∧ navigation.answer = .waiting key := by
  obtain ⟨navigation, opened, waits | ⟨succeeded, elsewhere⟩⟩ :=
    right.awaited key load (right.pointed key load present latest) present wants
  · exact ⟨navigation, opened, waits⟩
  · have follows := right.follows navigation opened (by rw [succeeded]; nofun)
    rw [isLatest_iff.mp latest] at follows
    have same : load.id = navigation.dashboard := by simpa using follows
    exact absurd same.symm elsewhere

theorem LoadsRight.of_kept {client next : Client} (right : LoadsRight client)
    (kept : LoadingKept client next) : LoadsRight next := by
  obtain ⟨loads, inFlight, latest, navigation⟩ := kept
  constructor
  · rw [navigation, latest]
    exact right.follows
  · intro key load
    rw [loads, isLatest_of_latest latest, inFlight]
    exact right.pointed key load
  · rw [loads, nextSerial_of_latest latest]
    exact right.older
  · rw [loads]
    exact right.single
  · rw [loads, inFlight, navigation]
    exact right.awaited
  · intro opened key
    rw [loads, navigation]
    simp only [isLatest_of_latest latest]
    exact right.waiting opened key

/-- A request goes out with a load that is now the latest. -/
theorem LoadsRight.placed {client next : Client} (right : LoadsRight client) {key : Nat}
    {load : Load} (loads : next.loads = client.loads.insert key load)
    (inFlight : next.inFlightDashboardLoad = some key)
    (latest : next.latestDashboardRequest = some (load.id, client.nextSerial))
    (serial : load.latestRequestSerial = client.nextSerial) (known : key ≤ client.nextSerial)
    (single : load.options.background = false →
      ∀ options, load.queuedOptions = some options → options.background = true)
    (named : ∀ navigation, next.navigation = some navigation → navigation.answer ≠ .failed →
      load.id = navigation.dashboard)
    (waiting : ∀ navigation other, next.navigation = some navigation →
      navigation.answer = .waiting other → other = key ∧ load.wantsForeground = true)
    (awaited : load.wantsForeground = true →
      ∃ navigation, next.navigation = some navigation ∧ navigation.answer = .waiting key) :
    LoadsRight next := by
  have mine : next.isLatest load = true := by
    rw [isLatest_iff, latest, serial]
  have nextSerial : next.nextSerial = client.nextSerial + 1 := by
    unfold Client.nextSerial
    rw [latest]
    rfl
  have present : next.loads.get key = some load := by
    rw [loads, InsertionMap.insert_get_self]
  constructor
  · intro navigation opened standing
    rw [latest, Option.map_some, named navigation opened standing]
  · intro other found given is
    rw [loads] at given
    rcases InsertionMap.get_of_insert given with ⟨rfl, -⟩ | ⟨-, old⟩
    · exact inFlight
    · have older := (right.older other found old).2
      rw [isLatest_iff, latest] at is
      have same : client.nextSerial = found.latestRequestSerial := by
        simp only [Option.some.injEq, Prod.mk.injEq] at is
        exact is.2
      omega
  · intro other found given
    rw [loads] at given
    rw [nextSerial]
    rcases InsertionMap.get_of_insert given with ⟨rfl, rfl⟩ | ⟨-, old⟩
    · omega
    · have older := right.older other found old
      omega
  · intro other found given
    rw [loads] at given
    rcases InsertionMap.get_of_insert given with ⟨-, rfl⟩ | ⟨-, old⟩
    · exact single
    · exact right.single other found old
  · intro other found pointed given wants
    rw [inFlight] at pointed
    cases pointed
    rw [present] at given
    cases given
    obtain ⟨navigation, opened, waits⟩ := awaited wants
    exact ⟨navigation, opened, .inl waits⟩
  · intro navigation other opened waits
    obtain ⟨rfl, wants⟩ := waiting navigation other opened waits
    refine ⟨load, present, mine, named navigation opened ?_, wants⟩
    rw [waits]
    nofun

/-- The load in flight once a request has joined it. -/
def Load.joinedBy (serial : Nat) (requested : LoadOptions) (load : Load) : Load :=
  let queued := requested.background || !Client.satisfiesRequest load.options requested
  { load with
    latestRequestSerial := serial
    queuedOptions :=
      if queued then some (Client.mergeOptions load.queuedOptions requested)
      else load.queuedOptions }

theorem wantsForeground_joinedBy (serial : Nat) (requested : LoadOptions) (load : Load) :
    (load.joinedBy serial requested).wantsForeground =
      (load.wantsForeground || !requested.background) := by
  obtain ⟨id, ⟨background, surface⟩, queued, latest, response⟩ := load
  obtain ⟨wanted, surfaceWanted⟩ := requested
  unfold Load.joinedBy Load.wantsForeground Client.satisfiesRequest Client.mergeOptions
  cases queued <;> cases background <;> cases wanted <;> cases surface <;>
    cases surfaceWanted <;> simp

/-- A request in the background, or one that asks for nothing else, keeps a load in the
foreground from having another one queued. -/
theorem single_joinedBy {serial : Nat} {requested : LoadOptions} {load : Load}
    (plain : requested.background = true ∨ requested = .foreground)
    (single : load.options.background = false →
      ∀ options, load.queuedOptions = some options → options.background = true)
    (foreground : load.options.background = false) (options : LoadOptions)
    (queued : (load.joinedBy serial requested).queuedOptions = some options) :
    options.background = true := by
  unfold Load.joinedBy Client.satisfiesRequest at queued
  rcases plain with background | rfl
  · simp only [background, Bool.true_or, if_true, Option.some.injEq] at queued
    subst queued
    unfold Client.mergeOptions
    split
    · exact background
    next current given => simp [single foreground current given, background]
  · simp only [LoadOptions.foreground, foreground] at queued
    exact single foreground options queued

theorem joined_of_inFlight {client : Client} {key : Nat} {load : Load}
    (pointed : client.inFlightDashboardLoad = some key)
    (present : client.loads.get key = some load) : client.joined load.id = some (key, load) := by
  simp [Client.joined, pointed, present]

/-- A dashboard is opened that is already there. -/
theorem LoadsRight.opened {client : Client} (right : LoadsRight client) {id : Nat}
    (apart : client.joined id = none) :
    LoadsRight { client.beginDashboardRequest id with
      loading := false, navigation := some ⟨id, .succeeded⟩ } := by
  constructor
  · intro navigation opened _
    cases opened
    rfl
  · intro key load present latest
    have older := (right.older key load present).2
    rw [isLatest_iff] at latest
    have same : client.nextSerial = load.latestRequestSerial := by
      simp only [Client.beginDashboardRequest, Option.some.injEq, Prod.mk.injEq] at latest
      exact latest.2
    omega
  · intro key load present
    have older := right.older key load present
    change key < client.nextSerial + 1 ∧ load.latestRequestSerial < client.nextSerial + 1
    omega
  · exact right.single
  · intro key load pointed present wants
    refine ⟨_, rfl, .inr ⟨rfl, fun same => ?_⟩⟩
    have joins := joined_of_inFlight pointed present
    rw [← same] at joins
    cases apart.symm.trans joins
  · intro navigation key opened waits
    cases opened
    cases waits

theorem LoadsRight.navigate {client : Client} (right : LoadsRight client) (id : Nat) :
    LoadsRight (client.navigate id) := by
  unfold Client.navigate
  split
  next current =>
    apply right.opened
    unfold Client.isCurrent at current
    simp only [Bool.and_eq_true, Option.isNone_iff_eq_none] at current
    exact current.1.1.1.1
  next =>
    dsimp only
    unfold Client.request
    split
    next key load joins =>
      obtain ⟨pointed, present, same⟩ := joined_eq_some joins
      have known := (right.older key load present).1
      have wants : (load.joinedBy client.nextSerial .foreground).wantsForeground = true := by
        rw [wantsForeground_joinedBy]
        exact Bool.or_true _
      have single := @single_joinedBy client.nextSerial _ load (.inr rfl)
        (right.single key load present)
      rw [joins]
      refine right.placed rfl pointed rfl rfl (Nat.le_of_lt known) single ?_ ?_ fun _ =>
        ⟨_, rfl, rfl⟩
      · intro navigation opened _
        cases opened
        exact same
      · intro navigation other opened waits
        cases opened
        cases waits
        exact ⟨rfl, wants⟩
    next joins =>
      rw [joins]
      refine right.placed rfl rfl rfl rfl (Nat.le_refl _) (fun _ => nofun) ?_ ?_ fun _ =>
        ⟨_, rfl, rfl⟩
      · intro navigation opened _
        cases opened
        rfl
      · intro navigation other opened waits
        cases opened
        cases waits
        exact ⟨rfl, rfl⟩

/-- What the last foreground load waits for is what a load of its dashboard joins. -/
theorem LoadsRight.joined_of_waiting {client : Client} (right : LoadsRight client)
    {navigation : Navigation} {key : Nat} (opened : client.navigation = some navigation)
    (waits : navigation.answer = .waiting key) :
    ∃ load, client.joined navigation.dashboard = some (key, load) ∧
      client.isLatest load = true ∧ load.wantsForeground = true := by
  obtain ⟨load, present, latest, same, wants⟩ := right.waiting navigation key opened waits
  refine ⟨load, ?_, latest, wants⟩
  rw [← same]
  exact joined_of_inFlight (right.pointed key load present latest) present

theorem LoadsRight.refresh {client : Client} (right : LoadsRight client) {id : Nat}
    (surfaceAccessLoss : Bool)
    (names : ∀ navigation, client.navigation = some navigation → navigation.answer ≠ .failed →
      navigation.dashboard = id) : LoadsRight (client.refresh id surfaceAccessLoss) := by
  unfold Client.refresh Client.request
  split
  next key load joins =>
    obtain ⟨pointed, present, same⟩ := joined_eq_some joins
    have known := (right.older key load present).1
    have single := @single_joinedBy client.nextSerial ⟨true, surfaceAccessLoss⟩ load (.inl rfl)
      (right.single key load present)
    refine right.placed rfl pointed rfl rfl (Nat.le_of_lt known) single ?_ ?_ ?_
    · intro navigation opened standing
      exact same.trans (names navigation opened standing).symm
    · intro navigation other opened waits
      obtain ⟨found, joinsToo, -, wants⟩ := right.joined_of_waiting opened waits
      rw [names navigation opened (by rw [waits]; nofun), joins] at joinsToo
      cases joinsToo
      refine ⟨rfl, ?_⟩
      rw [← Load.joinedBy, wantsForeground_joinedBy, wants]
      rfl
    · intro wants
      rw [← Load.joinedBy, wantsForeground_joinedBy] at wants
      have wants : load.wantsForeground = true := by simpa using wants
      obtain ⟨navigation, opened, waits | ⟨succeeded, elsewhere⟩⟩ :=
        right.awaited key load pointed present wants
      · exact ⟨navigation, opened, waits⟩
      · have named := names navigation opened (by rw [succeeded]; nofun)
        exact absurd (named.trans same.symm) elsewhere
  next joins =>
    refine right.placed rfl rfl rfl rfl (Nat.le_refl _) nofun ?_ ?_ nofun
    · intro navigation opened standing
      exact (names navigation opened standing).symm
    · intro navigation other opened waits
      obtain ⟨found, joinsToo, -, -⟩ := right.joined_of_waiting opened waits
      rw [names navigation opened (by rw [waits]; nofun), joins] at joinsToo
      cases joinsToo

theorem LoadsRight.serveLoad {client next : Client} (right : LoadsRight client) {key : Nat}
    {load : Load} {response : Option Dashboard} (present : client.loads.get key = some load)
    (same : next = { client with loads := client.loads.insert key { load with response } }) :
    LoadsRight next := by
  subst same
  have found : ∀ {other : Nat} {given : Load},
      (client.loads.insert key { load with response }).get other = some given →
        ∃ before, client.loads.get other = some before ∧
          given = { before with response := given.response } := by
    intro other given placed
    rcases InsertionMap.get_of_insert placed with ⟨rfl, rfl⟩ | ⟨-, old⟩
    · exact ⟨load, present, rfl⟩
    · exact ⟨given, old, rfl⟩
  constructor
  · exact right.follows
  · intro other given placed latest
    obtain ⟨before, old, shape⟩ := found placed
    rw [shape] at latest
    exact right.pointed other before old latest
  · intro other given placed
    obtain ⟨before, old, shape⟩ := found placed
    rw [shape]
    exact right.older other before old
  · intro other given placed
    obtain ⟨before, old, shape⟩ := found placed
    rw [shape]
    exact right.single other before old
  · intro other given pointed placed
    obtain ⟨before, old, shape⟩ := found placed
    rw [shape]
    exact right.awaited other before pointed old
  · intro navigation other opened waits
    obtain ⟨before, old, latest, named, wants⟩ := right.waiting navigation other opened waits
    by_cases mine : other = key
    · subst mine
      cases present.symm.trans old
      exact ⟨_, InsertionMap.insert_get_self _ _ _, latest, named, wants⟩
    · exact ⟨before, (InsertionMap.insert_get_of_ne _ _ mine).trans old, latest, named, wants⟩

/-- What an answer leaves of the last foreground load. -/
theorem answer_navigation {client : Client} {key : Nat} {load : Load} {answer : Answer}
    {navigation : Navigation}
    (opened : (client.answer key load answer).navigation = some navigation) :
    client.navigation = some navigation ∧
        (navigation.answer = .waiting key → load.options.background = true) ∨
      ∃ before, client.navigation = some before ∧ before.answer = .waiting key ∧
        load.options.background = false ∧ navigation = { before with answer } := by
  obtain ⟨before, was, rfl⟩ := Option.map_eq_some_iff.mp opened
  split
  next mine => exact .inr ⟨before, was, mine.1, mine.2, rfl⟩
  next other =>
    refine .inl ⟨was, fun waits => ?_⟩
    by_contra foreground
    exact other ⟨waits, by simpa using foreground⟩

theorem LoadsRight.follows_answer {client : Client} (right : LoadsRight client) {key : Nat}
    {load : Load} {answer : Answer} {navigation : Navigation}
    (opened : (client.answer key load answer).navigation = some navigation)
    (standing : navigation.answer ≠ .failed) :
    client.latestDashboardRequest.map (·.1) = some navigation.dashboard := by
  rcases answer_navigation opened with ⟨was, -⟩ | ⟨before, was, waits, -, rfl⟩
  · exact right.follows navigation was standing
  · exact right.follows before was (by rw [waits]; nofun)

/-- Another load than the one answered is awaited as before. -/
theorem navigation_answer_of_ne {client : Client} {key other : Nat} {load : Load}
    {answer : Answer} {id : Nat} (differs : other ≠ key)
    (awaited : ∃ navigation, client.navigation = some navigation ∧
      (navigation.answer = .waiting other ∨
        navigation.answer = .succeeded ∧ navigation.dashboard ≠ id)) :
    ∃ navigation, (client.answer key load answer).navigation = some navigation ∧
      (navigation.answer = .waiting other ∨
        navigation.answer = .succeeded ∧ navigation.dashboard ≠ id) := by
  obtain ⟨navigation, opened, stands⟩ := awaited
  refine ⟨navigation, ?_, stands⟩
  unfold Client.answer
  rw [opened, Option.map_some]
  refine congrArg some (if_neg fun mine => ?_)
  rcases stands with waits | ⟨succeeded, -⟩
  · rw [waits] at mine
    exact differs (by simpa using mine.1)
  · rw [succeeded] at mine
    exact nomatch mine.1

/-- A load whose request has its answer goes on with what was queued. -/
theorem LoadsRight.goesOn {client next : Client} (right : LoadsRight client) {key : Nat}
    {load : Load} (present : client.loads.get key = some load) {answer : Answer}
    (settles : ∀ other, answer ≠ .waiting other) {options : LoadOptions}
    (queued : load.queuedOptions = some options)
    (loads : next.loads = client.loads.insert key ⟨load.id, options, none,
      load.latestRequestSerial, none⟩)
    (inFlight : next.inFlightDashboardLoad = client.inFlightDashboardLoad)
    (latest : next.latestDashboardRequest = client.latestDashboardRequest)
    (navigation : next.navigation = (client.answer key load answer).navigation) :
    LoadsRight next := by
  have foreground : options.background = false → load.options.background = true := by
    intro goes
    by_contra stays
    have alone := right.single key load present (by simpa using stays) options queued
    exact absurd (goes.symm.trans alone) nofun
  have wantsOf : ∀ {id serial : Nat},
      (⟨id, options, none, serial, none⟩ : Load).wantsForeground = true →
        load.wantsForeground = true ∧ options.background = false := by
    intro id serial wants
    have goes : options.background = false := by simpa [Load.wantsForeground] using wants
    simp [Load.wantsForeground, queued, goes]
  constructor
  · intro opened given standing
    rw [navigation] at given
    rw [latest]
    exact right.follows_answer given standing
  · intro other given placed is
    rw [loads] at placed
    rw [isLatest_of_latest latest] at is
    rw [inFlight]
    rcases InsertionMap.get_of_insert placed with ⟨rfl, rfl⟩ | ⟨-, old⟩
    · exact right.pointed other load present is
    · exact right.pointed other given old is
  · intro other given placed
    rw [loads] at placed
    rw [nextSerial_of_latest latest]
    rcases InsertionMap.get_of_insert placed with ⟨rfl, rfl⟩ | ⟨-, old⟩
    · exact right.older other load present
    · exact right.older other given old
  · intro other given placed
    rw [loads] at placed
    rcases InsertionMap.get_of_insert placed with ⟨-, rfl⟩ | ⟨-, old⟩
    · exact fun _ => nofun
    · exact right.single other given old
  · intro other given pointed placed wants
    rw [loads] at placed
    rw [inFlight] at pointed
    rw [navigation]
    rcases InsertionMap.get_of_insert placed with ⟨rfl, rfl⟩ | ⟨differs, old⟩
    · obtain ⟨wanted, goes⟩ := wantsOf wants
      obtain ⟨opened, was, stands⟩ := right.awaited other load pointed present wanted
      refine ⟨opened, ?_, stands⟩
      unfold Client.answer
      rw [was, Option.map_some]
      refine congrArg some (if_neg fun mine => ?_)
      exact absurd (mine.2.symm.trans (foreground goes)) nofun
    · exact navigation_answer_of_ne differs (right.awaited other given pointed old wants)
  · intro opened other given waits
    rw [navigation] at given
    rcases answer_navigation given with ⟨was, background⟩ | ⟨before, -, -, -, rfl⟩
    · obtain ⟨found, old, is, named, wants⟩ := right.waiting opened other was waits
      rw [loads]
      by_cases mine : other = key
      · subst mine
        cases present.symm.trans old
        refine ⟨_, InsertionMap.insert_get_self _ _ _, ?_, named, ?_⟩
        · rw [isLatest_of_latest latest]
          exact is
        · simpa [Load.wantsForeground, queued, background waits] using wants
      · refine ⟨found, (InsertionMap.insert_get_of_ne _ _ mine).trans old, ?_, named, wants⟩
        rw [isLatest_of_latest latest]
        exact is
    · exact absurd waits (settles other)

/-- A load whose request has its answer, and which has nothing queued, ends. -/
theorem LoadsRight.ends {client next : Client} (right : LoadsRight client) {key : Nat}
    {load : Load} (present : client.loads.get key = some load) {answer : Answer}
    (settles : ∀ other, answer ≠ .waiting other) (ended : load.queuedOptions = none)
    (loads : next.loads = client.loads.delete key)
    (inFlight : next.inFlightDashboardLoad =
      if client.inFlightDashboardLoad = some key then none else client.inFlightDashboardLoad)
    (latest : next.latestDashboardRequest = client.latestDashboardRequest)
    (navigation : next.navigation = (client.answer key load answer).navigation) :
    LoadsRight next := by
  have remains : ∀ {other : Nat} {given : Load}, next.loads.get other = some given →
      other ≠ key ∧ client.loads.get other = some given := by
    intro other given found
    rw [loads] at found
    exact ⟨InsertionMap.ne_of_delete_get found, InsertionMap.get_of_delete found⟩
  constructor
  · intro opened given standing
    rw [navigation] at given
    rw [latest]
    exact right.follows_answer given standing
  · intro other given found is
    rw [isLatest_of_latest latest] at is
    obtain ⟨differs, old⟩ := remains found
    have pointed := right.pointed other given old is
    rw [inFlight, if_neg, pointed]
    rw [pointed]
    simpa using differs
  · intro other given found
    rw [nextSerial_of_latest latest]
    exact right.older other given (remains found).2
  · intro other given found
    exact right.single other given (remains found).2
  · intro other given pointed found wants
    obtain ⟨differs, old⟩ := remains found
    rw [inFlight] at pointed
    rw [navigation]
    split at pointed
    · cases pointed
    · exact navigation_answer_of_ne differs (right.awaited other given pointed old wants)
  · intro opened other given waits
    rw [navigation] at given
    rcases answer_navigation given with ⟨was, background⟩ | ⟨before, -, -, -, rfl⟩
    · obtain ⟨found, old, is, named, wants⟩ := right.waiting opened other was waits
      have differs : other ≠ key := by
        rintro rfl
        cases present.symm.trans old
        simp [Load.wantsForeground, ended, background waits] at wants
      refine ⟨found, ?_, ?_, named, wants⟩
      · rw [loads, InsertionMap.delete_get_of_ne _ differs, old]
      · rw [isLatest_of_latest latest]
        exact is
    · exact absurd waits (settles other)

/-- A load whose request has its answer goes on, or ends. -/
theorem LoadsRight.answered {client : Client} (right : LoadsRight client) {key : Nat}
    {load : Load} (present : client.loads.get key = some load) {answer : Answer}
    (settles : ∀ other, answer ≠ .waiting other) :
    LoadsRight ((client.answer key load answer).proceed key load) := by
  unfold Client.proceed
  split
  next options queued =>
    unfold Client.startLoading
    split <;> exact right.goesOn present settles queued rfl rfl rfl rfl
  next ended => exact right.ends present settles ended rfl rfl rfl rfl

end FrontDashboard.Editor
