import FrontDashboard.Boards.Sound

/-! # The geometry of stored layouts

The entries of every stored layout lie within the grid, share no cell and have ids of
their own, whatever the requests and however their statements interleave, as long as the
ids drawn for widgets are new. A list that is deleted may write an outdated layout back;
it was well formed when it was read.
-/

namespace FrontDashboard.Boards

open ReadCommitted

/-- Every layout is well formed. -/
def AllFormed (tables : Tables) : Prop :=
  ∀ dashboard ∈ tables.dashboards, WellFormed dashboard.layout

/-- A dashboard that is found has a well-formed layout. -/
theorem AllFormed.dashboard? {tables : Tables} (formed : AllFormed tables) {id : DashboardId}
    {dashboard : Dashboard} (found : tables.dashboard? id = some dashboard) :
    WellFormed dashboard.layout :=
  formed dashboard (List.mem_of_find?_eq_some found)

/-- The write stores no other layout than a well-formed one, of a dashboard that is locked. -/
def Write.Forms (held : Set Lock) : Write → Prop
  | .saveLayout id layout _ => .dashboard id ∈ held ∧ WellFormed layout
  | .editLayout id layout _ _ => .dashboard id ∈ held ∧ ∀ next ∈ layout, WellFormed next
  | _ => True

/-- A locked dashboard keeps its row. -/
def KeepsLocked (held : Set Lock) (before after : Tables) : Prop :=
  ∀ id, .dashboard id ∈ held → ∀ row, before.dashboard? id = some row →
    after.dashboard? id = some row

/-- What two steps keep locked, both together do. -/
theorem KeepsLocked.trans {held : Set Lock} {first second third : Tables}
    (earlier : KeepsLocked held first second) (later : KeepsLocked held second third) :
    KeepsLocked held first third :=
  fun id locked row found => later id locked row (earlier id locked row found)

/-- Fewer locks leave less to rely on. -/
theorem KeepsLocked.mono {fewer held : Set Lock} (subset : fewer ⊆ held) {before after : Tables}
    (kept : KeepsLocked held before after) : KeepsLocked fewer before after :=
  fun id locked => kept id (subset locked)

/-- Setting the layout of a dashboard leaves those of others' locks alone. -/
theorem forms_setLayout {tables : Tables} (formed : AllFormed tables) {held : Set Lock}
    {id : DashboardId} (locked : .dashboard id ∈ held) {layout : Option Layout}
    (wellFormed : ∀ next ∈ layout, WellFormed next) (version : Int) :
    AllFormed (tables.setLayout id layout version) ∧
      ∀ others, Disjoint held others →
        KeepsLocked others tables (tables.setLayout id layout version) := by
  constructor
  · intro dashboard member
    obtain ⟨old, present, rfl⟩ := List.mem_map.mp member
    split_ifs
    · cases layout with
      | none => exact formed old present
      | some next => exact wellFormed next rfl
    · exact formed old present
  · intro others apart other theirs row found
    have different : other ≠ id := by
      rintro rfl
      exact Set.disjoint_left.mp apart locked theirs
    rw [tables.dashboard?_setLayout different layout version, found]

/-- A write that forms layouts keeps all of them well formed. -/
theorem forms_perform {tables : Tables} (formed : AllFormed tables) {held : Set Lock}
    {write : Write} (forms : write.Forms held) :
    AllFormed (tables.perform write) ∧
      ∀ others, Disjoint held others → KeepsLocked others tables (tables.perform write) := by
  cases write with
  | insertDashboard id userId =>
      constructor
      · intro dashboard member
        rcases List.mem_append.mp member with old | new
        · exact formed dashboard old
        · rw [List.mem_singleton.mp new]
          exact .nil
      · intro _ _ other _ row found
        rw [Tables.dashboard?] at found
        simp [Tables.dashboard?, Tables.perform, List.find?_append, found]
  | saveLayout id layout version =>
      apply forms_setLayout formed forms.1
      rintro next ⟨⟩
      exact forms.2
  | editLayout id layout version base => exact forms_setLayout formed forms.1 forms.2 version
  | insertWidget | deleteWidget | insertList | trashList =>
      exact ⟨formed, fun _ _ _ _ _ found => found⟩

/-- Well-formed writes keep every layout so, and the locked ones unchanged. -/
theorem forms_performAll {tables : Tables} (formed : AllFormed tables) {held : Set Lock}
    {pending : List Write} (forms : ∀ write ∈ pending, write.Forms held) :
    AllFormed (performAll Tables.perform tables pending) ∧
      ∀ others, Disjoint held others →
        KeepsLocked others tables (performAll Tables.perform tables pending) := by
  induction pending generalizing tables with
  | nil => exact ⟨formed, fun _ _ _ _ _ found => found⟩
  | cons write rest ih =>
      obtain ⟨first, others⟩ := List.forall_mem_cons.mp forms
      obtain ⟨stillFormed, leaves⟩ := forms_perform formed first
      obtain ⟨restFormed, leavesRest⟩ := ih stillFormed others
      exact ⟨restFormed, fun theirs apart => (leaves theirs apart).trans (leavesRest theirs apart)⟩

/-! ## The handlers -/

/-- Requests keep the layouts well formed, and leave a locked dashboard alone. -/
def forming : Interference Tables Lock where
  invariant := AllFormed
  rely := KeepsLocked
  refl := fun _ _ _ _ _ found => found
  trans := fun _ _ _ _ => KeepsLocked.trans

/-- The id drawn for a widget names no entry that is stored. -/
def Write.DrawsNew (tables : Tables) : Write → Prop
  | .insertWidget widget => ∀ dashboard ∈ tables.dashboards,
      widget.id.text ∉ dashboard.layout.map LayoutItem.i
  | _ => True

instance (tables : Tables) (write : Write) : Decidable (write.DrawsNew tables) := by
  unfold Write.DrawsNew
  split <;> infer_instance

/-- Ids are drawn anew, as `uuid4` draws them. -/
def DrawsNew (tables : Tables) (pending : List Write) : Prop :=
  ∀ write ∈ pending, write.DrawsNew tables

instance (tables : Tables) (pending : List Write) : Decidable (DrawsNew tables pending) := by
  unfold DrawsNew
  infer_instance

/-- The program keeps the layouts well formed, started in a given transaction. -/
abbrev Formed {α : Type} (post : α → List Write → Set Lock → Tables → Prop) (program : Handler α)
    (pending : List Write) (held : Set Lock) (tables : Tables) : Prop :=
  Ensures Tables.perform forming DrawsNew post program pending held tables

/-- A commit of writes that form layouts. -/
theorem formed_commit {pending : List Write} {held : Set Lock}
    (forms : ∀ write ∈ pending, write.Forms held) (tables : Tables) :
    Formed (fun _ _ _ _ => True) Program.commitTransaction pending held tables := by
  apply Ensures.commitTransaction
  intro later _ formed _
  obtain ⟨stillFormed, leaves⟩ := forms_performAll formed forms
  exact ⟨stillFormed, leaves, trivial⟩

/-- A dashboard that is loaded is well formed. -/
theorem formed_loadDashboard (id : DashboardId) (held : Set Lock) (tables : Tables) :
    Formed (fun dashboard pending holds later => pending = [] ∧ holds = held ∧
        later.dashboard? id = some dashboard ∧ dashboard.id = id ∧ WellFormed dashboard.layout)
      (loadDashboard id) [] held tables := by
  apply Ensures.query
  intro later relied formed
  split
  next => trivial
  next dashboard found =>
    exact ⟨rfl, rfl, found, later.id_of_dashboard? found, AllFormed.dashboard? formed found⟩

/-- A dashboard that is locked is well formed. -/
theorem formed_lockDashboard (id : DashboardId) (tables : Tables) :
    Formed (fun dashboard pending held later => pending = [] ∧ held = {.dashboard id} ∧
        later.dashboard? id = some dashboard ∧ dashboard.id = id ∧ WellFormed dashboard.layout)
      (lockDashboard id) [] ∅ tables := by
  apply Ensures.acquire
  intro locked _ _
  apply Ensures.mono _ (formed_loadDashboard id _ locked)
  rintro dashboard _ _ later ⟨rfl, rfl, found⟩
  exact ⟨rfl, insert_empty_eq _, found⟩

/-- Each request keeps layouts well formed. -/
theorem formed_createDashboard (settings : Settings) (caller : UserId) (id : DashboardId)
    (tables : Tables) :
    Formed (fun _ _ _ _ => True) (createDashboard settings caller id) [] ∅ tables := by
  apply Ensures.bind _ (ensures_assertUnderQuota _ _ _ _ _ _)
  rintro _ _ _ asked ⟨rfl, rfl, -⟩
  apply Ensures.acquire
  intro locked _ _
  apply Ensures.updateReturning
  intro seen _ _
  split
  · trivial
  · exact formed_commit (by simp [Write.Forms]) seen

theorem formed_createList (settings : Settings) (caller : UserId) (dashboardId : DashboardId)
    (id : ListId) (listType : ListType) (tables : Tables) :
    Formed (fun _ _ _ _ => True) (createList settings caller dashboardId id listType) [] ∅
      tables := by
  apply Ensures.bind _ (formed_lockDashboard dashboardId tables)
  rintro dashboard _ _ locked ⟨rfl, rfl, -⟩
  apply Ensures.bind _ (ensures_assertUnderQuota _ _ _ _ _ _)
  rintro _ _ _ first ⟨rfl, rfl, -⟩
  apply Ensures.bind _ (ensures_assertUnderQuota _ _ _ _ _ _)
  rintro _ _ _ second ⟨rfl, rfl, -⟩
  apply Ensures.acquire
  intro waited _ _
  apply Ensures.updateReturning
  intro seen _ _
  split
  · trivial
  · exact formed_commit (by simp [Write.Forms]) seen

/-- A layout that validates is well formed. -/
theorem LayoutUpdate.wellFormed (body : LayoutUpdate) : WellFormed body.layout :=
  (rejectImpossibleGrids_eq_ok .nil body.possible).2

theorem formed_updateLayout (id : DashboardId) (body : LayoutUpdate) (tables : Tables) :
    Formed (fun _ _ _ _ => True) (updateLayout id body) [] ∅ tables := by
  apply Ensures.bind _ (formed_lockDashboard id tables)
  rintro dashboard _ _ locked ⟨rfl, rfl, -, rfl, -⟩
  split
  · trivial
  apply Ensures.query
  intro asked _ _
  split
  next => trivial
  next =>
    apply Ensures.update
    intro written _ _
    apply formed_commit
    intro write member
    rw [List.mem_singleton.mp member]
    exact ⟨rfl, body.wellFormed⟩

/-- What is written for a widget's list stores no layout. -/
theorem formed_bindResource (caller : UserId) (dashboard : Dashboard) (newList : ListId)
    (body : WidgetCreate) (held : Set Lock) (tables : Tables) :
    Formed (fun _ pending holds later => held ⊆ holds ∧ KeepsLocked held tables later ∧
        ∀ write ∈ pending, ∃ list, write = .insertList list)
      (bindResource caller dashboard newList body) [] held tables := by
  unfold bindResource
  split
  next =>
    split
    next => trivial
    next listType _ =>
      apply Ensures.acquire
      intro locked toLocked _
      apply Ensures.updateReturning
      intro later relied _
      split
      next => trivial
      next =>
        have wider : held ⊆ insert (.list newList) held := Set.subset_insert _ _
        refine ⟨wider, KeepsLocked.trans toLocked (KeepsLocked.mono wider relied), ?_⟩
        intro write member
        exact ⟨_, List.mem_singleton.mp member⟩
  next =>
    apply Ensures.query
    intro later relied _
    split
    next => trivial
    next => exact ⟨subset_rfl, relied, List.forall_mem_nil _⟩
  next => exact ⟨subset_rfl, fun _ _ _ found => found, List.forall_mem_nil _⟩

/-- Every widget has a width and a height. -/
theorem minimumWidgetSize_pos (widgetType : Option WidgetType) :
    1 ≤ (minimumWidgetSize widgetType).1 ∧ 1 ≤ (minimumWidgetSize widgetType).2 := by
  unfold minimumWidgetSize
  split <;> decide

/-- A widget is seated where the layout that the lock holds in place leaves room, under a
name that is new there. -/
theorem formed_addWidget (settings : Settings) (caller : UserId) (id : DashboardId)
    (body : WidgetCreate) (newWidget : Uuid) (newList : ListId) (tables : Tables) :
    Formed (fun _ _ _ _ => True) (addWidget settings caller id body newWidget newList) [] ∅
      tables := by
  apply Ensures.bind _ (formed_lockDashboard id tables)
  rintro dashboard _ _ locked ⟨rfl, rfl, found, rfl, wellFormed⟩
  apply Ensures.bind _ (ensures_assertUnderQuota _ _ _ _ _ _)
  rintro _ _ _ counted ⟨rfl, rfl, toCounted⟩
  apply Ensures.bind _ (formed_bindResource caller dashboard newList body _ _)
  rintro resource pending held bound ⟨more, toBound, lists⟩
  apply Ensures.query
  intro asked toAsked _
  split
  · trivial
  apply Ensures.acquire
  intro waited toWaited _
  apply Ensures.updateReturning
  intro drawn toDrawn _
  split
  · trivial
  dsimp only
  split
  next => trivial
  next box fitted =>
    apply Ensures.update
    intro written toWritten _
    apply Ensures.commitTransaction
    intro later toLater formed admitted
    have wider : held ⊆ insert (.widget newWidget) held := Set.subset_insert _ _
    have here : Lock.dashboard dashboard.id ∈ held := more rfl
    have stored : later.dashboard? dashboard.id = some dashboard := by
      have there := toBound _ rfl _ (toCounted _ rfl _ found)
      have before := toWaited _ here _ (toAsked _ here _ there)
      exact toLater _ (wider here) _ (toWritten _ (wider here) _ (toDrawn _ (wider here) _ before))
    have new := admitted (.insertWidget ⟨newWidget, dashboard.id, body.widgetType, resource⟩)
      (by simp) dashboard (List.mem_of_find?_eq_some stored)
    obtain ⟨wide, high⟩ := minimumWidgetSize_pos (some body.widgetType)
    obtain ⟨fits, apart⟩ := fitWidget_sound wellFormed wide high fitted
    have seated : WellFormed (dashboard.layout ++ [⟨box, newWidget.text⟩]) :=
      wellFormed.concat fits apart new
    obtain ⟨stillFormed, leaves⟩ := @forms_performAll later formed (insert (.widget newWidget) held)
      (pending ++ [.insertWidget ⟨newWidget, dashboard.id, body.widgetType, resource⟩] ++
        [.editLayout dashboard.id (some (dashboard.layout ++ [⟨box, newWidget.text⟩]))
          (dashboard.version + 1) dashboard.layout]) (by
        intro write member
        rcases List.mem_append.mp member with before | last
        · rcases List.mem_append.mp before with list | widget
          · obtain ⟨row, rfl⟩ := lists write list
            trivial
          · rw [List.mem_singleton.mp widget]
            trivial
        · rw [List.mem_singleton.mp last]
          refine ⟨wider here, ?_⟩
          rintro next ⟨⟩
          exact seated)
    exact ⟨stillFormed, leaves, trivial⟩

/-- Leaving out entries keeps a layout well formed. -/
theorem wellFormed_changedLayout {layout : Layout} (formed : WellFormed layout)
    (removed : List String) : ∀ next ∈ changedLayout layout removed, WellFormed next := by
  intro next changed
  rw [Option.mem_def, changedLayout] at changed
  split_ifs at changed
  rw [← Option.some.inj changed]
  exact formed.filter _

theorem formed_deleteWidget (id : DashboardId) (widget : Uuid) (tables : Tables) :
    Formed (fun _ _ _ _ => True) (deleteWidget id widget) [] ∅ tables := by
  apply Ensures.bind _ (formed_lockDashboard id tables)
  rintro dashboard _ _ locked ⟨rfl, rfl, -, rfl, wellFormed⟩
  apply Ensures.query
  intro asked _ _
  split
  next => trivial
  next =>
    apply Ensures.update
    intro written _ _
    apply formed_commit
    intro write member
    simp only [List.nil_append, List.mem_cons, List.not_mem_nil, or_false] at member
    rcases member with rfl | rfl
    · trivial
    · exact ⟨rfl, wellFormed_changedLayout wellFormed _⟩

/-- Each dashboard is edited as the session holds it, from a layout that was stored. -/
theorem formed_removeResourceWidgets (list : ListId) {loaded : Dashboard}
    (wellFormed : WellFormed loaded.layout) (held : Set Lock) (tables : Tables) :
    Formed (fun _ pending holds _ => ∀ write ∈ pending, write.Forms holds)
      (removeResourceWidgets list loaded) [] held tables := by
  apply Ensures.query
  intro asked _ _
  split
  · exact List.forall_mem_nil _
  apply Ensures.bind _
    (Ensures.acquireAll (fun _ _ _ _ => KeepsLocked.mono (Set.subset_insert _ _)) _ _ _ _)
  rintro _ _ holds locked ⟨rfl, -, all, -⟩
  apply Ensures.query
  intro read _ formed written _ _ write member
  rw [List.nil_append] at member
  rcases List.mem_append.mp member with edit | deletion
  · obtain ⟨dashboard, selected, rfl⟩ := List.mem_map.mp edit
    obtain ⟨row, found, rfl⟩ := List.mem_map.mp selected
    obtain ⟨id, named, found⟩ := List.mem_filterMap.mp found
    have sameId := read.id_of_dashboard? found
    have here : Lock.dashboard row.id ∈ holds := by
      apply all
      rw [sameId]
      exact List.mem_map_of_mem ((List.mem_insertionSort _).mpr named)
    split_ifs with own
    · rw [own] at here
      exact ⟨here, wellFormed_changedLayout wellFormed _⟩
    · exact ⟨here, wellFormed_changedLayout (AllFormed.dashboard? formed found) _⟩
  · obtain ⟨widget, -, rfl⟩ := List.mem_map.mp deletion
    trivial

theorem formed_deleteList (list : ListId) (moment : Int) (tables : Tables) :
    Formed (fun _ _ _ _ => True) (deleteList list moment) [] ∅ tables := by
  apply Ensures.query
  intro asked _ _
  split
  next => trivial
  next row _ =>
    apply Ensures.bind _ (formed_loadDashboard row.dashboardId ∅ asked)
    rintro dashboard _ _ read ⟨rfl, rfl, -, -, wellFormed⟩
    apply Ensures.bind _ (formed_removeResourceWidgets row.id wellFormed ∅ read)
    rintro _ pending held removed forms
    apply Ensures.update
    intro written _ _
    apply formed_commit
    exact List.forall_mem_append.mpr ⟨forms, by simp [Write.Forms]⟩

/-! ## Every run -/

theorem formed_handler (settings : Settings) (request : Request) (tables : Tables) :
    Formed (fun _ _ _ _ => True) (handler settings request) [] ∅ tables := by
  cases request with
  | createDashboard => exact formed_createDashboard _ _ _ _
  | createList => exact formed_createList _ _ _ _ _ _
  | updateLayout => exact formed_updateLayout _ _ _
  | addWidget => exact formed_addWidget _ _ _ _ _ _ _
  | deleteWidget => exact formed_deleteWidget _ _ _
  | deleteList => exact formed_deleteList _ _ _

/-- The service keeps every layout well formed. -/
theorem verified_geometry (settings : Settings) :
    Service.Verified (service settings) forming DrawsNew where
  initially := by
    rintro tables rfl
    simp [forming, AllFormed]
  handlers := fun _ request tables _ => formed_handler settings request tables
  keeps := fun _ => nofun
  leaves := fun _ => nofun

/-- **Layout geometry.** In every state that requests lead to, the ids drawn for widgets
being new, the entries of every stored layout are boxes within the grid, no two share a
cell, and their ids are distinct. -/
theorem layouts_wellFormed (settings : Settings)
    {state : State Tables Write Lock Calendar.HttpError Unit}
    (reached : (service settings).system.ReachedWithin (Service.CommitsWithin DrawsNew) state)
    {dashboard : Dashboard} (stored : dashboard ∈ state.database.dashboards) :
    (∀ item ∈ dashboard.layout, item.toBox.Fits 24 24) ∧
      (dashboard.layout.Pairwise fun item other => Disjoint item.cells other.cells) ∧
        (dashboard.layout.map LayoutItem.i).Nodup := by
  have formed : AllFormed state.database :=
    Service.invariant_of_ensures (verified_geometry settings) reached
  have wellFormed := formed dashboard stored
  exact ⟨fun item => wellFormed.fits, wellFormed.disjoint, wellFormed.unique⟩

def roomy : Settings := ⟨50, 50, 50, 50⟩

def firstUuid : Uuid := ⟨List.replicate 32 1, rfl⟩
def secondUuid : Uuid := ⟨List.replicate 32 2, rfl⟩

/-- Tables without rows. -/
def blank : State Tables Write Lock Calendar.HttpError Unit :=
  ⟨⟨[], [], [], []⟩, fun _ => none, fun _ => none⟩

/-- A blank database is where the run below starts. -/
theorem blank_initial : (service roomy).system.Initial blank :=
  ⟨rfl, fun _ => rfl, fun _ => rfl⟩

/-- Two widgets, the second seated where the first leaves room. -/
theorem layouts_wellFormed_of_two : ∃ state, (service roomy).system.Reachable state ∧
    ∃ dashboard ∈ state.database.dashboards, dashboard.layout.length = 2 ∧
      (∀ item ∈ dashboard.layout, item.toBox.Fits 24 24) ∧
        (dashboard.layout.Pairwise fun item other => Disjoint item.cells other.cells) ∧
          (dashboard.layout.map LayoutItem.i).Nodup := by
  obtain ⟨state, reached, stored⟩ := TransitionSystem.exists_reachedWithin_of_run
    (Service.CommitsWithin DrawsNew) blank_initial
    (runs 0 (.createDashboard 7 1) 4 ++ runs 1 (.addWidget 7 1 .calendar firstUuid 1) 8 ++
      runs 2 (.addWidget 7 1 .clock secondUuid 2) 8)
    (fun state => state.database.dashboards.any fun dashboard => dashboard.layout.length = 2)
    (by decide)
  obtain ⟨dashboard, present, two⟩ := List.any_eq_true.mp stored
  exact ⟨state, reached.reachable, dashboard, present, of_decide_eq_true two,
    layouts_wellFormed roomy reached present⟩

end FrontDashboard.Boards
