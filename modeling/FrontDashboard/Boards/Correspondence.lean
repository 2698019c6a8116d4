import FrontDashboard.Boards.Geometry

/-! # Layouts correspond to widgets and lists

In every run whose layout saves name the dashboard's widgets, and in which no list is
deleted from under another write, each widget has one entry, each entry a widget, and
each list widget a live list.
-/

namespace FrontDashboard.Boards

open ReadCommitted

/-- Each widget has exactly one entry, each entry names a widget of its dashboard, and each
list widget a live list of its dashboard. -/
structure Corresponding (tables : Tables) : Prop where
  homes : ∀ widget ∈ tables.widgets, (tables.dashboard? widget.dashboardId).isSome = true
  seated : ∀ dashboard ∈ tables.dashboards, ∀ widget ∈ tables.widgetsOf dashboard.id,
    (dashboard.layout.filter fun item => item.i = widget.id.text).length = 1
  named : ∀ dashboard ∈ tables.dashboards, ∀ item ∈ dashboard.layout,
    ∃ widget ∈ tables.widgetsOf dashboard.id, item.i = widget.id.text
  lists : ∀ widget ∈ tables.widgets, widget.widgetType = .list → ∃ row ∈ tables.lists,
    widget.resourceId = some row.id ∧ row.dashboardId = widget.dashboardId ∧ row.deletedAt = none

/-- Sound rows correspond. -/
theorem Sound.corresponding {tables : Tables} (sound : Sound tables) : Corresponding tables where
  homes := sound.homes
  seated := by
    intro dashboard present widget member
    have seated := sound.seated dashboard present nofun
    have ids : ((tables.widgetsOf dashboard.id).map (·.id)).Nodup :=
      sound.widgetIds.sublist (List.filter_sublist.map _)
    have once : (tables.texts dashboard.id).Nodup := by
      have texts := ids.map Uuid.text_injective
      rw [List.map_map] at texts
      exact texts
    have counted : (dashboard.layout.map (·.i)).count widget.id.text = 1 := by
      rw [seated.count_eq]
      exact List.count_eq_one_of_mem once (List.mem_map_of_mem member)
    rw [List.count_eq_length_filter, List.filter_map, List.length_map] at counted
    rw [← counted]
    congr 1
  named := by
    intro dashboard present item member
    have seated := sound.seated dashboard present nofun
    obtain ⟨widget, own, same⟩ := List.mem_map.mp (seated.subset (List.mem_map_of_mem member))
    exact ⟨widget, own, same.symm⟩
  lists := by
    intro widget present listed
    obtain ⟨list, named⟩ := Option.isSome_iff_exists.mp (sound.listed widget present listed)
    obtain ⟨row, inLists, rfl, facts⟩ := sound.bound widget present list named
    exact ⟨row, inLists, named, facts⟩

/-! ## What is left alone -/

/-- What a request that holds some locks may rely on. -/
structure Relies (held : Set Lock) (before after : Tables) : Prop where
  dashboards : ∀ id, .dashboard id ∈ held →
    after.dashboard? id = before.dashboard? id ∧ after.widgetsOf id = before.widgetsOf id
  lists : ∀ id, .list id ∈ held →
    id ∉ before.lists.map (·.id) → id ∉ after.lists.map (·.id)
  stays : ∀ id, (before.dashboard? id).isSome = true → (after.dashboard? id).isSome = true
  rows : ∀ row ∈ before.lists, ∃ other ∈ after.lists,
    other.id = row.id ∧ other.dashboardId = row.dashboardId
  drawn : ∀ id ∈ before.drawn, id ∈ after.drawn
  older : ∀ widget ∈ after.widgets, widget.id ∈ before.drawn → widget ∈ before.widgets

namespace Relies

variable {held : Set Lock} {tables : Tables}

/-- Nothing has changed. -/
theorem refl (held : Set Lock) (tables : Tables) : Relies held tables tables where
  dashboards := fun _ _ => ⟨rfl, rfl⟩
  lists := fun _ _ new => new
  stays := fun _ there => there
  rows := fun row present => ⟨row, present, rfl, rfl⟩
  drawn := fun _ member => member
  older := fun _ present _ => present

/-- What is relied on holds over two stretches. -/
theorem trans {first second third : Tables} (earlier : Relies held first second)
    (later : Relies held second third) : Relies held first third where
  dashboards := by
    intro id locked
    obtain ⟨row, widgets⟩ := earlier.dashboards id locked
    rw [← row, ← widgets]
    exact later.dashboards id locked
  lists := fun id locked new => later.lists id locked (earlier.lists id locked new)
  stays := fun id there => later.stays id (earlier.stays id there)
  rows := by
    intro row present
    obtain ⟨middle, inMiddle, sameId, sameHome⟩ := earlier.rows row present
    obtain ⟨last, inLast, lastId, lastHome⟩ := later.rows middle inMiddle
    exact ⟨last, inLast, lastId.trans sameId, lastHome.trans sameHome⟩
  drawn := fun id member => later.drawn id (earlier.drawn id member)
  older := fun widget present old =>
    earlier.older widget (later.older widget present (earlier.drawn _ old)) old

/-- Fewer locks leave less to rely on. -/
theorem mono {fewer : Set Lock} (subset : fewer ⊆ held) {before after : Tables}
    (relied : Relies held before after) : Relies fewer before after :=
  { relied with
    dashboards := fun id locked => relied.dashboards id (subset locked)
    lists := fun id locked => relied.lists id (subset locked) }

/-- It holds where a write touches no board that is locked. -/
theorem setLayout {id : DashboardId} (free : .dashboard id ∉ held) (layout : Option Layout)
    (version : Int) : Relies held tables (tables.setLayout id layout version) :=
  { refl held tables with
    dashboards := by
      intro other locked
      have different : other ≠ id := by
        rintro rfl
        exact free locked
      exact ⟨tables.dashboard?_setLayout different layout version, rfl⟩
    stays := by
      intro other there
      rw [Tables.dashboard?_isSome, Tables.ids_setLayout, ← Tables.dashboard?_isSome]
      exact there }

theorem insertDashboard {id : DashboardId} (free : .dashboard id ∉ held) (userId : UserId) :
    Relies held tables (tables.perform (.insertDashboard id userId)) :=
  { refl held tables with
    dashboards := by
      intro other locked
      have different : ¬ id = other := by
        rintro rfl
        exact free locked
      refine ⟨?_, rfl⟩
      simp [Tables.dashboard?, Tables.perform, List.find?_append, different]
    stays := by
      intro other there
      simp only [Tables.dashboard?, Tables.perform, List.find?_append, Option.isSome_or]
      rw [Tables.dashboard?] at there
      rw [there, Bool.true_or] }

theorem insertList {list : ListRow} (free : .list list.id ∉ held) :
    Relies held tables (tables.perform (.insertList list)) :=
  { refl held tables with
    lists := by
      intro id locked new taken
      simp only [Tables.perform, List.map_append, List.mem_append] at taken
      rcases taken with old | added
      · exact new old
      · rw [List.mem_singleton.mp added] at locked
        exact free locked
    rows := fun row present => ⟨row, List.mem_append_left _ present, rfl, rfl⟩ }

theorem insertWidget {widget : DashboardWidget} (new : widget.id ∉ tables.drawn)
    (free : .dashboard widget.dashboardId ∉ held) :
    Relies held tables (tables.perform (.insertWidget widget)) :=
  { refl held tables with
    dashboards := by
      intro id locked
      have different : ¬ widget.dashboardId = id := by
        intro same
        rw [same] at free
        exact free locked
      refine ⟨rfl, ?_⟩
      simp [Tables.widgetsOf, Tables.perform, List.filter_append, different]
    drawn := fun id member => List.mem_cons_of_mem _ member
    older := by
      intro other present old
      rcases List.mem_append.mp present with before | added
      · exact before
      · rw [List.mem_singleton.mp added] at old
        exact absurd old new }

theorem trashList (list : ListId) (moment : Int) :
    Relies held tables (tables.perform (.trashList list moment)) :=
  { refl held tables with
    lists := by
      intro id _ new
      rw [Tables.ids_trashList]
      exact new
    rows := by
      intro row present
      refine ⟨_, List.mem_map.mpr ⟨row, present, rfl⟩, ?_⟩
      split_ifs <;> exact ⟨rfl, rfl⟩ }

theorem withoutWidgets {id : DashboardId} {ids : List Uuid} (free : .dashboard id ∉ held)
    (own : ∀ widget ∈ tables.widgets, widget.id ∈ ids → widget.dashboardId = id) :
    Relies held tables (tables.withoutWidgets ids) :=
  { refl held tables with
    dashboards := by
      intro other locked
      have different : other ≠ id := by
        rintro rfl
        exact free locked
      exact ⟨rfl, Tables.widgetsOf_withoutWidgets different own⟩
    older := fun widget present _ => (List.mem_filter.mp present).1 }

end Relies

/-- Requests keep the tables in step, and leave alone what is locked. -/
def inStep : Interference Tables Lock where
  invariant := Sound
  rely := Relies
  refl := Relies.refl
  trans := fun _ _ _ _ => Relies.trans

/-- A write leaves the correspondence to the requests' own care: a layout that is saved names
the dashboard's widgets, an edit is of the layout that is stored, the id drawn for a widget
is new and its list is not in the trash, and a list takes its widgets with it. -/
def AdmitsWrite (tables : Tables) (pending : List Write) : Write → Prop
  | .saveLayout id layout _ => (layout.map (·.i)).Perm (tables.texts id)
  | .editLayout id _ _ base =>
      ∀ dashboard ∈ tables.dashboards, dashboard.id = id → dashboard.layout = base
  | .insertWidget widget => widget.id ∉ tables.drawn ∧
      ∀ row ∈ tables.lists, widget.resourceId = some row.id → row.deletedAt = none
  | .trashList list _ =>
      ∀ widget ∈ tables.widgets, widget.resourceId = some list → .deleteWidget widget.id ∈ pending
  | _ => True

/-- Every write of the commit is admitted. -/
def Admits (tables : Tables) (pending : List Write) : Prop :=
  ∀ write ∈ pending, AdmitsWrite tables pending write

instance (tables : Tables) (pending : List Write) (write : Write) :
    Decidable (AdmitsWrite tables pending write) :=
  match write with
  | .saveLayout .. | .editLayout .. | .insertWidget _ | .trashList .. => by
      dsimp only [AdmitsWrite]
      infer_instance
  | .insertDashboard .. | .deleteWidget _ | .insertList _ => isTrue trivial

instance (tables : Tables) (pending : List Write) : Decidable (Admits tables pending) := by
  unfold Admits
  infer_instance

/-! ## The handlers -/

/-- The program keeps the tables in step, started in a given transaction. -/
abbrev Kept {α : Type} (post : α → List Write → Set Lock → Tables → Prop) (program : Handler α)
    (pending : List Write) (held : Set Lock) (tables : Tables) : Prop :=
  Ensures Tables.perform inStep Admits post program pending held tables

/-- The dashboard that is loaded is current. -/
theorem kept_loadDashboard (id : DashboardId) (held : Set Lock) (tables : Tables) :
    Kept (fun dashboard pending holds later => pending = [] ∧ holds = held ∧
        Relies held tables later ∧ later.dashboard? id = some dashboard ∧ dashboard.id = id)
      (loadDashboard id) [] held tables := by
  apply Ensures.query
  intro later relied sound
  split
  next => trivial
  next dashboard found =>
    have named := ((Tables.dashboard?_eq_some sound.dashboardIds).mp found).2
    exact ⟨rfl, rfl, relied, found, named⟩

/-- The row that a lock holds in place. -/
theorem kept_lockDashboard (id : DashboardId) (tables : Tables) :
    Kept (fun dashboard pending held later => pending = [] ∧ held = {.dashboard id} ∧
        later.dashboard? id = some dashboard ∧ dashboard.id = id)
      (lockDashboard id) [] ∅ tables := by
  apply Ensures.acquire
  intro locked _ _
  apply Ensures.mono _ (kept_loadDashboard id _ locked)
  rintro dashboard _ _ later ⟨rfl, rfl, -, found⟩
  exact ⟨rfl, insert_empty_eq _, found⟩

/-- A dashboard is created with rows that correspond. -/
theorem kept_createDashboard (settings : Settings) (caller : UserId) (id : DashboardId)
    (tables : Tables) :
    Kept (fun _ _ _ _ => True) (createDashboard settings caller id) [] ∅ tables := by
  apply Ensures.bind _ (ensures_assertUnderQuota _ _ _ _ _ _)
  rintro _ _ _ asked ⟨rfl, rfl, -⟩
  apply Ensures.acquire
  intro locked _ _
  apply Ensures.updateReturning
  intro seen _ _
  split
  next => trivial
  next free =>
    apply Ensures.commitTransaction
    intro later relied sound _
    have here : Lock.dashboard id ∈ insert (Lock.dashboard id) (∅ : Set Lock) := Set.mem_insert _ _
    have new : later.dashboard? id = none := by
      rw [(relied.dashboards id here).1]
      simpa using free
    refine ⟨SoundBut.insertDashboard sound new caller, fun others apart => ?_, trivial⟩
    exact Relies.insertDashboard (Set.disjoint_left.mp apart here) caller

/-- A list is created with rows that correspond. -/
theorem kept_createList (settings : Settings) (caller : UserId) (dashboardId : DashboardId)
    (id : ListId) (listType : ListType) (tables : Tables) :
    Kept (fun _ _ _ _ => True) (createList settings caller dashboardId id listType)
      [] ∅ tables := by
  apply Ensures.bind _ (kept_lockDashboard dashboardId tables)
  rintro dashboard _ _ locked ⟨rfl, rfl, -, -⟩
  apply Ensures.bind _ (ensures_assertUnderQuota _ _ _ _ _ _)
  rintro _ _ _ first ⟨rfl, rfl, -⟩
  apply Ensures.bind _ (ensures_assertUnderQuota _ _ _ _ _ _)
  rintro _ _ _ second ⟨rfl, rfl, -⟩
  apply Ensures.acquire
  intro waited _ _
  apply Ensures.updateReturning
  intro seen _ _
  split
  next => trivial
  next free =>
    apply Ensures.commitTransaction
    intro later relied sound _
    have here : Lock.list id ∈ insert (Lock.list id) ({.dashboard dashboardId} : Set Lock) :=
      Set.mem_insert _ _
    have new : id ∉ later.lists.map (·.id) := by
      apply relied.lists id here
      simpa using free
    refine ⟨SoundBut.insertList sound new, fun others apart => ?_, trivial⟩
    exact Relies.insertList (Set.disjoint_left.mp apart here)

/-- A layout save is of a dashboard that is locked. -/
theorem kept_updateLayout (id : DashboardId) (body : LayoutUpdate) (tables : Tables) :
    Kept (fun _ _ _ _ => True) (updateLayout id body) [] ∅ tables := by
  apply Ensures.bind _ (kept_lockDashboard id tables)
  rintro dashboard _ _ locked ⟨rfl, rfl, -, named⟩
  split
  · trivial
  apply Ensures.query
  intro asked _ _
  split
  next => trivial
  next =>
    apply Ensures.update
    intro written _ _
    apply Ensures.commitTransaction
    intro later _ sound admitted
    have names := admitted _ List.mem_cons_self
    rw [named] at names ⊢
    refine ⟨Sound.saveLayout sound names _, fun others apart => ?_, trivial⟩
    exact Relies.setLayout (Set.disjoint_left.mp apart rfl) _ _

/-- The list that a new widget is bound to, with what has been written for it. -/
inductive Binds (dashboard : DashboardId) (held : Set Lock) (tables : Tables) :
    Option ListId → List Write → Prop
  | nothing : Binds dashboard held tables none []
  | listed {row : ListRow} (present : row ∈ tables.lists) (home : row.dashboardId = dashboard) :
      Binds dashboard held tables (some row.id) []
  | inserted {list : ListRow} (home : list.dashboardId = dashboard) (live : list.deletedAt = none)
      (locked : .list list.id ∈ held) (new : list.id ∉ tables.lists.map (·.id)) :
      Binds dashboard held tables (some list.id) [.insertList list]

/-- What binds a widget binds it while the locks are held. -/
theorem Binds.later {dashboard : DashboardId} {held more : Set Lock} (subset : held ⊆ more)
    {before after : Tables} (relied : Relies more before after) {resource : Option ListId}
    {pending : List Write} (binds : Binds dashboard held before resource pending) :
    Binds dashboard more after resource pending := by
  cases binds with
  | nothing => exact .nothing
  | listed present home =>
      obtain ⟨other, there, sameId, sameHome⟩ := relied.rows _ present
      rw [← sameId]
      exact .listed there (sameHome.trans home)
  | inserted home live locked new =>
      exact .inserted home live (subset locked) (relied.lists _ (subset locked) new)

/-- A widget is bound to a list of its dashboard. -/
theorem kept_bindResource (caller : UserId) (dashboard : Dashboard) (newList : ListId)
    (body : WidgetCreate) (held : Set Lock) (tables : Tables) :
    Kept (fun resource pending holds later => held ⊆ holds ∧ Relies held tables later ∧
        Binds dashboard.id holds later resource pending ∧
        (body.widgetType = .list → resource.isSome = true))
      (bindResource caller dashboard newList body) [] held tables := by
  have unbound : body.widgetType ≠ .list → Kept (fun resource pending holds later =>
      held ⊆ holds ∧ Relies held tables later ∧ Binds dashboard.id holds later resource pending ∧
        (body.widgetType = .list → resource.isSome = true)) (.answer none) [] held tables :=
    fun other => ⟨Set.Subset.rfl, .refl _ _, .nothing, fun listed => absurd listed other⟩
  cases body with
  | clock | calendar | agenda => exact unbound nofun
  | list resourceId listType =>
      cases resourceId with
      | none =>
          rw [bindResource]
          split
          next => trivial
          next =>
            apply Ensures.acquire
            intro locked toLocked _
            apply Ensures.updateReturning
            intro later relied _
            split
            next => trivial
            next free =>
              have new : newList ∉ later.lists.map (·.id) := by simpa using free
              refine ⟨Set.subset_insert _ _, ?_, ?_, fun _ => rfl⟩
              · exact Relies.trans toLocked (Relies.mono (Set.subset_insert _ _) relied)
              · exact @Binds.inserted _ _ _ ⟨newList, _, _, _, none⟩ rfl rfl
                  (Set.mem_insert _ _) new
      | some list =>
          apply Ensures.query
          intro later relied _
          split
          next => trivial
          next row found =>
            obtain ⟨live, home⟩ := Option.filter_eq_some_iff.mp found
            have named := List.find?_some live
            simp only [decide_eq_true_eq] at named home
            refine ⟨Set.Subset.rfl, relied, ?_, fun _ => rfl⟩
            rw [← named.1]
            exact .listed (List.mem_of_find?_eq_some live) home

/-- Binding leaves widgets and layouts. -/
theorem Binds.unchanged {dashboard : DashboardId} {held : Set Lock} {tables : Tables}
    {resource : Option ListId} {pending : List Write}
    (binds : Binds dashboard held tables resource pending) (rows : Tables) :
    (performAll Tables.perform rows pending).dashboards = rows.dashboards ∧
      (performAll Tables.perform rows pending).drawn = rows.drawn := by
  cases binds <;> exact ⟨rfl, rfl⟩

/-- The list is there once the writes for it are performed. -/
theorem Binds.live {dashboard : DashboardId} {held : Set Lock} {tables : Tables}
    {resource : Option ListId} {pending : List Write}
    (binds : Binds dashboard held tables resource pending) (sound : Sound tables)
    (untrashed : ∀ row ∈ tables.lists, resource = some row.id → row.deletedAt = none) :
    Sound (performAll Tables.perform tables pending) ∧
      (∀ others, Disjoint held others →
        Relies others tables (performAll Tables.perform tables pending)) ∧
      (∀ list ∈ resource, ∃ row ∈ (performAll Tables.perform tables pending).lists,
        row.id = list ∧ row.dashboardId = dashboard ∧ row.deletedAt = none) := by
  cases binds with
  | nothing => exact ⟨sound, fun _ _ => .refl _ _, nofun⟩
  | listed present home =>
      refine ⟨sound, fun _ _ => .refl _ _, ?_⟩
      intro list named
      cases named
      exact ⟨_, present, rfl, home, untrashed _ present rfl⟩
  | @inserted row home live locked new =>
      refine ⟨SoundBut.insertList sound new, fun others apart => ?_, ?_⟩
      · exact Relies.insertList (Set.disjoint_left.mp apart locked)
      · intro list named
        cases named
        exact ⟨row, List.mem_append_right _ (List.mem_singleton_self _), rfl, home, live⟩

/-- A widget is seated in the layout that the lock holds in place. -/
theorem kept_addWidget (settings : Settings) (caller : UserId) (id : DashboardId)
    (body : WidgetCreate) (newWidget : Uuid) (newList : ListId) (tables : Tables) :
    Kept (fun _ _ _ _ => True) (addWidget settings caller id body newWidget newList)
      [] ∅ tables := by
  apply Ensures.bind _ (kept_lockDashboard id tables)
  rintro dashboard _ _ locked ⟨rfl, rfl, found, rfl⟩
  apply Ensures.bind _ (ensures_assertUnderQuota _ _ _ _ _ _)
  rintro _ _ _ counted ⟨rfl, rfl, toCounted⟩
  apply Ensures.bind _ (kept_bindResource caller dashboard newList body _ _)
  rintro resource pending held bound ⟨more, toBound, binds, listed⟩
  apply Ensures.query
  intro asked toAsked _
  split
  · trivial
  apply Ensures.acquire
  intro waited toWaited _
  apply Ensures.updateReturning
  intro drawn toDrawn sound
  split
  · trivial
  next =>
    dsimp only
    split
    next => trivial
    next box fitted =>
      apply Ensures.update
      intro written toWritten _
      apply Ensures.commitTransaction
      intro later toLater sound admitted
      have wider : held ⊆ insert (.widget newWidget) held := Set.subset_insert _ _
      have here : Lock.dashboard dashboard.id ∈ held := more rfl
      have toDrawing : Relies held bound drawn :=
        Relies.trans toAsked (Relies.trans toWaited (Relies.mono wider toDrawn))
      have fromDrawing : Relies (insert (.widget newWidget) held) drawn later :=
        Relies.trans toWritten toLater
      have binding := (binds.later Set.Subset.rfl toDrawing).later wider fromDrawing
      have same : later.dashboard? dashboard.id = some dashboard := by
        rw [(fromDrawing.dashboards _ (wider here)).1, (toDrawing.dashboards _ here).1,
          (toBound.dashboards _ rfl).1, (toCounted.dashboards _ rfl).1, found]
      obtain ⟨new, untrashed⟩ := admitted (.insertWidget ⟨newWidget, dashboard.id,
        body.widgetType, resource⟩) (by simp)
      obtain ⟨stillSound, leaves, live⟩ := binding.live sound untrashed
      obtain ⟨sameRows, sameDrawn⟩ := binds.unchanged later
      rw [performAll_append, performAll_append]
      have there : (performAll Tables.perform later pending).dashboard? dashboard.id =
          some dashboard := by
        rw [Tables.dashboard?, sameRows]
        exact same
      rw [← sameDrawn] at new
      have seated := @Sound.seatWidget _ stillSound dashboard there
        ⟨newWidget, dashboard.id, body.widgetType, resource⟩ rfl new live listed box
          (dashboard.version + 1)
      refine ⟨seated, fun others apart => ?_, trivial⟩
      have free : Lock.dashboard dashboard.id ∉ others :=
        Set.disjoint_left.mp apart (wider here)
      exact Relies.trans (leaves others apart)
        (Relies.trans (Relies.insertWidget new free) (Relies.setLayout free _ _))

/-- Widgets that were drawn, all of one dashboard. -/
def Owned (id : DashboardId) (ids : List Uuid) (tables : Tables) : Prop :=
  (∀ widget ∈ ids, widget ∈ tables.drawn) ∧
    ∀ widget ∈ tables.widgets, widget.id ∈ ids → widget.dashboardId = id

/-- Widgets of a board are its own later too. -/
theorem Owned.later {id : DashboardId} {ids : List Uuid} {held : Set Lock} {before after : Tables}
    (owned : Owned id ids before) (relied : Relies held before after) : Owned id ids after := by
  refine ⟨fun widget member => relied.drawn _ (owned.1 widget member), ?_⟩
  intro widget present member
  exact owned.2 widget (relied.older widget present (owned.1 _ member)) member

/-- Widgets of a dashboard own their ids. -/
theorem Sound.owned {tables : Tables} (sound : Sound tables) {id : DashboardId}
    {widgets : List DashboardWidget} (present : ∀ widget ∈ widgets, widget ∈ tables.widgets)
    (home : ∀ widget ∈ widgets, widget.dashboardId = id) :
    Owned id (widgets.map (·.id)) tables := by
  constructor
  · intro named member
    obtain ⟨widget, inside, rfl⟩ := List.mem_map.mp member
    exact sound.drawn widget (present widget inside)
  · intro other inTables member
    obtain ⟨widget, inside, same⟩ := List.mem_map.mp member
    rw [← List.inj_on_of_nodup_map sound.widgetIds (present widget inside) inTables same]
    exact home widget inside

/-- Widgets and their entries may go together while the layout is locked. -/
theorem removal {tables : Tables} (sound : Sound tables) {id : DashboardId} {ids : List Uuid}
    (owned : Owned id ids tables) {base : Layout}
    (stored : ∀ dashboard ∈ tables.dashboards, dashboard.id = id → dashboard.layout = base)
    (version : Int) :
    Sound ((tables.withoutWidgets ids).setLayout id (changedLayout base (ids.map Uuid.text))
        version) ∧
      ∀ others, .dashboard id ∉ others → Relies others tables
        ((tables.withoutWidgets ids).setLayout id (changedLayout base (ids.map Uuid.text))
          version) := by
  refine ⟨sound.removeWidgets owned.2 stored version, fun others free => ?_⟩
  exact Relies.trans (Relies.withoutWidgets free owned.2) (Relies.setLayout free _ _)

/-- A widget is deleted with its entry. -/
theorem kept_deleteWidget (id : DashboardId) (widgetId : Uuid) (tables : Tables) :
    Kept (fun _ _ _ _ => True) (deleteWidget id widgetId) [] ∅ tables := by
  apply Ensures.bind _ (kept_lockDashboard id tables)
  rintro dashboard _ _ locked ⟨rfl, rfl, found, rfl⟩
  apply Ensures.query
  intro asked toAsked sound
  split
  next => trivial
  next widget listed =>
    apply Ensures.update
    intro written toWritten _
    apply Ensures.commitTransaction
    intro later toLater kept admitted
    have own := List.mem_filter.mp (List.mem_of_find?_eq_some listed)
    have owned : Owned dashboard.id [widget.id] asked :=
      @Sound.owned _ sound _ [widget] (by simpa using own.1) (by simpa using own.2)
    have stored := admitted (.editLayout dashboard.id
      (changedLayout dashboard.layout [widget.id.text]) (dashboard.version + 1) dashboard.layout)
      (by simp)
    obtain ⟨stillSound, leaves⟩ := removal kept (owned.later (Relies.trans toWritten toLater))
      stored (dashboard.version + 1)
    have same := Tables.performAll_deleteWidgets later [widget.id]
    simp only [List.map_cons, List.map_nil] at same
    rw [List.nil_append, ← List.singleton_append, performAll_append, same]
    exact ⟨stillSound, fun others apart => leaves others (Set.disjoint_left.mp apart rfl), trivial⟩

/-- The widgets of a list are on its dashboard. -/
theorem Sound.boundTo {tables : Tables} (sound : Sound tables) {row : ListRow}
    (present : row ∈ tables.lists) {widget : DashboardWidget}
    (bound : widget ∈ tables.boundTo row.id) :
    widget ∈ tables.widgets ∧ widget.dashboardId = row.dashboardId := by
  obtain ⟨inTables, named⟩ := List.mem_filter.mp bound
  obtain ⟨other, there, sameId, home, -⟩ :=
    sound.bound widget inTables row.id (of_decide_eq_true named)
  refine ⟨inTables, ?_⟩
  rw [← home, List.inj_on_of_nodup_map sound.listIds there present sameId]

/-- The dashboards to be edited are one. -/
theorem dedup_of_constant {widgets : List DashboardWidget} (some : widgets ≠ [])
    {id : DashboardId} (home : ∀ widget ∈ widgets, widget.dashboardId = id) :
    (widgets.map (·.dashboardId)).dedup = [id] := by
  rw [List.map_eq_replicate_iff.mpr home]
  apply List.replicate_dedup
  simpa using some

/-- Widgets of one dashboard are removed from its layout. -/
theorem removeFrom_of_home {widgets : List DashboardWidget} {dashboard : Dashboard}
    (home : ∀ widget ∈ widgets, widget.dashboardId = dashboard.id) :
    removeFrom widgets dashboard = .editLayout dashboard.id
      (changedLayout dashboard.layout ((widgets.map (·.id)).map Uuid.text))
      (dashboard.version + 1) dashboard.layout := by
  have all : widgets.filter (fun widget => widget.dashboardId = dashboard.id) = widgets := by
    rw [List.filter_eq_self]
    intro widget member
    exact decide_eq_true (home widget member)
  rw [removeFrom, all, List.map_map]
  rfl

/-- What `remove_resource_widgets` leaves to be committed. -/
def Removes (dashboard : Dashboard) (pending : List Write) (held : Set Lock)
    (tables : Tables) : Prop :=
  pending = [] ∨ ∃ ids, Owned dashboard.id ids tables ∧ .dashboard dashboard.id ∈ held ∧
    pending = .editLayout dashboard.id (changedLayout dashboard.layout (ids.map Uuid.text))
      (dashboard.version + 1) dashboard.layout :: ids.map .deleteWidget

/-- The widgets of a list are removed with their entries. -/
theorem kept_removeResourceWidgets {row : ListRow} {dashboard : Dashboard}
    (home : row.dashboardId = dashboard.id) {held : Set Lock} {tables : Tables}
    (present : ∃ other ∈ tables.lists, other.id = row.id ∧ other.dashboardId = row.dashboardId)
    (there : (tables.dashboard? dashboard.id).isSome = true) :
    Kept (fun _ pending holds later => held ⊆ holds ∧ Removes dashboard pending holds later)
      (removeResourceWidgets row.id dashboard) [] held tables := by
  apply Ensures.query
  intro asked toAsked sound
  have own : ∀ widget ∈ asked.boundTo row.id,
      widget ∈ asked.widgets ∧ widget.dashboardId = dashboard.id := by
    intro widget bound
    obtain ⟨origin, inTables, originId, originHome⟩ := present
    obtain ⟨now, inAsked, nowId, nowHome⟩ := toAsked.rows origin inTables
    rw [← originId, ← nowId] at bound
    obtain ⟨there, same⟩ := Sound.boundTo sound inAsked bound
    exact ⟨there, same.trans (nowHome.trans (originHome.trans home))⟩
  have homes := fun widget member => (own widget member).2
  have owned := Sound.owned sound (fun widget member => (own widget member).1) homes
  split
  · exact ⟨Set.Subset.rfl, .inl rfl⟩
  next bound =>
    have one : ((asked.boundTo row.id).map (·.dashboardId)).dedup = [dashboard.id] :=
      dedup_of_constant bound homes
    apply Ensures.bind _
      (Ensures.acquireAll (fun _ _ _ _ => Relies.mono (Set.subset_insert _ _)) _ _ _ _)
    rintro _ _ holds locked ⟨rfl, more, all, toLocked⟩
    have here : Lock.dashboard dashboard.id ∈ holds := by
      apply all
      simp only [performAll_nil, one]
      exact List.mem_singleton_self _
    apply Ensures.query
    intro read toRead kept
    have still : (read.dashboard? dashboard.id).isSome = true :=
      toRead.stays _ (toLocked.stays _ (toAsked.stays _ there))
    obtain ⟨current, found⟩ := Option.isSome_iff_exists.mp still
    have sameId := ((Tables.dashboard?_eq_some kept.dashboardIds).mp found).2
    intro written toWritten _
    have stillOwned := ((owned.later toLocked).later toRead).later toWritten
    refine ⟨more, .inr ⟨_, stillOwned, here, ?_⟩⟩
    simp only [performAll_nil, one, List.filterMap_cons, found, List.filterMap_nil,
      List.map_cons, List.map_nil, sameId, if_true, removeFrom_of_home homes]
    rw [List.map_map (g := Write.deleteWidget)]
    rfl

theorem Removes.later {dashboard : Dashboard} {pending : List Write} {held : Set Lock}
    {before after : Tables} (removes : Removes dashboard pending held before)
    (relied : Relies held before after) : Removes dashboard pending held after := by
  rcases removes with none_ | ⟨ids, owned, locked, same⟩
  · exact .inl none_
  · exact .inr ⟨ids, owned.later relied, locked, same⟩

/-- A list that takes its widgets with it. -/
theorem Removes.trashList {dashboard : Dashboard} {pending : List Write} {held : Set Lock}
    {tables : Tables} (removes : Removes dashboard pending held tables) (sound : Sound tables)
    {list : ListId} {moment : Int}
    (admitted : Admits tables (pending ++ [.trashList list moment])) :
    Sound (performAll Tables.perform tables (pending ++ [.trashList list moment])) ∧
      ∀ others, Disjoint held others →
        Relies others tables
          (performAll Tables.perform tables (pending ++ [.trashList list moment])) := by
  have takes := admitted (.trashList list moment) (by simp)
  rcases removes with rfl | ⟨ids, owned, locked, rfl⟩
  · refine ⟨SoundBut.trashList sound ?_ moment, fun others _ => .trashList list moment⟩
    intro widget present named
    simpa using takes widget present named
  · have stored := admitted _ List.mem_cons_self
    obtain ⟨stillSound, leaves⟩ := removal sound owned stored (dashboard.version + 1)
    have unbound : ∀ widget ∈ (tables.withoutWidgets ids).widgets,
        widget.resourceId ≠ some list := by
      intro widget present named
      obtain ⟨inTables, kept⟩ := List.mem_filter.mp present
      have deleted := takes widget inTables named
      simp only [decide_eq_true_eq] at kept
      simp [kept] at deleted
    have same : performAll Tables.perform tables (.editLayout dashboard.id
        (changedLayout dashboard.layout (ids.map Uuid.text)) (dashboard.version + 1)
        dashboard.layout :: ids.map .deleteWidget) = (tables.withoutWidgets ids).setLayout
          dashboard.id (changedLayout dashboard.layout (ids.map Uuid.text))
          (dashboard.version + 1) :=
      Tables.performAll_deleteWidgets (tables.setLayout dashboard.id _ _) ids
    rw [performAll_append, same]
    refine ⟨SoundBut.trashList stillSound unbound moment, fun others apart => ?_⟩
    exact Relies.trans (leaves others (Set.disjoint_left.mp apart locked)) (.trashList list moment)

/-- A list is deleted together with its widgets. -/
theorem kept_deleteList (list : ListId) (moment : Int) (tables : Tables) :
    Kept (fun _ _ _ _ => True) (deleteList list moment) [] ∅ tables := by
  apply Ensures.query
  intro asked _ _
  split
  next => trivial
  next row listed =>
    have present := List.mem_of_find?_eq_some listed
    apply Ensures.bind _ (kept_loadDashboard row.dashboardId ∅ asked)
    rintro dashboard _ _ read ⟨rfl, rfl, toRead, found, named⟩
    have there : (read.dashboard? dashboard.id).isSome = true := by
      rw [named, found]
      rfl
    apply Ensures.bind _ (kept_removeResourceWidgets named.symm (toRead.rows row present) there)
    rintro _ pending held removed ⟨-, removes⟩
    apply Ensures.update
    intro written toWritten _
    apply Ensures.commitTransaction
    intro later toLater kept admitted
    obtain ⟨stillSound, leaves⟩ :=
      (removes.later (Relies.trans toWritten toLater)).trashList kept admitted
    exact ⟨stillSound, leaves, trivial⟩

/-! ## Every run -/

/-- No rows are sound. -/
theorem sound_initial : Sound ⟨[], [], [], []⟩ where
  dashboardIds := List.nodup_nil
  widgetIds := List.nodup_nil
  listIds := List.nodup_nil
  drawn := nofun
  homes := nofun
  seated := nofun
  bound := nofun
  listed := nofun

/-- **Every request** keeps the rows corresponding. -/
theorem kept_handler (settings : Settings) (request : Request) (tables : Tables) :
    Kept (fun _ _ _ _ => True) (handler settings request) [] ∅ tables := by
  cases request with
  | createDashboard => exact kept_createDashboard _ _ _ _
  | createList => exact kept_createList _ _ _ _ _ _
  | updateLayout => exact kept_updateLayout _ _ _
  | addWidget => exact kept_addWidget _ _ _ _ _ _ _
  | deleteWidget => exact kept_deleteWidget _ _ _
  | deleteList => exact kept_deleteList _ _ _

/-- **The service** keeps the rows corresponding. -/
theorem verified_correspondence (settings : Settings) :
    Service.Verified (service settings) inStep Admits where
  initially := by
    rintro tables rfl
    exact sound_initial
  handlers := fun _ request tables _ => kept_handler settings request tables
  keeps := fun _ => nofun
  leaves := fun _ => nofun

/-- A layout with an entry for no widget. -/
def strayLayout : LayoutUpdate := ⟨[⟨⟨0, 0, 4, 4⟩, "sample-widget"⟩], 0, by decide⟩

/-- The server stores what it is sent, also of a widget that does not exist. -/
theorem stray_entry_stored :
    ¬ ∀ state, (service roomy).system.Reachable state → Corresponding state.database := by
  intro corresponding
  obtain ⟨state, reached, stray⟩ := TransitionSystem.exists_reachable_of_run blank_initial
    (runs 0 (.createDashboard 7 1) 4 ++ runs 1 (.updateLayout 1 strayLayout) 5)
    (fun state => decide (state.database.widgets = []) &&
      state.database.dashboards.any fun dashboard => dashboard.layout ≠ []) (by decide)
  obtain ⟨none_, some⟩ := Bool.and_eq_true_iff.mp stray
  obtain ⟨dashboard, present, filled⟩ := List.any_eq_true.mp some
  obtain ⟨item, member⟩ := List.exists_mem_of_ne_nil _ (of_decide_eq_true filled)
  obtain ⟨widget, own, -⟩ := (corresponding state reached).named dashboard present item member
  have listed := (List.mem_filter.mp own).1
  rw [of_decide_eq_true none_] at listed
  cases listed

/-- **Layouts, widgets and lists correspond** in every state that admitted commits lead to. -/
theorem corresponding_of_admitted {settings : Settings}
    {state : State Tables Write Lock Calendar.HttpError Unit}
    (reached : (service settings).system.ReachedWithin (Service.CommitsWithin Admits) state) :
    Corresponding state.database :=
  Sound.corresponding (Service.invariant_of_ensures (verified_correspondence settings) reached)

/-- A dashboard's two widgets, moved about. -/
def movedLayout : LayoutUpdate :=
  ⟨[⟨⟨12, 0, 12, 8⟩, secondUuid.text⟩, ⟨⟨0, 10, 4, 6⟩, firstUuid.text⟩], 2, by decide⟩

/-- A list goes, and its widget with it, after the layout was saved. -/
theorem corresponding_after_deletion :
    ∃ state : State Tables Write Lock Calendar.HttpError Unit,
      state.database.widgets.map (·.id) = [secondUuid] ∧
        (state.database.lists.map (·.deletedAt)) = [some 9] ∧ Corresponding state.database := by
  obtain ⟨state, reached, shape⟩ := TransitionSystem.exists_reachedWithin_of_run
    (Service.CommitsWithin Admits) blank_initial
    (runs 0 (.createDashboard 7 1) 4 ++
      runs 1 (.addWidget 7 1 (.list none none) firstUuid 3) 10 ++
      runs 2 (.addWidget 7 1 .calendar secondUuid 4) 8 ++
      runs 3 (.updateLayout 1 movedLayout) 5 ++ runs 4 (.deleteList 3 9) 8)
    (fun state => decide (state.database.widgets.map (·.id) = [secondUuid] ∧
      state.database.lists.map (·.deletedAt) = [some 9])) (by decide)
  obtain ⟨kept, trashed⟩ := of_decide_eq_true shape
  exact ⟨state, kept, trashed, corresponding_of_admitted reached⟩

end FrontDashboard.Boards
