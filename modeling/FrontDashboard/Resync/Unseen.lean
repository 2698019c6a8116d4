import FrontDashboard.Resync.Agendas

/-! # What happens out of sight

An answer rests on the dashboards that its user sees: two states that look alike to him are
answered alike, and a history on other dashboards changes nothing that he is answered. That a
widget shows a list of its own dashboard is what keeps the deletion of a list away from the
boards of others.
-/

namespace FrontDashboard.Resync

open Boards (WidgetCreate)
open Calendar (EventId TimezoneName Zone)
open FrontDashboard.Lists (ListId)
open Lists.Page (Carried ListRow Mutation Response)

/-! ## States that look alike -/

section Alike

variable {user : UserId} {one other : Tables} {id : DashboardId}

/-- Two states have the same of all that a user may see: the dashboards with their widgets, who
shares them, which are his favorites, their lists with the items, and their events. -/
structure LooksAlike (user : UserId) (one other : Tables) : Prop where
  sees : ∀ id, one.Sees user id ↔ other.Sees user id
  boards : other.boards (other.listAccessibleDashboardIds user) =
    one.boards (other.listAccessibleDashboardIds user)
  shares : ∀ id, other.Sees user id → other.shares id = one.shares id
  favorites : ∀ id, other.Sees user id →
    (id ∈ other.favorites user ↔ id ∈ one.favorites user)
  lists : ListsApart (other.listAccessibleDashboardIds user) one.lists other.lists
  calendar : CalendarKept (other.listAccessibleDashboardIds user) one.calendar other.calendar

namespace LooksAlike

/-- Worlds that look alike show the same boards. -/
theorem boardsShown (alike : LooksAlike user one other) :
    BoardsShown user (other.listAccessibleDashboardIds user) one other :=
  ⟨⟨fun board => board, fun board _ => .refl board, alike.boards.trans (List.map_id' _).symm⟩,
    alike.shares, alike.favorites⟩

variable (constrained : one.Constrained) (constrained' : other.Constrained)
  (alike : LooksAlike user one other)
include constrained constrained' alike

/-- The same rows are seen. -/
theorem rows_eq : other.dashboards.filter (fun row => other.Accessible user row) =
    one.dashboards.filter fun row => one.Accessible user row :=
  accessible_eq constrained constrained' alike.boards alike.sees

/-- Worlds that look alike show, refuse and remind of the same. -/
theorem visible_eq : one.listAccessibleDashboardIds user = other.listAccessibleDashboardIds user :=
  congrArg (List.map Dashboard.id) (alike.rows_eq constrained constrained').symm

theorem shows_iff {version : Int} :
    one.Shows user id version ↔ other.Shows user id version := by
  have same : ∀ row, (row ∈ other.dashboards ∧ other.Accessible user row) ↔
      row ∈ one.dashboards ∧ one.Accessible user row := by
    intro row
    have rows := congrArg (row ∈ ·) (alike.rows_eq constrained constrained')
    simpa using rows
  constructor
  · rintro ⟨row, listed, accessible, named, version⟩
    obtain ⟨listed', accessible'⟩ := (same row).mpr ⟨listed, accessible⟩
    exact ⟨row, listed', accessible', named, version⟩
  · rintro ⟨row, listed, accessible, named, version⟩
    obtain ⟨listed', accessible'⟩ := (same row).mp ⟨listed, accessible⟩
    exact ⟨row, listed', accessible', named, version⟩

omit constrained constrained' in
theorem places_iff {list : ListId} {order : Nat} {moment : Time} :
    one.Places user id list order moment ↔ other.Places user id list order moment := by
  rw [Tables.Places, Tables.Places, alike.sees id]
  refine and_congr_right fun seen => ?_
  rw [alike.lists.live id seen]

theorem refuses_iff : one.Refuses user id ↔ other.Refuses user id := by
  rw [Tables.Refuses, Tables.Refuses, alike.sees id, alike.visible_eq constrained constrained']

omit constrained constrained' in
theorem remindedLists_eq (today : Nat) (seen : other.Sees user id) :
    one.remindedLists today id = other.remindedLists today id := by
  rw [Tables.remindedLists, Tables.remindedLists, Tables.orderedLists, Tables.orderedLists,
    alike.lists.live id seen]
  refine congrArg _ (List.filter_congr fun row member => ?_)
  rw [due_eq, due_eq, alike.lists.items id seen row (mem_arranged.mp member)]

theorem reads_iff {event : EventId} : one.Reads user event ↔ other.Reads user event := by
  have found : ∀ {tables : Tables}, tables.Constrained → ∀ {row : Calendar.CalendarEvent},
      tables.calendar.liveEvent event = some row ↔
        row ∈ tables.calendar.events ∧ (row.id == event && row.deletedAt.isNone) = true :=
    fun constrained => KeyedRows.find?_eq_some_iff constrained.events fun _ passes =>
      eq_of_beq (Bool.and_eq_true_iff.mp passes).1
  constructor
  · rintro ⟨row, live, seen⟩
    have seen := (alike.sees row.dashboardId).mp seen
    obtain ⟨listed, passes⟩ := (found constrained).mp live
    exact ⟨row,
      (found constrained').mpr ⟨(alike.calendar.mem_events seen).mpr listed, passes⟩, seen⟩
  · rintro ⟨row, live, seen⟩
    obtain ⟨listed, passes⟩ := (found constrained').mp live
    exact ⟨row, (found constrained).mpr ⟨(alike.calendar.mem_events seen).mp listed, passes⟩,
      (alike.sees row.dashboardId).mpr seen⟩

/-- Nothing of a resource is unsettled between states that look alike. -/
theorem settled (context : Context) (resource : Resource) :
    Settled context user one other resource := by
  cases resource with
  | summaries => exact fun id version => alike.shows_iff constrained constrained'
  | dashboard id => exact fun version => alike.shows_iff constrained constrained'
  | members id => exact alike.sees id
  | listSummaries id =>
      exact ⟨alike.refuses_iff constrained constrained', fun _ _ _ => alike.places_iff⟩
  | listDetail list => exact fun _ _ _ => alike.places_iff
  | reminders id => exact ⟨alike.sees id, alike.remindedLists_eq context.today⟩
  | occurrences id windowStart windowEnd =>
      dsimp only [Settled]
      rw [alike.visible_eq constrained constrained']
  | event id => exact alike.reads_iff constrained constrained'

/-- What is answered of each resource. -/
theorem fetch_eq (context : Context) (resource : Resource) :
    resource.fetch context user one = resource.fetch context user other := by
  have settled := alike.settled constrained constrained' context resource
  cases resource with
  | summaries =>
      exact (fetch_summaries_iff context constrained constrained' alike.boardsShown).mpr settled
  | dashboard id =>
      exact (fetch_dashboard_iff context constrained constrained' alike.boardsShown).mpr settled
  | members id =>
      exact (fetch_members_iff context constrained constrained' alike.boardsShown).mpr settled
  | listSummaries id =>
      exact (fetch_listSummaries_iff context constrained' alike.lists.kept).mpr settled
  | listDetail list =>
      exact (fetch_listDetail_iff context constrained constrained' alike.lists.kept).mpr settled
  | reminders id =>
      exact (fetch_reminders_iff context constrained constrained' alike.lists.kept).mpr settled
  | occurrences id windowStart windowEnd =>
      exact (fetch_occurrences_iff context alike.calendar).mpr settled
  | event id =>
      exact (fetch_event_iff context constrained constrained' alike.calendar).mpr settled

end LooksAlike

end Alike

variable {user : UserId} {ids : List DashboardId} {id : DashboardId}
  {one tables before after next : Tables} {zoneInfo : TimezoneName → Zone} {settings : Settings}

/-! ## Lists that are shown on their dashboard -/

namespace Tables

/-- A widget shows a list of its own dashboard. -/
def Bound (tables : Tables) : Prop :=
  ∀ widget ∈ tables.widgets, ∀ list ∈ widget.resourceId,
    tables.dashboardOfList list = some widget.dashboardId

/-- A list belongs to the dashboard in its row. -/
theorem Constrained.dashboardOfList_eq_some (constrained : tables.Constrained) {list : ListId} :
    tables.dashboardOfList list = some id ↔
      ∃ row ∈ tables.lists.lists, row.id = list ∧ row.dashboardId = id := by
  constructor
  · intro on
    obtain ⟨row, found, here⟩ := Option.map_eq_some_iff.mp on
    have named := List.find?_some found
    rw [decide_eq_true_eq] at named
    exact ⟨row, List.mem_of_find?_eq_some found, named, here⟩
  · rintro ⟨row, listed, rfl, rfl⟩
    exact dashboardOfList_row constrained listed

end Tables

/-- Lists keep their ids and their dashboards. -/
def Persist (before after : Lists.Page.Tables) : Prop :=
  ∀ row ∈ before.lists, ∃ other ∈ after.lists,
    other.id = row.id ∧ other.dashboardId = row.dashboardId

theorem Persist.refl (lists : Lists.Page.Tables) : Persist lists lists :=
  fun row listed => ⟨row, listed, rfl, rfl⟩

/-- The lists of some rows that are changed one by one. -/
theorem Persist.of_map {lists after : Lists.Page.Tables} {change : ListRow → ListRow}
    (changed : after.lists = lists.lists.map change)
    (same : ∀ row ∈ lists.lists,
      (change row).id = row.id ∧ (change row).dashboardId = row.dashboardId) :
    Persist lists after :=
  fun row listed => ⟨change row, changed ▸ List.mem_map_of_mem listed, same row listed⟩

/-- Lists persist through every mutation. -/
theorem persist_carried (constrained : tables.Constrained) {mutation : Mutation}
    {response : Response} {lists : Lists.Page.Tables}
    (carried : Carried tables.lists mutation response lists) : Persist tables.lists lists := by
  have replaced : ∀ {trashed : Bool} {list : ListId} {row updated : ListRow},
      tables.lists.row? trashed list = some row → updated.id = row.id →
        updated.dashboardId = row.dashboardId →
          Persist tables.lists (tables.lists.replace updated) := by
    intro trashed list row updated found sameId sameDashboard
    obtain ⟨listed, -, -⟩ := Lists.Page.Tables.of_row? found
    refine .of_map rfl fun other member => ?_
    split_ifs with here
    · have same := constrained.lists.row_eq member listed (here.trans sameId)
      exact ⟨here.symm, sameDashboard.trans (same ▸ rfl)⟩
    · exact ⟨rfl, rfl⟩
  cases carried with
  | created _ => exact fun row listed => ⟨row, List.mem_append_left _ listed, rfl, rfl⟩
  | renamed found | deleted found | restored found => exact replaced found rfl rfl
  | reordered =>
      refine .of_map rfl fun row _ => ?_
      split_ifs <;> exact ⟨rfl, rfl⟩
  | itemAdded | itemUpdated | itemDeleted | itemsReordered => exact .refl _

/-- Widgets stay bound while none come and the lists persist. -/
theorem Tables.Bound.of_persist (bound : tables.Bound) (constrained : tables.Constrained)
    (constrained' : next.Constrained) (persist : Persist tables.lists next.lists)
    (fewer : ∀ widget ∈ next.widgets, ∃ origin ∈ tables.widgets,
      origin.dashboardId = widget.dashboardId ∧ origin.resourceId = widget.resourceId) :
    next.Bound := by
  intro widget shown list binds
  obtain ⟨origin, shown', board, resource⟩ := fewer widget shown
  have on := bound origin shown' list (resource ▸ binds)
  obtain ⟨row, listed, rfl, here⟩ := constrained.dashboardOfList_eq_some.mp on
  obtain ⟨other, listed', named, same⟩ := persist row listed
  exact constrained'.dashboardOfList_eq_some.mpr
    ⟨other, listed', named, same.trans (here.trans board)⟩

/-- What a widget is bound to is a list of its dashboard. -/
theorem dashboardOfList_of_bindResource (constrained : tables.Constrained)
    (constrained' : next.Constrained) {caller : UserId} {name : String} {newList : ListId}
    {now : Time} {body : WidgetCreate} {resource : Option ListId}
    (ran : bindResource caller id name newList now tables body = .ok (resource, next)) :
    Persist tables.lists next.lists ∧ next.widgets = tables.widgets ∧
      ∀ list ∈ resource, next.dashboardOfList list = some id := by
  obtain ⟨rfl, rfl⟩ | ⟨list, listed, rfl, rfl, rfl⟩ | ⟨list, -, rfl, rfl, rfl⟩ :=
    bindResource_eq_ok ran
  · exact ⟨.refl _, rfl, fun _ none => by cases none⟩
  · refine ⟨.refl _, rfl, fun other same => ?_⟩
    cases same
    exact dashboardOfList_row constrained listed
  · refine ⟨fun row listed => ⟨row, List.mem_append_left _ listed, rfl, rfl⟩, rfl,
      fun other same => ?_⟩
    cases same
    exact dashboardOfList_row constrained' (List.mem_append_right _ List.mem_cons_self)

/-- A widget added keeps widgets bound within their dashboards. -/
theorem bound_of_addWidget (constrained : tables.Constrained) (constrained' : next.Constrained)
    (bound : tables.Bound) {caller : UserId} {body : WidgetCreate} {name config : String}
    {newWidget : Uuid} {newList : ListId} {now : Time}
    (ran : addWidget settings caller id body name config newWidget newList now tables =
      .ok (some next)) : next.Bound := by
  obtain ⟨row, _, resource, middle, _, -, rfl, binds, placed⟩ := addWidget_eq_ok ran
  have onBoard : OnBoard row.id tables middle := onBoard_bindResource constrained binds
  have between := onBoard.constrained constrained
  obtain ⟨persist, same, on⟩ := dashboardOfList_of_bindResource constrained between binds
  obtain ⟨box, rfl⟩ := placeWidget_eq_ok placed
  intro widget shown list binds
  rcases List.mem_append.mp shown with old | new
  · have kept := bound.of_persist constrained between persist fun widget shown =>
      ⟨widget, same ▸ shown, rfl, rfl⟩
    exact kept widget old list binds
  · cases List.mem_singleton.mp new
    exact on list binds

/-- **A request keeps the widgets bound.** -/
theorem bound_of_perform (constrained : tables.Constrained) (bound : tables.Bound)
    {request : Request}
    (performed : perform zoneInfo settings tables request = some (id, .ok (some next))) :
    next.Bound := by
  have constrained' := (footprint_of_perform constrained performed).constrained
  cases performs_of_perform performed with
  | @lists mutation _ lists _ _ carried =>
      refine bound.of_persist constrained constrained' (persist_carried constrained carried) ?_
      intro widget shown
      cases mutation with
      | deleteList role list now => exact ⟨widget, List.mem_of_mem_filter shown, rfl, rfl⟩
      | createList | updateListName | restoreList | reorderLists | addListItem | updateListItem
        | deleteListItem | reorderListItems => exact ⟨widget, shown, rfl, rfl⟩
  | calendar => exact bound
  | createDashboard ran =>
      obtain ⟨-, rfl⟩ := createDashboard_eq_ok ran
      exact bound
  | updateDashboardMeta ran =>
      obtain ⟨_, _, _, ⟨-, rfl⟩ | ⟨_, -, -, rfl⟩⟩ := updateDashboardMeta_eq_ok ran <;> exact bound
  | updateLayout ran =>
      obtain ⟨_, _, _, -, -, rfl⟩ := updateLayout_eq_ok ran
      exact bound
  | addWidget ran =>
      exact bound_of_addWidget constrained constrained' bound ran
  | updateWidget ran =>
      obtain ⟨_, _, _, -, rfl⟩ := updateWidget_eq_ok ran
      refine bound.of_persist constrained constrained' (.refl _) fun widget shown => ?_
      obtain ⟨origin, listed, rfl⟩ := List.mem_map.mp shown
      refine ⟨origin, listed, ?_⟩
      split_ifs <;> exact ⟨rfl, rfl⟩
  | deleteWidget ran =>
      obtain ⟨_, _, _, -, rfl⟩ := deleteWidget_eq_ok ran
      exact bound.of_persist constrained constrained' (.refl _) fun widget shown =>
        ⟨widget, List.mem_of_mem_filter shown, rfl, rfl⟩
  | deleteDashboard ran =>
      obtain ⟨_, -, rfl⟩ := deleteDashboard_eq_ok ran
      exact bound
  | restoreDashboard ran =>
      obtain ⟨-, rfl⟩ := restoreDashboard_eq_ok ran
      exact bound
  | acceptInvite ran =>
      obtain ⟨_, -, -, rfl⟩ := acceptInvite_eq_ok ran
      exact bound
  | updateDashboardShare ran =>
      obtain ⟨_, -, _, -, -, rfl⟩ := updateDashboardShare_eq_ok ran
      exact bound
  | deleteDashboardShare ran =>
      obtain ⟨_, -, _, -, -, rfl⟩ := deleteDashboardShare_eq_ok ran
      exact bound
  | leaveDashboard ran =>
      obtain ⟨_, _, _, -, _, -, -, rfl⟩ := leaveDashboard_eq_ok ran
      exact bound
  | transferDashboardOwnership ran =>
      obtain ⟨_, -, -, _, -, -, rfl⟩ := transferDashboardOwnership_eq_ok ran
      exact bound

/-! ## Commits -/

/-- What a commit on one dashboard leaves of the others: everything. -/
structure Apart (ids : List DashboardId) (before after : Tables) : Prop where
  boards : Elsewhere ids before after
  lists : ListsApart ids before.lists after.lists
  calendar : CalendarKept ids before.calendar after.calendar

/-- The deletion of a list leaves the boards of other dashboards alone. -/
theorem elsewhere_removeResourceWidgets (bound : tables.Bound) {list : ListId} (now : Time)
    (on : tables.dashboardOfList list = some id) (absent : id ∉ ids) :
    Elsewhere ids tables (tables.removeResourceWidgets list now) := by
  have spared : ∀ widget ∈ tables.widgets, widget.dashboardId ∈ ids →
      widget.resourceId ≠ some list := by
    intro widget shown member binds
    have here := bound widget shown list binds
    rw [on] at here
    exact absent (Option.some.inj here ▸ member)
  refine ⟨?_, fun other member => ?_, fun _ _ => rfl, fun _ _ _ => .rfl⟩
  · refine filter_map_of_beside (fun row _ chosen => ?_) fun row _ beside => ?_
    · have none : (tables.widgetsOf row.id).filter (fun widget =>
          widget.resourceId = some list) = [] := by
        refine List.filter_eq_nil_iff.mpr fun widget listed binds => ?_
        obtain ⟨shown, here⟩ := List.mem_filter.mp listed
        have here : widget.dashboardId = row.id := of_decide_eq_true here
        exact spared widget shown (here ▸ of_decide_eq_true chosen) (of_decide_eq_true binds)
      simp only [Tables.unboundRow, none, List.map_nil, if_true]
    · rw [unboundRow_id]
      exact beside
  · rw [Tables.widgetsOf, Tables.removeResourceWidgets, List.filter_filter, Tables.widgetsOf]
    refine List.filter_congr fun widget shown => ?_
    by_cases here : widget.dashboardId = other
    · simp [here, spared widget shown (here ▸ member)]
    · simp [here]

/-- **A commit leaves other dashboards alone.** -/
theorem apart_of_perform (constrained : tables.Constrained) (bound : tables.Bound)
    {request : Request}
    (performed : perform zoneInfo settings tables request = some (id, .ok (some next)))
    (absent : id ∉ ids) : Apart ids tables next := by
  obtain ⟨mutation, _, lists, rfl, rfl, on, carried⟩ |
      ⟨scheduled, calendar, rfl, rfl, on, handled⟩ | ⟨-, onBoard⟩ :=
    onBoard_of_perform constrained performed
  · have boards : Elsewhere ids tables (tables.unbound mutation) := by
      cases mutation with
      | deleteList role list now => exact elsewhere_removeResourceWidgets bound now on absent
      | createList | updateListName | restoreList | reorderLists | addListItem | updateListItem
        | deleteListItem | reorderListItems => exact .refl tables
    refine ⟨⟨boards.dashboards, boards.widgets, boards.shares, boards.favorites⟩,
      listsApart_carried constrained carried on absent, ?_⟩
    rw [unbound_calendar]
    exact .refl _
  · exact ⟨⟨rfl, fun _ _ => rfl, fun _ _ => rfl, fun _ _ _ => .rfl⟩, .refl _,
      calendarKept_handle constrained handled on absent⟩
  · exact ⟨onBoard.elsewhere ids absent, onBoard.apart ids absent, onBoard.calendar ▸ .refl _⟩

/-- What leaves a dashboard alone leaves who sees it. -/
theorem Apart.sees_alike (apart : Apart [id] before after) :
    before.Sees user id ↔ after.Sees user id := by
  have rows : ∀ row : Dashboard, row.id = id →
      (row ∈ after.dashboards ↔ row ∈ before.dashboards) := by
    intro row named
    have same := congrArg (row ∈ ·) apart.boards.dashboards
    simpa [named] using same
  have accessible : ∀ row : Dashboard, row.id = id →
      (after.Accessible user row ↔ before.Accessible user row) := by
    rintro row rfl
    rw [Tables.Accessible, Tables.Accessible, apart.boards.shares row.id List.mem_cons_self]
  refine sees_iff.trans (Iff.trans ?_ sees_iff.symm)
  constructor
  · rintro ⟨row, listed, seen, named⟩
    exact ⟨row, (rows row named).mpr listed, (accessible row named).mpr seen, named⟩
  · rintro ⟨row, listed, seen, named⟩
    exact ⟨row, (rows row named).mp listed, (accessible row named).mp seen, named⟩

/-- A request out of sight leaves the state looking alike. -/
theorem looksAlike_of_perform (constrained : tables.Constrained) (bound : tables.Bound)
    {request : Request}
    (performed : perform zoneInfo settings tables request = some (id, .ok (some next)))
    (unseen : ¬ tables.Sees user id) (unseen' : ¬ next.Sees user id) :
    LooksAlike user tables next := by
  have apart : Apart (next.listAccessibleDashboardIds user) tables next :=
    apart_of_perform constrained bound performed unseen'
  refine ⟨fun other => ?_, ?_, apart.boards.shares, fun other seen =>
    apart.boards.favorites other seen user, apart.lists, apart.calendar⟩
  · by_cases here : other = id
    · exact iff_of_false (here ▸ unseen) (here ▸ unseen')
    · refine (apart_of_perform constrained bound performed ?_).sees_alike
      exact fun member => here (List.mem_singleton.mp member).symm
  · rw [Tables.boards, Tables.boards, apart.boards.dashboards]
    refine List.map_congr_left fun row member => ?_
    rw [apart.boards.widgets row.id (of_decide_eq_true (List.mem_filter.mp member).2)]

/-! ## Histories -/

/-- No commit of a history is on a dashboard that the user sees before or after it. -/
def Unseen (zoneInfo : TimezoneName → Zone) (settings : Settings) (user : UserId) :
    List Commit → Tables → Prop
  | [], _ => True
  | first :: rest, tables => ∀ id outcome next,
      perform zoneInfo settings tables first.request = some (id, outcome) →
        commit zoneInfo settings tables first = some next →
          ¬ tables.Sees user id ∧ ¬ next.Sees user id ∧ Unseen zoneInfo settings user rest next

/-- What is answered is as it was after a history out of sight. -/
theorem fetch_eq_of_unseen (context : Context) (constrained : before.Constrained)
    (bound : before.Bound) {history : List Commit}
    (ran : replay zoneInfo settings history before = some after)
    (unseen : Unseen zoneInfo settings user history before) (resource : Resource) :
    resource.fetch context user before = resource.fetch context user after ∧
      after.Constrained := by
  induction history generalizing before with
  | nil =>
      cases ran
      exact ⟨rfl, constrained⟩
  | cons first rest ih =>
      obtain ⟨next, committed, continued⟩ := Option.bind_eq_some_iff.mp ran
      obtain ⟨_, _, _, footprint⟩ := footprint_of_commit constrained committed
      obtain ⟨-, on, made, performed, rfl⟩ := commit_eq_some committed
      obtain ⟨hidden, hidden', later⟩ := unseen on _ _ performed committed
      have bound' := bound_of_perform constrained bound performed
      obtain ⟨same, constrained'⟩ := ih footprint.constrained bound' continued later
      have alike := looksAlike_of_perform constrained bound performed hidden hidden'
      exact ⟨(LooksAlike.fetch_eq constrained footprint.constrained
        ⟨alike.sees, alike.boards, alike.shares, alike.favorites, alike.lists, alike.calendar⟩
        context resource).trans same, constrained'⟩

/-- **Answers are confined to what their user sees.** From a state that looks to a user like
another one, a history on dashboards that he does not see leads to the same answers. -/
theorem answers_are_confined (context : Context) (constrained : one.Constrained)
    (constrained' : before.Constrained) (bound : before.Bound)
    (alike : LooksAlike user one before) {history : List Commit}
    (ran : replay zoneInfo settings history before = some after)
    (unseen : Unseen zoneInfo settings user history before) (resource : Resource) :
    resource.fetch context user one = resource.fetch context user after :=
  (alike.fetch_eq constrained constrained' context resource).trans
    (fetch_eq_of_unseen context constrained' bound ran unseen resource).1

/-- A widget of the dashboard 2 that shows the list 9. -/
def stockWidget : Widget := ⟨⟨⟨List.replicate 32 0, rfl⟩, 2, .list, some 9⟩, "", 5, 5⟩

/-- A shared dashboard beside another one, which somebody else has made and shares with nobody. -/
def officeTables : Tables :=
  { sharedTables with
    dashboards := sharedTables.dashboards ++
      [⟨2, 3, "Office", [⟨⟨0, 0, 6, 6⟩, stockWidget.id.text⟩], 1, 5, 5, none⟩]
    widgets := [stockWidget]
    lists := ⟨[⟨9, 2, "Stock", .grocery, 0, 3, 5, 5, none⟩], fun _ => []⟩
    log := sharedTables.log ++ [⟨2, EntityType.dashboard.text, some 2⟩] }

/-- The list of the other dashboard is deleted, which takes the widget away. -/
def emptiedTables : Tables :=
  { officeTables with
    dashboards := sharedTables.dashboards ++ [⟨2, 3, "Office", [], 2, 5, 7, none⟩]
    widgets := []
    lists := ⟨[⟨9, 2, "Stock", .grocery, 0, 3, 5, 7, some 7⟩], fun _ => []⟩
    log := officeTables.log ++ [⟨3, EntityType.list.text, some 2⟩] }

/-- The tables below satisfy their constraints. -/
theorem constrained_officeTables : officeTables.Constrained :=
  ⟨by decide, ⟨List.nodup_singleton 9, fun _ => List.nodup_nil, fun _ _ _ member =>
    (List.not_mem_nil member).elim, fun _ _ => rfl⟩, List.nodup_nil⟩

def plainContext : Context := ⟨Calendar.utc, fun text => text, fun text => text, fun _ => "", 0⟩

/-- Whom the other dashboard is not shared with has the summaries and the board that he has
where there is no other, also when the list of the other has been deleted. -/
theorem strangers_dashboard_is_unseen :
    Resource.summaries.fetch plainContext 2 sharedTables =
        Resource.summaries.fetch plainContext 2 emptiedTables ∧
      (Resource.dashboard 1).fetch plainContext 2 sharedTables =
        (Resource.dashboard 1).fetch plainContext 2 emptiedTables := by
  have ran : replay Calendar.utc sharedSettings
      [⟨3, .lists (.deleteList ⟨.owner, fun _ => true⟩ 9 7)⟩] officeTables =
        some emptiedTables := rfl
  have bound : officeTables.Bound := by
    intro widget shown list bound
    cases List.mem_singleton.mp shown
    cases bound
    rfl
  have alike : LooksAlike 2 sharedTables officeTables := by
    have seen : officeTables.listAccessibleDashboardIds 2 = [1] := rfl
    refine ⟨fun _ => .rfl, rfl, fun _ _ => rfl, fun _ _ => .rfl, ⟨?_, fun _ _ _ _ => rfl⟩, .refl _⟩
    rw [seen]
    intro id member
    rw [List.mem_singleton.mp member]
    rfl
  have unseen : Unseen Calendar.utc sharedSettings 2
      [⟨3, .lists (.deleteList ⟨.owner, fun _ => true⟩ 9 7)⟩] officeTables := by
    intro id outcome next performed committed
    cases performed
    cases committed
    exact ⟨by decide, by decide, trivial⟩
  have answered := answers_are_confined plainContext constrained_sharedTables
    constrained_officeTables bound alike ran unseen
  exact ⟨answered .summaries, answered (.dashboard 1)⟩

end FrontDashboard.Resync
