import FrontDashboard.Resync.Kept
import FrontDashboard.Resync.Performed

/-! # What one commit writes

A request on a dashboard leaves the boards of all others alone, one on lists the lists of
all others, one on the calendar its events. Beside that, the deletion of a list takes its
widgets from boards, and lists are moved and added by requests that log the dashboard.
-/

namespace FrontDashboard.Resync

open Boards (LayoutUpdate WidgetCreate)
open FrontDashboard.Lists (ListId)
open FrontDashboard.Membership (ResourceShare ShareRole)

variable {ids : List DashboardId} {id : DashboardId} {tables before middle after next : Tables}

/-! ## Rows beside those that change -/

/-- Rows that are not chosen may change as long as they are not chosen afterwards. -/
theorem filter_map_of_beside {α : Type} {chosen : α → Bool} {change : α → α} {rows : List α}
    (same : ∀ row ∈ rows, chosen row = true → change row = row)
    (beside : ∀ row ∈ rows, chosen row = false → chosen (change row) = false) :
    (rows.map change).filter chosen = rows.filter chosen := by
  have choices : ∀ row ∈ rows, (chosen ∘ change) row = chosen row := by
    intro row member
    cases picked : chosen row with
    | true => rw [Function.comp_apply, same row member picked, picked]
    | false => exact beside row member picked
  rw [List.filter_map, List.filter_congr choices]
  refine (List.map_congr_left fun row member => ?_).trans (List.map_id' _)
  exact same row (List.mem_of_mem_filter member) (List.of_mem_filter member)

/-- What a request on one dashboard leaves of the others. -/
structure Elsewhere (ids : List DashboardId) (before after : Tables) : Prop where
  dashboards : after.dashboards.filter (fun row => row.id ∈ ids) =
    before.dashboards.filter fun row => row.id ∈ ids
  widgets : ∀ id ∈ ids, after.widgetsOf id = before.widgetsOf id
  shares : ∀ id ∈ ids, after.shares id = before.shares id
  favorites : ∀ id ∈ ids, ∀ user, id ∈ after.favorites user ↔ id ∈ before.favorites user

namespace Elsewhere

/-- Nothing changes. -/
theorem refl (tables : Tables) : Elsewhere ids tables tables :=
  ⟨rfl, fun _ _ => rfl, fun _ _ => rfl, fun _ _ _ => .rfl⟩

/-- What is elsewhere twice is elsewhere. -/
theorem trans (first : Elsewhere ids before middle) (second : Elsewhere ids middle after) :
    Elsewhere ids before after where
  dashboards := second.dashboards.trans first.dashboards
  widgets := fun id member => (second.widgets id member).trans (first.widgets id member)
  shares := fun id member => (second.shares id member).trans (first.shares id member)
  favorites := fun id member user =>
    (second.favorites id member user).trans (first.favorites id member user)

/-- Boards that are elsewhere are kept. -/
theorem boardsKept (elsewhere : Elsewhere ids before after) : BoardsKept ids before after where
  boards := by
    refine ⟨fun board => board, fun board _ => .refl board, ?_⟩
    rw [List.map_id', Tables.boards, elsewhere.dashboards]
    refine List.map_congr_left fun row member => ?_
    rw [elsewhere.widgets row.id (of_decide_eq_true (List.mem_filter.mp member).2)]
  shares := elsewhere.shares
  favorites := elsewhere.favorites

variable (absent : id ∉ ids)
include absent

/-- A change of one row is elsewhere to the others. -/
theorem setDashboard {now : Time} {change : Dashboard → Dashboard}
    (named : ∀ row, (change row).id = row.id) :
    Elsewhere ids tables (tables.setDashboard id now change) where
  dashboards := by
    refine filter_map_of_beside (fun row _ chosen => ?_) fun row _ beside => ?_
    · rw [if_neg]
      rintro rfl
      exact absent (of_decide_eq_true chosen)
    · split_ifs with here
      · rw [Dashboard.saved]
        split_ifs
        · exact beside
        · exact decide_eq_false (named row ▸ here ▸ absent)
      · exact beside
  widgets := fun _ _ => rfl
  shares := fun _ _ => rfl
  favorites := fun _ _ _ => .rfl

theorem setShares {shares : List ResourceShare} :
    Elsewhere ids tables (tables.setShares id shares) where
  dashboards := rfl
  widgets := fun _ _ => rfl
  shares := fun _ member => Function.update_of_ne (ne_of_mem_of_not_mem member absent) _ _
  favorites := fun _ _ _ => .rfl

theorem forget {users : List UserId} : Elsewhere ids tables (tables.forget users id) where
  dashboards := rfl
  widgets := fun _ _ => rfl
  shares := fun _ _ => rfl
  favorites := by
    intro other member user
    simp only [Tables.forget]
    split_ifs
    · simp [ne_of_mem_of_not_mem member absent]
    · rfl

/-- Widgets of the one dashboard come, go or change. -/
theorem setWidgets {widgets : List Widget}
    (same : ∀ other, other ≠ id → widgets.filter (fun widget => widget.dashboardId = other) =
      tables.widgetsOf other) : Elsewhere ids tables { tables with widgets := widgets } where
  dashboards := rfl
  widgets := fun other member => same other (ne_of_mem_of_not_mem member absent)
  shares := fun _ _ => rfl
  favorites := fun _ _ _ => .rfl

end Elsewhere

/-! ## Requests on dashboards -/

/-- What a request on a dashboard does: nothing on the boards of others, to lists only that a
new one may come, and nothing to the calendar. -/
structure OnBoard (id : DashboardId) (before after : Tables) : Prop where
  elsewhere : ∀ ids, id ∉ ids → Elsewhere ids before after
  lists : ∀ ids, ListsKept ids before.lists after.lists
  apart : ∀ ids, id ∉ ids → ListsApart ids before.lists after.lists
  calendar : after.calendar = before.calendar
  ids : before.dashboards.map Dashboard.id ⊆ after.dashboards.map Dashboard.id
  constrained : before.Constrained → after.Constrained

namespace OnBoard

/-- What is elsewhere to all others is on the board. -/
theorem of_elsewhere (elsewhere : ∀ ids, id ∉ ids → Elsewhere ids before after)
    (named : after.dashboards.map Dashboard.id = before.dashboards.map Dashboard.id)
    (lists : after.lists = before.lists) (calendar : after.calendar = before.calendar) :
    OnBoard id before after where
  elsewhere := elsewhere
  lists := fun _ => lists ▸ .refl _
  apart := fun _ _ => lists ▸ .refl _
  calendar := calendar
  ids := named ▸ List.Subset.refl _
  constrained := fun constrained =>
    ⟨named ▸ constrained.dashboards, lists ▸ constrained.lists, calendar ▸ constrained.events⟩

/-- Nothing changes. -/
theorem refl (tables : Tables) : OnBoard id tables tables :=
  of_elsewhere (fun _ _ => .refl _) rfl rfl rfl

/-- What is on the board twice is on it. -/
theorem trans (first : OnBoard id before middle) (second : OnBoard id middle after) :
    OnBoard id before after :=
  ⟨fun ids absent => (first.elsewhere ids absent).trans (second.elsewhere ids absent),
    fun ids => (first.lists ids).trans (second.lists ids),
    fun ids absent => (first.apart ids absent).trans (second.apart ids absent),
    second.calendar.trans first.calendar, fun _ member => second.ids (first.ids member),
    fun start => second.constrained (first.constrained start)⟩

/-- A change of the row of the dashboard is on the board. -/
theorem setDashboard {now : Time} {change : Dashboard → Dashboard}
    (named : ∀ row, (change row).id = row.id) :
    OnBoard id tables (tables.setDashboard id now change) := by
  refine of_elsewhere (fun _ absent => .setDashboard absent named) ?_ rfl rfl
  rw [Tables.setDashboard, List.map_map]
  refine List.map_congr_left fun row _ => ?_
  rw [Function.comp_apply]
  split_ifs
  · rw [Dashboard.saved]
    split_ifs
    · rfl
    · exact named row
  · rfl

theorem setShares {shares : List ResourceShare} :
    OnBoard id tables (tables.setShares id shares) :=
  of_elsewhere (fun _ absent => .setShares absent) rfl rfl rfl

theorem forget {users : List UserId} : OnBoard id tables (tables.forget users id) :=
  of_elsewhere (fun _ absent => .forget absent) rfl rfl rfl

theorem setWidgets {widgets : List Widget}
    (same : ∀ other, other ≠ id → widgets.filter (fun widget => widget.dashboardId = other) =
      tables.widgetsOf other) : OnBoard id tables { tables with widgets := widgets } :=
  of_elsewhere (fun _ absent => .setWidgets absent same) rfl rfl rfl

end OnBoard

/-- A new list leaves the keys unique. -/
theorem wellFormed_append {tables : Lists.Page.Tables} (wellFormed : tables.WellFormed)
    {row : Lists.Page.ListRow} (fresh : row.id ∉ tables.lists.map (·.id)) :
    ({ tables with lists := tables.lists ++ [row] } : Lists.Page.Tables).WellFormed := by
  refine ⟨?_, wellFormed.itemsUnique, wellFormed.itemsApart, fun listId absent =>
    wellFormed.orphanless listId ?_⟩
  · rw [List.map_append, List.map_singleton]
    exact List.nodup_append_comm.mp (List.nodup_cons.mpr ⟨fresh, wellFormed.unique⟩)
  · intro member
    rw [List.map_append, List.mem_append, not_or] at absent
    exact absent.1 member

/-- A list is added to those of a dashboard. -/
theorem ListsKept.append {tables : Lists.Page.Tables} {row : Lists.Page.ListRow}
    (empty : tables.items row.id = []) :
    ListsKept ids tables { tables with lists := tables.lists ++ [row] } where
  live := by
    intro id _
    refine ⟨fun row => (row.sortOrder, row.updatedAt),
      [row].filter fun row => row.dashboardId = id ∧ row.deletedAt = none, ?_, ?_⟩
    · rw [Lists.Page.Tables.live, List.filter_append]
      congr 1
      exact (List.map_id' _).symm
    · intro other member
      rw [List.mem_singleton.mp (List.mem_of_mem_filter member)]
      exact empty
  items := fun _ _ _ _ => rfl

/-- A list is added to those of another dashboard. -/
theorem ListsApart.append {tables : Lists.Page.Tables} {row : Lists.Page.ListRow}
    (absent : row.dashboardId ∉ ids) :
    ListsApart ids tables { tables with lists := tables.lists ++ [row] } where
  live := by
    intro id member
    have elsewhere : ¬ (row.dashboardId = id ∧ row.deletedAt = none) := fun here =>
      absent (here.1 ▸ member)
    rw [Lists.Page.Tables.live, List.filter_append, List.filter_singleton,
      decide_eq_false elsewhere]
    exact List.append_nil _
  items := fun _ _ _ _ => rfl

/-- What a request does to a dashboard it does on its board. -/
theorem onBoard_createDashboard {settings : Settings} {caller : UserId} {name : String} {now : Time}
    (ran : createDashboard settings caller id name now tables = .ok (some next)) :
    OnBoard id tables next := by
  obtain ⟨fresh, rfl⟩ := createDashboard_eq_ok ran
  refine ⟨fun ids absent => ⟨?_, fun _ _ => rfl, fun _ _ => rfl, fun _ _ _ => .rfl⟩,
    fun _ => .refl _, fun _ _ => .refl _, rfl, ?_, fun constrained =>
      ⟨?_, constrained.lists, constrained.events⟩⟩
  · rw [List.filter_append, List.filter_singleton, decide_eq_false absent]
    exact List.append_nil _
  · rw [List.map_append]
    exact List.subset_append_left _ _
  · rw [List.map_append, List.map_singleton]
    exact List.nodup_append_comm.mp (List.nodup_cons.mpr ⟨fresh, constrained.dashboards⟩)

theorem onBoard_updateDashboardMeta {caller : UserId} {name : Option String} {now : Time}
    (ran : updateDashboardMeta caller id name now tables = .ok (some next)) :
    OnBoard id tables next := by
  obtain ⟨_, _, _, ⟨-, rfl⟩ | ⟨_, -, -, rfl⟩⟩ := updateDashboardMeta_eq_ok ran
  · exact .refl _
  · exact .setDashboard fun _ => rfl

theorem onBoard_updateLayout {caller : UserId} {body : LayoutUpdate} {now : Time}
    (ran : updateLayout caller id body now tables = .ok (some next)) :
    OnBoard id tables next := by
  obtain ⟨_, _, _, -, -, rfl⟩ := updateLayout_eq_ok ran
  exact .setDashboard fun _ => rfl

/-- A list for a widget is on the board. -/
theorem onBoard_bindResource (constrained : tables.Constrained) {caller : UserId} {name : String}
    {newList : ListId} {now : Time} {body : WidgetCreate} {resource : Option ListId}
    (ran : bindResource caller id name newList now tables body = .ok (resource, next)) :
    OnBoard id tables next := by
  obtain ⟨-, rfl⟩ | ⟨_, -, -, -, rfl⟩ | ⟨list, fresh, rfl, -, rfl⟩ := bindResource_eq_ok ran
  · exact .refl _
  · exact .refl _
  · exact ⟨fun _ _ => ⟨rfl, fun _ _ => rfl, fun _ _ => rfl, fun _ _ _ => .rfl⟩,
      fun _ => .append (constrained.lists.orphanless list.id fresh), fun _ => .append, rfl,
        List.Subset.refl _,
      fun _ =>
        ⟨constrained.dashboards, wellFormed_append constrained.lists fresh, constrained.events⟩⟩

/-- The place of a widget is on the board. -/
theorem onBoard_placeWidget {row : Dashboard} {body : WidgetCreate} {config : String}
    {newWidget : Uuid} {now : Time} {resource : Option ListId}
    (ran : placeWidget row body config newWidget now resource tables = .ok (some next)) :
    OnBoard row.id tables next := by
  obtain ⟨box, rfl⟩ := placeWidget_eq_ok ran
  refine .trans (.setDashboard ?_) (.setWidgets fun other different => ?_)
  · exact fun _ => rfl
  · rw [List.filter_append, List.filter_singleton, decide_eq_false (Ne.symm different)]
    exact List.append_nil _

/-- A widget is added on the board. -/
theorem onBoard_addWidget (constrained : tables.Constrained) {settings : Settings} {caller : UserId}
    {body : WidgetCreate} {name config : String} {newWidget : Uuid} {newList : ListId} {now : Time}
    (ran : addWidget settings caller id body name config newWidget newList now tables =
      .ok (some next)) : OnBoard id tables next := by
  obtain ⟨_, _, _, _, _, -, rfl, bound, placed⟩ := addWidget_eq_ok ran
  exact (onBoard_bindResource constrained bound).trans (onBoard_placeWidget placed)

/-- A widget is changed on the board. -/
theorem onBoard_updateWidget {caller : UserId} {widget : Uuid} {config : String} {now : Time}
    (ran : updateWidget caller id widget config now tables = .ok (some next)) :
    OnBoard id tables next := by
  obtain ⟨_, _, _, -, rfl⟩ := updateWidget_eq_ok ran
  refine .setWidgets fun other different => filter_map_of_beside (fun widget _ chosen => ?_)
    fun widget _ beside => ?_
  · rw [if_neg]
    rintro ⟨here, -, -⟩
    exact different (here ▸ (of_decide_eq_true chosen).symm)
  · split_ifs
    · exact beside
    · exact beside

/-- A widget is deleted on the board. -/
theorem onBoard_deleteWidget {caller : UserId} {widget : Uuid} {now : Time}
    (ran : deleteWidget caller id widget now tables = .ok (some next)) :
    OnBoard id tables next := by
  obtain ⟨_, _, _, -, rfl⟩ := deleteWidget_eq_ok ran
  refine .trans (.setDashboard ?_) (.setWidgets fun other different => ?_)
  · exact fun _ => rfl
  · refine (List.filter_filter).trans (List.filter_congr fun widget _ => ?_)
    by_cases here : widget.dashboardId = other
    · simp [here, different]
    · simp [here]

/-- A dashboard is trashed on its own board. -/
theorem onBoard_deleteDashboard {caller : UserId} {now : Time}
    (ran : deleteDashboard caller id now tables = .ok (some next)) : OnBoard id tables next := by
  obtain ⟨_, -, rfl⟩ := deleteDashboard_eq_ok ran
  refine .trans (.setDashboard ?_) .forget
  exact fun _ => rfl

/-- A dashboard is restored on its own board. -/
theorem onBoard_restoreDashboard {caller : UserId} {now : Time}
    (ran : restoreDashboard caller id now tables = .ok (some next)) : OnBoard id tables next := by
  obtain ⟨-, rfl⟩ := restoreDashboard_eq_ok ran
  exact .setDashboard fun _ => rfl

/-- An invite is accepted on the board. -/
theorem onBoard_acceptInvite {caller invitedBy : UserId} {role : ShareRole} {newShare : Nat}
    (ran : acceptInvite caller id role invitedBy newShare tables = .ok (some next)) :
    OnBoard id tables next := by
  obtain ⟨_, -, -, rfl⟩ := acceptInvite_eq_ok ran
  exact .setShares

theorem onBoard_updateDashboardShare {caller : UserId} {share : Nat} {role : ShareRole}
    (ran : updateDashboardShare caller id share role tables = .ok (some next)) :
    OnBoard id tables next := by
  obtain ⟨_, -, _, -, -, rfl⟩ := updateDashboardShare_eq_ok ran
  exact .setShares

theorem onBoard_deleteDashboardShare {caller : UserId} {share : Nat}
    (ran : deleteDashboardShare caller id share tables = .ok (some next)) :
    OnBoard id tables next := by
  obtain ⟨_, -, _, -, -, rfl⟩ := deleteDashboardShare_eq_ok ran
  exact OnBoard.trans .forget .setShares

theorem onBoard_leaveDashboard {caller : UserId}
    (ran : leaveDashboard caller id tables = .ok (some next)) : OnBoard id tables next := by
  obtain ⟨_, _, _, -, _, -, -, rfl⟩ := leaveDashboard_eq_ok ran
  exact OnBoard.trans .forget .setShares

theorem onBoard_transferDashboardOwnership {caller user : UserId} {newShare : Nat} {now : Time}
    (ran : transferDashboardOwnership caller id user newShare now tables = .ok (some next)) :
    OnBoard id tables next := by
  obtain ⟨_, -, -, _, -, -, rfl⟩ := transferDashboardOwnership_eq_ok ran
  refine .trans (.setDashboard ?_) (.trans .setShares .setShares)
  exact fun _ => rfl

end FrontDashboard.Resync
