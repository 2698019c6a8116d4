import FrontDashboard.Boards.Routes
import FrontDashboard.Library.KeyedRows
import Mathlib.Data.List.Perm.Basic

/-! # Layouts, widgets and lists in step

What holds of the tables between requests, and what each write does to it. Between the
writes of one request the layout of a dashboard may be out of step with its widgets.
-/

namespace FrontDashboard.Boards

open ReadCommitted

namespace Tables

/-- The texts of the ids of a dashboard's widgets. -/
def texts (tables : Tables) (id : DashboardId) : List String :=
  (tables.widgetsOf id).map fun widget => widget.id.text

/-- The tables without some widgets. -/
def withoutWidgets (tables : Tables) (ids : List Uuid) : Tables :=
  { tables with widgets := tables.widgets.filter fun widget => widget.id ∉ ids }

/-- A dashboard is found by its id. -/
theorem dashboard?_eq_some {tables : Tables} (unique : (tables.dashboards.map (·.id)).Nodup)
    {id : DashboardId} {dashboard : Dashboard} :
    tables.dashboard? id = some dashboard ↔ dashboard ∈ tables.dashboards ∧ dashboard.id = id := by
  simpa [dashboard?] using
    KeyedRows.find?_eq_some_iff unique fun other named => of_decide_eq_true named

theorem dashboard?_isSome {tables : Tables} {id : DashboardId} :
    (tables.dashboard? id).isSome = true ↔ id ∈ tables.dashboards.map (·.id) := by
  simp [dashboard?]

theorem id_of_dashboard? (tables : Tables) {id : DashboardId} {dashboard : Dashboard}
    (found : tables.dashboard? id = some dashboard) : dashboard.id = id :=
  of_decide_eq_true (List.find?_some (p := fun row : Dashboard => row.id = id) found)

/-- A layout is stored in a row that is there. -/
theorem ids_setLayout (tables : Tables) (id : DashboardId) (layout : Option Layout)
    (version : Int) :
    (tables.setLayout id layout version).dashboards.map (·.id) =
      tables.dashboards.map (·.id) := by
  rw [setLayout, List.map_map]
  apply List.map_congr_left
  intro dashboard _
  dsimp only [Function.comp]
  split_ifs <;> rfl

/-- A layout that is stored touches no other dashboard. -/
theorem dashboard?_setLayout (tables : Tables) {id other : DashboardId} (different : other ≠ id)
    (layout : Option Layout) (version : Int) :
    (tables.setLayout id layout version).dashboard? other = tables.dashboard? other := by
  have unchanged : ∀ dashboards : List Dashboard, (dashboards.map fun dashboard =>
      if dashboard.id = id then
        { dashboard with layout := layout.getD dashboard.layout, version := version }
      else dashboard).find? (fun dashboard => dashboard.id = other) =
        dashboards.find? fun dashboard => dashboard.id = other := by
    intro dashboards
    induction dashboards with
    | nil => rfl
    | cons first rest ih =>
        rw [List.map_cons, List.find?_cons, List.find?_cons]
        by_cases own : first.id = id
        · have elsewhere : ¬ first.id = other := fun same => different (same.symm.trans own)
          simp only [own, if_true, Ne.symm different, decide_false, ih]
        · simp only [own, if_false, ih]
  exact unchanged tables.dashboards

/-- Widgets are deleted one by one, or all at once. -/
theorem performAll_deleteWidgets (tables : Tables) (ids : List Uuid) :
    performAll perform tables (ids.map .deleteWidget) = tables.withoutWidgets ids := by
  induction ids generalizing tables with
  | nil => simp [withoutWidgets]
  | cons id rest ih =>
      rw [List.map_cons, performAll_cons, ih]
      simp only [perform, withoutWidgets, List.filter_filter, List.mem_cons, not_or]
      congr 2
      funext widget
      simp [Bool.and_comm]

/-- A trashed list is still a row. -/
theorem ids_trashList (tables : Tables) (list : ListId) (moment : Int) :
    (tables.perform (.trashList list moment)).lists.map (·.id) = tables.lists.map (·.id) := by
  rw [perform, List.map_map]
  apply List.map_congr_left
  intro row _
  dsimp only [Function.comp]
  split_ifs <;> rfl

/-- The widgets of another dashboard stay. -/
theorem widgetsOf_withoutWidgets {tables : Tables} {ids : List Uuid} {id other : DashboardId}
    (different : other ≠ id)
    (own : ∀ widget ∈ tables.widgets, widget.id ∈ ids → widget.dashboardId = id) :
    (tables.withoutWidgets ids).widgetsOf other = tables.widgetsOf other := by
  rw [widgetsOf, withoutWidgets, List.filter_filter]
  apply List.filter_congr
  intro widget present
  by_cases here : widget.dashboardId = other
  · have kept : widget.id ∉ ids := fun removed =>
      different (here.symm.trans (own widget present removed))
    simp [here, kept]
  · simp [here]

/-- Widgets are told apart by the texts of their ids. -/
theorem texts_withoutWidgets (tables : Tables) (ids : List Uuid) (id : DashboardId) :
    (tables.withoutWidgets ids).texts id =
      (tables.texts id).filter fun text => text ∉ ids.map Uuid.text := by
  rw [texts, texts, List.filter_map]
  congr 1
  simp only [widgetsOf, withoutWidgets, List.filter_filter]
  apply List.filter_congr
  intro widget _
  have named : widget.id.text ∈ ids.map Uuid.text ↔ widget.id ∈ ids :=
    List.mem_map_of_injective Uuid.text_injective
  simp [Function.comp, named, Bool.and_comm]

end Tables

/-- The layout that is stored is the old one without the removed widgets. -/
theorem getD_changedLayout (layout : Layout) (removed : List String) :
    (changedLayout layout removed).getD layout = layout.filter fun item => item.i ∉ removed := by
  rw [changedLayout]
  split_ifs with same
  · exact same.symm
  · rfl

/-- The tables are in step, but for the layout of one dashboard. -/
structure SoundBut (loose : Option DashboardId) (tables : Tables) : Prop where
  dashboardIds : (tables.dashboards.map (·.id)).Nodup
  widgetIds : (tables.widgets.map (·.id)).Nodup
  listIds : (tables.lists.map (·.id)).Nodup
  drawn : ∀ widget ∈ tables.widgets, widget.id ∈ tables.drawn
  homes : ∀ widget ∈ tables.widgets, (tables.dashboard? widget.dashboardId).isSome = true
  seated : ∀ dashboard ∈ tables.dashboards, some dashboard.id ≠ loose →
    (dashboard.layout.map (·.i)).Perm (tables.texts dashboard.id)
  bound : ∀ widget ∈ tables.widgets, ∀ list ∈ widget.resourceId, ∃ row ∈ tables.lists,
    row.id = list ∧ row.dashboardId = widget.dashboardId ∧ row.deletedAt = none
  listed : ∀ widget ∈ tables.widgets, widget.widgetType = .list → widget.resourceId.isSome = true

abbrev Sound : Tables → Prop := SoundBut none

namespace SoundBut

variable {loose : Option DashboardId} {tables : Tables} {id : DashboardId}

/-- Sound tables are sound but for any one dashboard. -/
theorem loosen (sound : Sound tables) (id : DashboardId) : SoundBut (some id) tables :=
  { sound with seated := fun dashboard present _ => sound.seated dashboard present nofun }

/-- Tables are sound again once the layout of the one dashboard is in step. -/
theorem settle (sound : SoundBut (some id) tables)
    (inStep : ∀ dashboard ∈ tables.dashboards, dashboard.id = id →
      (dashboard.layout.map (·.i)).Perm (tables.texts id)) : Sound tables where
  dashboardIds := sound.dashboardIds
  widgetIds := sound.widgetIds
  listIds := sound.listIds
  drawn := sound.drawn
  homes := sound.homes
  bound := sound.bound
  listed := sound.listed
  seated := by
    intro dashboard present _
    by_cases own : dashboard.id = id
    · rw [own]
      exact inStep dashboard present own
    · exact sound.seated dashboard present fun same => own (Option.some.inj same)

/-- Each write leaves sound what it does not touch. -/
theorem setLayout (sound : SoundBut (some id) tables) (layout : Option Layout) (version : Int) :
    SoundBut (some id) (tables.setLayout id layout version) where
  dashboardIds := by
    rw [Tables.ids_setLayout]
    exact sound.dashboardIds
  widgetIds := sound.widgetIds
  listIds := sound.listIds
  drawn := sound.drawn
  homes := by
    intro widget present
    rw [Tables.dashboard?_isSome, Tables.ids_setLayout, ← Tables.dashboard?_isSome]
    exact sound.homes widget present
  bound := sound.bound
  listed := sound.listed
  seated := by
    intro dashboard present other
    obtain ⟨old, inTables, rfl⟩ := List.mem_map.mp present
    by_cases own : old.id = id
    · rw [if_pos own] at other
      exact absurd (congrArg some own) other
    · rw [if_neg own] at other ⊢
      exact sound.seated old inTables other

theorem insertDashboard (sound : Sound tables) (new : tables.dashboard? id = none)
    (userId : UserId) : Sound (tables.perform (.insertDashboard id userId)) where
  dashboardIds := by
    have fresh : id ∉ tables.dashboards.map (·.id) := by
      rw [← Tables.dashboard?_isSome, new]
      simp
    rw [Tables.perform, List.map_append, List.map_singleton, ← List.concat_eq_append]
    exact List.Nodup.concat fresh sound.dashboardIds
  widgetIds := sound.widgetIds
  listIds := sound.listIds
  drawn := sound.drawn
  homes := by
    intro widget present
    have home := sound.homes widget present
    rw [Tables.dashboard?_isSome] at home ⊢
    rw [Tables.perform, List.map_append]
    exact List.mem_append_left _ home
  bound := sound.bound
  listed := sound.listed
  seated := by
    intro dashboard present other
    rcases List.mem_append.mp present with old | added
    · exact sound.seated dashboard old other
    · rw [List.mem_singleton.mp added]
      have none_ : tables.widgetsOf id = [] := by
        rw [Tables.widgetsOf, List.filter_eq_nil_iff]
        intro widget inTables
        have home := sound.homes widget inTables
        intro own
        rw [of_decide_eq_true own, new] at home
        cases home
      change ([] : List String).Perm ((tables.widgetsOf id).map _)
      rw [none_]
      exact .nil

theorem insertList (sound : SoundBut loose tables) {list : ListRow}
    (fresh : list.id ∉ tables.lists.map (·.id)) :
    SoundBut loose (tables.perform (.insertList list)) where
  dashboardIds := sound.dashboardIds
  widgetIds := sound.widgetIds
  listIds := by
    rw [Tables.perform, List.map_append, List.map_singleton, ← List.concat_eq_append]
    exact List.Nodup.concat fresh sound.listIds
  drawn := sound.drawn
  homes := sound.homes
  seated := sound.seated
  bound := by
    intro widget present list named
    obtain ⟨row, inLists, facts⟩ := sound.bound widget present list named
    exact ⟨row, List.mem_append_left _ inLists, facts⟩
  listed := sound.listed

theorem trashList (sound : SoundBut loose tables) {list : ListId}
    (unbound : ∀ widget ∈ tables.widgets, widget.resourceId ≠ some list) (moment : Int) :
    SoundBut loose (tables.perform (.trashList list moment)) where
  dashboardIds := sound.dashboardIds
  widgetIds := sound.widgetIds
  listIds := by
    rw [Tables.ids_trashList]
    exact sound.listIds
  drawn := sound.drawn
  homes := sound.homes
  seated := sound.seated
  bound := by
    intro widget present other named
    obtain ⟨row, inLists, sameId, facts⟩ := sound.bound widget present other named
    have different : row.id ≠ list := by
      intro same
      rw [Option.mem_def, ← sameId, same] at named
      exact unbound widget present named
    exact ⟨row, List.mem_map.mpr ⟨row, inLists, if_neg different⟩, sameId, facts⟩
  listed := sound.listed

theorem insertWidget {widget : DashboardWidget} (sound : SoundBut (some widget.dashboardId) tables)
    (new : widget.id ∉ tables.drawn)
    (home : (tables.dashboard? widget.dashboardId).isSome = true)
    (live : ∀ list ∈ widget.resourceId, ∃ row ∈ tables.lists,
      row.id = list ∧ row.dashboardId = widget.dashboardId ∧ row.deletedAt = none)
    (lists : widget.widgetType = .list → widget.resourceId.isSome = true) :
    SoundBut (some widget.dashboardId) (tables.perform (.insertWidget widget)) where
  dashboardIds := sound.dashboardIds
  widgetIds := by
    have fresh : widget.id ∉ tables.widgets.map (·.id) := by
      intro taken
      obtain ⟨other, present, same⟩ := List.mem_map.mp taken
      rw [← same] at new
      exact new (sound.drawn other present)
    rw [Tables.perform, List.map_append, List.map_singleton, ← List.concat_eq_append]
    exact List.Nodup.concat fresh sound.widgetIds
  listIds := sound.listIds
  drawn := by
    intro other present
    rcases List.mem_append.mp present with old | added
    · exact List.mem_cons_of_mem _ (sound.drawn other old)
    · rw [List.mem_singleton.mp added]
      exact List.mem_cons_self
  homes := by
    intro other present
    rcases List.mem_append.mp present with old | added
    · exact sound.homes other old
    · rw [List.mem_singleton.mp added]
      exact home
  seated := by
    intro dashboard present other
    have elsewhere : ¬ widget.dashboardId = dashboard.id := fun same => other (by rw [same])
    have unchanged : (tables.perform (.insertWidget widget)).widgetsOf dashboard.id =
        tables.widgetsOf dashboard.id := by
      simp [Tables.widgetsOf, Tables.perform, List.filter_append, elsewhere]
    rw [Tables.texts, unchanged]
    exact sound.seated dashboard present other
  bound := by
    intro other present
    rcases List.mem_append.mp present with old | added
    · exact sound.bound other old
    · rw [List.mem_singleton.mp added]
      exact live
  listed := by
    intro other present
    rcases List.mem_append.mp present with old | added
    · exact sound.listed other old
    · rw [List.mem_singleton.mp added]
      exact lists

theorem withoutWidgets (sound : SoundBut (some id) tables) {ids : List Uuid}
    (own : ∀ widget ∈ tables.widgets, widget.id ∈ ids → widget.dashboardId = id) :
    SoundBut (some id) (tables.withoutWidgets ids) where
  dashboardIds := sound.dashboardIds
  widgetIds := sound.widgetIds.sublist (List.filter_sublist.map _)
  listIds := sound.listIds
  drawn := fun widget present => sound.drawn widget (List.mem_filter.mp present).1
  homes := fun widget present => sound.homes widget (List.mem_filter.mp present).1
  seated := by
    intro dashboard present other
    have elsewhere : dashboard.id ≠ id := fun same => other (congrArg some same)
    rw [Tables.texts, Tables.widgetsOf_withoutWidgets elsewhere own]
    exact sound.seated dashboard present other
  bound := fun widget present => sound.bound widget (List.mem_filter.mp present).1
  listed := fun widget present => sound.listed widget (List.mem_filter.mp present).1

end SoundBut

/-! ## Whole edits -/

namespace Sound

variable {tables : Tables} {id : DashboardId}

/-- A layout that names the dashboard's widgets is stored. -/
theorem saveLayout (sound : Sound tables) {layout : Layout}
    (names : (layout.map (·.i)).Perm (tables.texts id)) (version : Int) :
    Sound (tables.setLayout id (some layout) version) := by
  apply ((SoundBut.loosen sound id).setLayout (some layout) version).settle
  intro dashboard present own
  obtain ⟨old, -, rfl⟩ := List.mem_map.mp present
  split_ifs at own ⊢ with same
  · exact names
  · exact absurd own same

/-- A widget added together with its seat keeps the tables sound. -/
theorem seatWidget (sound : Sound tables) {dashboard : Dashboard}
    (found : tables.dashboard? dashboard.id = some dashboard) {widget : DashboardWidget}
    (home : widget.dashboardId = dashboard.id) (new : widget.id ∉ tables.drawn)
    (live : ∀ list ∈ widget.resourceId, ∃ row ∈ tables.lists,
      row.id = list ∧ row.dashboardId = widget.dashboardId ∧ row.deletedAt = none)
    (lists : widget.widgetType = .list → widget.resourceId.isSome = true) (box : Box)
    (version : Int) :
    Sound ((tables.perform (.insertWidget widget)).setLayout dashboard.id
      (some (dashboard.layout ++ [⟨box, widget.id.text⟩])) version) := by
  have there : (tables.dashboard? widget.dashboardId).isSome = true := by
    rw [home, found]
    rfl
  have inserted := (SoundBut.loosen sound widget.dashboardId).insertWidget new there live lists
  rw [home] at inserted
  apply (inserted.setLayout _ version).settle
  intro row present own
  obtain ⟨old, inTables, rfl⟩ := List.mem_map.mp present
  split_ifs at own ⊢ with same
  · have texts : (tables.perform (.insertWidget widget)).texts dashboard.id =
        tables.texts dashboard.id ++ [widget.id.text] := by
      simp [Tables.texts, Tables.widgetsOf, Tables.perform, home]
    change ((dashboard.layout ++ [(⟨box, widget.id.text⟩ : LayoutItem)]).map (·.i)).Perm
      ((tables.perform (.insertWidget widget)).texts dashboard.id)
    rw [texts, List.map_append]
    apply List.Perm.append_right
    apply sound.seated dashboard _ nofun
    exact ((Tables.dashboard?_eq_some sound.dashboardIds).mp found).1
  · exact absurd own same

/-- Widgets go with their entries. -/
theorem removeWidgets (sound : Sound tables) {ids : List Uuid}
    (own : ∀ widget ∈ tables.widgets, widget.id ∈ ids → widget.dashboardId = id) {base : Layout}
    (stored : ∀ dashboard ∈ tables.dashboards, dashboard.id = id → dashboard.layout = base)
    (version : Int) :
    Sound ((tables.withoutWidgets ids).setLayout id (changedLayout base (ids.map Uuid.text))
      version) := by
  have removed := (SoundBut.loosen sound id).withoutWidgets own
  apply (removed.setLayout _ version).settle
  intro row present here
  obtain ⟨old, inTables, rfl⟩ := List.mem_map.mp present
  split_ifs at here ⊢ with same
  · have kept : (changedLayout base (ids.map Uuid.text)).getD old.layout =
        base.filter fun item => item.i ∉ ids.map Uuid.text := by
      rw [stored old inTables same, getD_changedLayout]
    have seated := sound.seated old inTables nofun
    rw [stored old inTables same, same] at seated
    change (((changedLayout base (ids.map Uuid.text)).getD old.layout).map (·.i)).Perm
      ((tables.withoutWidgets ids).texts id)
    have left := seated.filter fun text => text ∉ ids.map Uuid.text
    rw [List.filter_map] at left
    rw [kept, Tables.texts_withoutWidgets]
    exact left
  · exact absurd here same

end Sound

/-- The check of the quota changes nothing, whatever is relied on. -/
theorem ensures_assertUnderQuota {interference : Interference Tables Lock}
    {admits : Tables → List Write → Prop} (count : Tables → Nat) (cap : Nat) (detail : String)
    (pending : List Write) (held : Set Lock) (tables : Tables) :
    Ensures Tables.perform interference admits
      (fun _ after holds later =>
        after = pending ∧ holds = held ∧ interference.rely held tables later)
      (assertUnderQuota count cap detail) pending held tables := by
  apply Ensures.query
  intro later relied _
  split
  · trivial
  · exact ⟨rfl, rfl, relied⟩

end FrontDashboard.Boards
