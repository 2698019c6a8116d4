import FrontDashboard.Resync.Routes

/-! # What the requests on dashboards write

A request that commits was allowed to, and writes what is told here and nothing else.
-/

namespace FrontDashboard.Resync

open Access (canEdit)
open Boards (LayoutUpdate WidgetCreate)
open FrontDashboard.Lists (ListId)
open FrontDashboard.Membership (EffectiveRole ResourceShare ShareRole effectiveRole)

variable {tables next : Tables} {id : DashboardId} {caller user : UserId} {row : Dashboard}
  {role : EffectiveRole} {now : Time}

namespace Tables

/-- A user has a role on a dashboard that is not in the trash. -/
def Holds (tables : Tables) (id : DashboardId) (user : UserId) (row : Dashboard)
    (role : EffectiveRole) : Prop :=
  tables.dashboard? id = some row ∧
    effectiveRole row.userId user (tables.shares id) = some role

/-- A dashboard that is found is there, by its id, and not in the trash. -/
theorem of_dashboard? (found : tables.dashboard? id = some row) :
    row ∈ tables.dashboards ∧ row.id = id ∧ row.deletedAt = none := by
  have matched := List.find?_some found
  rw [decide_eq_true_eq] at matched
  exact ⟨List.mem_of_find?_eq_some found, matched⟩

/-- Whose access was loaded has a role. -/
theorem of_loadDashboardAccess {shares : List ResourceShare}
    (loaded : tables.loadDashboardAccess id user = .ok (row, shares, role)) :
    tables.Holds id user row role ∧ row.id = id ∧ shares = tables.shares id := by
  rw [loadDashboardAccess] at loaded
  split at loaded
  next => cases loaded
  next found row' live =>
    split at loaded
    next => cases loaded
    next held role' known =>
      cases loaded
      obtain rfl := (of_dashboard? live).2.1
      exact ⟨⟨live, known⟩, rfl, rfl⟩

/-- A request on a dashboard finds the caller's role there first. -/
theorem exists_of_access {α : Type} {result : α}
    {rest : Dashboard × List ResourceShare × EffectiveRole → Except Calendar.HttpError α}
    (ran : (tables.loadDashboardAccess id user >>= rest) = .ok result) :
    ∃ row role, row.id = id ∧ tables.Holds id user row role ∧
      rest (row, tables.shares id, role) = .ok result := by
  obtain ⟨⟨row, shares, role⟩, loaded, wrote⟩ := Outcomes.bind_eq_ok.mp ran
  obtain ⟨holds, same, rfl⟩ := of_loadDashboardAccess loaded
  exact ⟨row, role, same, holds, wrote⟩

end Tables

/-- What each request leaves where it succeeds. -/
theorem createDashboard_eq_ok {settings : Settings} {name : String}
    (ran : createDashboard settings caller id name now tables = .ok (some next)) :
    id ∉ tables.dashboards.map Dashboard.id ∧
      next = { tables with
        dashboards := tables.dashboards ++ [⟨id, caller, name, [], 0, now, now, none⟩] } := by
  rw [createDashboard] at ran
  split_ifs at ran with _ taken
  cases ran
  exact ⟨taken, rfl⟩

theorem updateDashboardMeta_eq_ok {name : Option String}
    (ran : updateDashboardMeta caller id name now tables = .ok (some next)) :
    ∃ row role, tables.Holds id caller row role ∧ ((name = none ∧ next = tables) ∨
      ∃ renamed, name = some renamed ∧ canEdit role ∧
        next = tables.setDashboard id now fun row => { row with name := renamed }) := by
  obtain ⟨row, role, rfl, holds, wrote⟩ := Tables.exists_of_access ran
  refine ⟨row, role, holds, ?_⟩
  cases name with
  | none =>
      cases wrote
      exact .inl ⟨rfl, rfl⟩
  | some name =>
      dsimp only at wrote
      split_ifs at wrote with refused
      cases wrote
      exact .inr ⟨name, rfl, refused, rfl⟩

theorem updateLayout_eq_ok {body : LayoutUpdate}
    (ran : updateLayout caller id body now tables = .ok (some next)) :
    ∃ row role, tables.Holds id caller row role ∧ canEdit role ∧ row.version = body.version ∧
      next = tables.setDashboard id now fun row =>
        { row with layout := body.layout, version := row.version + 1 } := by
  obtain ⟨row, role, rfl, holds, wrote⟩ := Tables.exists_of_access ran
  dsimp only at wrote
  split_ifs at wrote with refused conflict
  split at wrote
  next => cases wrote
  next =>
    cases wrote
    exact ⟨row, role, holds, refused, not_not.mp conflict, rfl⟩

theorem placeWidget_eq_ok {body : WidgetCreate} {config : String} {newWidget : Uuid}
    {resource : Option ListId}
    (ran : placeWidget row body config newWidget now resource tables = .ok (some next)) :
    ∃ box, next = { tables.setDashboard row.id now fun row =>
      { row with
        layout := row.layout ++ [⟨box, newWidget.text⟩], version := row.version + 1 } with
      widgets := tables.widgets ++
        [⟨⟨newWidget, row.id, body.widgetType, resource⟩, config, now, now⟩] } := by
  rw [placeWidget] at ran
  split_ifs at ran
  dsimp only at ran
  split at ran
  next => cases ran
  next box _ =>
    cases ran
    exact ⟨box, rfl⟩

theorem addWidget_eq_ok {settings : Settings} {body : WidgetCreate} {name config : String}
    {newWidget : Uuid} {newList : ListId}
    (ran : addWidget settings caller id body name config newWidget newList now tables =
      .ok (some next)) :
    ∃ row role resource middle, tables.Holds id caller row role ∧ canEdit role ∧ row.id = id ∧
      bindResource caller id name newList now tables body = .ok (resource, middle) ∧
        placeWidget row body config newWidget now resource middle = .ok (some next) := by
  obtain ⟨row, role, rfl, holds, wrote⟩ := Tables.exists_of_access ran
  dsimp only at wrote
  split_ifs at wrote with refused
  obtain ⟨⟨resource, middle⟩, bound, placed⟩ := Outcomes.bind_eq_ok.mp wrote
  exact ⟨row, role, resource, middle, holds, refused, rfl, bound, placed⟩

/-- A widget is bound to nothing, to a list of its dashboard, or to a new one that it brings
along. -/
theorem bindResource_eq_ok {name : String} {newList : ListId} {body : WidgetCreate}
    {resource : Option ListId}
    (ran : bindResource caller id name newList now tables body = .ok (resource, next)) :
    (resource = none ∧ next = tables) ∨
      (∃ list ∈ tables.lists.lists, list.dashboardId = id ∧ resource = some list.id ∧
        next = tables) ∨
      ∃ list : Lists.Page.ListRow, list.id ∉ tables.lists.lists.map (·.id) ∧
        list.dashboardId = id ∧ resource = some list.id ∧
          next = { tables with
            lists := { tables.lists with lists := tables.lists.lists ++ [list] } } := by
  cases body with
  | clock => cases ran; exact .inl ⟨rfl, rfl⟩
  | calendar => cases ran; exact .inl ⟨rfl, rfl⟩
  | agenda => cases ran; exact .inl ⟨rfl, rfl⟩
  | list bound rawListType =>
      cases bound with
      | none =>
          rw [bindResource] at ran
          split at ran
          next => cases ran
          next type _ =>
            dsimp only at ran
            split_ifs at ran with taken
            cases ran
            exact .inr (.inr ⟨_, fun member => taken (.inr member), rfl, rfl, rfl⟩)
      | some list =>
          rw [bindResource] at ran
          split at ran
          next => cases ran
          next row found =>
            cases ran
            obtain ⟨found, here⟩ := Option.filter_eq_some_iff.mp found
            obtain ⟨listed, rfl, -⟩ := Lists.Page.Tables.of_row? found
            exact .inr (.inl ⟨row, listed, of_decide_eq_true here, rfl, rfl⟩)

theorem updateWidget_eq_ok {widgetId : Uuid} {config : String}
    (ran : updateWidget caller id widgetId config now tables = .ok (some next)) :
    ∃ row role, tables.Holds id caller row role ∧ canEdit role ∧
      next = { tables with
        widgets := tables.widgets.map fun widget =>
          if widget.dashboardId = id ∧ widget.id = widgetId ∧ widget.config ≠ config then
            { widget with config, updatedAt := now }
          else widget } := by
  obtain ⟨row, role, rfl, holds, wrote⟩ := Tables.exists_of_access ran
  dsimp only at wrote
  split_ifs at wrote with refused
  split at wrote
  next => cases wrote
  next =>
    cases wrote
    exact ⟨row, role, holds, refused, rfl⟩

theorem deleteWidget_eq_ok {widgetId : Uuid}
    (ran : deleteWidget caller id widgetId now tables = .ok (some next)) :
    ∃ row role, tables.Holds id caller row role ∧ canEdit role ∧
      next = { tables.setDashboard id now fun row =>
        { row with
          layout := row.layout.filter fun item => item.i ≠ widgetId.text
          version := row.version + 1 } with
        widgets := tables.widgets.filter fun widget =>
          ¬ (widget.dashboardId = id ∧ widget.id = widgetId) } := by
  obtain ⟨row, role, rfl, holds, wrote⟩ := Tables.exists_of_access ran
  dsimp only at wrote
  split_ifs at wrote with refused
  split at wrote
  next => cases wrote
  next =>
    cases wrote
    exact ⟨row, role, holds, refused, rfl⟩

theorem deleteDashboard_eq_ok (ran : deleteDashboard caller id now tables = .ok (some next)) :
    ∃ row, tables.Holds id caller row .owner ∧
      next = (tables.setDashboard id now fun row => { row with deletedAt := some now }).forget
        (row.userId :: (tables.shares id).map (·.principal)) id := by
  obtain ⟨row, role, rfl, holds, wrote⟩ := Tables.exists_of_access ran
  dsimp only at wrote
  split_ifs at wrote with refused
  cases wrote
  exact ⟨row, not_not.mp refused ▸ holds, rfl⟩

theorem restoreDashboard_eq_ok (ran : restoreDashboard caller id now tables = .ok (some next)) :
    (∃ row ∈ tables.dashboards, row.id = id ∧ row.userId = caller ∧ row.deletedAt ≠ none) ∧
      next = tables.setDashboard id now fun row => { row with deletedAt := none } := by
  rw [restoreDashboard] at ran
  split at ran
  next => cases ran
  next row found =>
    have matched := List.find?_some found
    rw [decide_eq_true_eq] at matched
    obtain rfl := matched.1
    cases ran
    exact ⟨⟨row, List.mem_of_find?_eq_some found, matched⟩, rfl⟩

theorem acceptInvite_eq_ok {invitedBy : UserId} {offered : ShareRole} {newShare : Nat}
    (ran : acceptInvite caller id offered invitedBy newShare tables = .ok (some next)) :
    ∃ row, tables.dashboard? id = some row ∧ row.userId ≠ caller ∧
      next = tables.createShare id caller offered invitedBy newShare := by
  rw [acceptInvite] at ran
  split at ran
  next => cases ran
  next row found =>
    obtain rfl := (Tables.of_dashboard? found).2.1
    split_ifs at ran with owns
    · cases ran
    · cases ran
    · cases ran
      exact ⟨row, found, owns, rfl⟩

theorem updateDashboardShare_eq_ok {shareId : Nat} {granted : ShareRole}
    (ran : updateDashboardShare caller id shareId granted tables = .ok (some next)) :
    ∃ row, tables.Holds id caller row .owner ∧ ∃ share ∈ tables.shares id, share.id = shareId ∧
      next = tables.setShares id ((tables.shares id).map fun other =>
        if other.id = share.id then { other with role := granted } else other) := by
  obtain ⟨row, held, rfl, holds, wrote⟩ := Tables.exists_of_access ran
  dsimp only at wrote
  split_ifs at wrote with refused
  split at wrote
  next => cases wrote
  next share found =>
    split_ifs at wrote
    · cases wrote
    · cases wrote
      exact ⟨row, not_not.mp refused ▸ holds, share, List.mem_of_find?_eq_some found,
        by simpa using List.find?_some found, rfl⟩

theorem deleteDashboardShare_eq_ok {shareId : Nat}
    (ran : deleteDashboardShare caller id shareId tables = .ok (some next)) :
    ∃ row, tables.Holds id caller row .owner ∧ ∃ share ∈ tables.shares id, share.id = shareId ∧
      next = (tables.forget [share.principal] id).deleteShare id share := by
  obtain ⟨row, held, rfl, holds, wrote⟩ := Tables.exists_of_access ran
  dsimp only at wrote
  split_ifs at wrote with refused
  split at wrote
  next => cases wrote
  next share found =>
    cases wrote
    exact ⟨row, not_not.mp refused ▸ holds, share, List.mem_of_find?_eq_some found,
      by simpa using List.find?_some found, rfl⟩

theorem leaveDashboard_eq_ok (ran : leaveDashboard caller id tables = .ok (some next)) :
    ∃ row role, tables.Holds id caller row role ∧ role ≠ .owner ∧ ∃ share ∈ tables.shares id,
      share.principal = caller ∧ next = (tables.forget [caller] id).deleteShare id share := by
  obtain ⟨row, held, rfl, holds, wrote⟩ := Tables.exists_of_access ran
  dsimp only at wrote
  split_ifs at wrote with owns
  split at wrote
  next => cases wrote
  next share found =>
    cases wrote
    exact ⟨row, held, holds, owns, share, List.mem_of_find?_eq_some found,
      by simpa using List.find?_some found, rfl⟩

theorem transferDashboardOwnership_eq_ok {newShare : Nat}
    (ran : transferDashboardOwnership caller id user newShare now tables = .ok (some next)) :
    ∃ row, tables.Holds id caller row .owner ∧ user ≠ caller ∧ ∃ share ∈ tables.shares id,
      share.principal = user ∧
        next = ((tables.setDashboard id now fun row => { row with userId := user }).deleteShare
          id share).createShare id caller .editor user newShare := by
  obtain ⟨row, held, rfl, holds, wrote⟩ := Tables.exists_of_access ran
  dsimp only at wrote
  split_ifs at wrote with refused own
  split at wrote
  next => cases wrote
  next share found =>
    cases wrote
    exact ⟨row, not_not.mp refused ▸ holds, own, share, List.mem_of_find?_eq_some found,
      by simpa using List.find?_some found, rfl⟩

end FrontDashboard.Resync
