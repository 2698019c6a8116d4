import Mathlib.Data.List.Sort
import FrontDashboard.Resync.Settled

/-! # What comes differently

A resource of whose kind nothing is announced comes as it did before exactly when it is
settled.
-/

namespace FrontDashboard.Resync

open Calendar (HttpError)
open FrontDashboard.Lists (ListId)
open Lists.Page (ListDetail ListRow)
open FrontDashboard.Membership (effectiveRole)

variable {user : UserId} {tables before after : Tables} {id : DashboardId} {row : Dashboard}

/-- Two answers have one content when they bring the same or are both refused. -/
theorem contentOf_eq_iff {α : Type} {make : α → Content} (injective : Function.Injective make)
    (made : ∀ answer, make answer ≠ .refused) {first second : Except HttpError α} :
    Content.of make first = Content.of make second ↔ first.toOption = second.toOption := by
  cases first with
  | error error =>
      cases second with
      | error other => exact ⟨fun _ => rfl, fun _ => rfl⟩
      | ok answer =>
          exact ⟨fun same => absurd same.symm (made answer), fun same => by cases same⟩
  | ok answer =>
      cases second with
      | error other => exact ⟨fun same => absurd same (made answer), fun same => by cases same⟩
      | ok other =>
          rw [Content.of, Content.of, Except.toOption, Except.toOption, injective.eq_iff,
            Option.some_inj]

/-- An order counts between the rows there are. -/
theorem arranged_congr {α : Type} {first second : α → α → Prop} [DecidableRel first]
    [DecidableRel second] {rows : List α}
    (same : ∀ row ∈ rows, ∀ other ∈ rows, first row other ↔ second row other) :
    arranged first rows = arranged second rows := by
  have sorted := List.map_insertionSort (fun row other => ¬ first other row)
    (fun row other => ¬ second other row) id rows
    fun row member other member' => not_congr (same other member' row member)
  rwa [List.map_id, List.map_id] at sorted

theorem mem_arranged {α : Type} {before : α → α → Prop} [DecidableRel before] {rows : List α}
    {row : α} : row ∈ arranged before rows ↔ row ∈ rows :=
  List.mem_insertionSort _

/-! ## Boards -/

section Boards

/-- The version that is shown of a dashboard that is seen. -/
theorem Tables.Constrained.shows_iff (constrained : tables.Constrained)
    (listed : row ∈ tables.dashboards) {version : Int} :
    tables.Shows user row.id version ↔ tables.Accessible user row ∧ row.version = version := by
  constructor
  · rintro ⟨other, listed', accessible, named, same⟩
    obtain rfl := constrained.row_eq listed' listed named
    exact ⟨accessible, same⟩
  · exact fun ⟨accessible, same⟩ => ⟨row, listed, accessible, rfl, same⟩

theorem Tables.exists_shows (seen : tables.Sees user id) :
    ∃ version, tables.Shows user id version := by
  obtain ⟨row, listed, accessible, rfl⟩ := sees_iff.mp seen
  exact ⟨row.version, row, listed, accessible, rfl, rfl⟩

/-- What is shown alike is seen alike. -/
theorem sees_iff_of_shows
    (same : ∀ version, before.Shows user id version ↔ after.Shows user id version) :
    before.Sees user id ↔ after.Sees user id := by
  constructor
  · intro seen
    obtain ⟨version, shown⟩ := Tables.exists_shows seen
    exact ((same version).mp shown).sees
  · intro seen
    obtain ⟨version, shown⟩ := Tables.exists_shows seen
    exact ((same version).mpr shown).sees

variable {ids : List DashboardId}

/-- The board that is kept in the place of a row. -/
theorem BoardsShown.exists_origin (kept : BoardsShown user ids before after)
    (listed : row ∈ after.dashboards) (member : row.id ∈ ids) :
    ∃ origin ∈ before.dashboards,
      Unbinds (origin, before.widgetsOf origin.id) (row, after.widgetsOf row.id) := by
  obtain ⟨change, unbinds, same⟩ := kept.boards
  have here := Tables.mem_boards listed member
  rw [same] at here
  obtain ⟨board, member', changed⟩ := List.mem_map.mp here
  obtain ⟨origin, chosen, rfl⟩ := List.mem_map.mp member'
  exact ⟨origin, (List.mem_filter.mp chosen).1, changed ▸ unbinds _ member'⟩

/-- A board that is kept is seen by the same users. -/
theorem BoardsShown.accessible_iff (kept : BoardsShown user ids before after) {origin : Dashboard}
    (member : row.id ∈ ids)
    (unbinds : Unbinds (origin, before.widgetsOf origin.id) (row, after.widgetsOf row.id)) :
    after.Accessible user row ↔ before.Accessible user origin := by
  have same := unbinds.row
  dsimp only at same
  have named : origin.id = row.id := (congrArg Dashboard.id same).symm
  rw [Tables.Accessible, Tables.Accessible, kept.shares _ member, named,
    congrArg Dashboard.deletedAt same, congrArg Dashboard.userId same]

/-- A board that is kept is the same when it is shown in the same version. -/
theorem Unbinds.eq_of_shows {origin : Dashboard} (constrained : before.Constrained)
    (listed : origin ∈ before.dashboards) (listed' : row ∈ after.dashboards)
    (accessible : after.Accessible user row)
    (unbinds : Unbinds (origin, before.widgetsOf origin.id) (row, after.widgetsOf row.id))
    (settled : ∀ version, before.Shows user row.id version ↔ after.Shows user row.id version) :
    (row, after.widgetsOf row.id) = (origin, before.widgetsOf origin.id) := by
  have named : origin.id = row.id := unbinds.id.symm
  have shown := (settled row.version).mpr ⟨row, listed', accessible, rfl, rfl⟩
  rw [← named, constrained.shows_iff listed] at shown
  exact unbinds.same shown.2

/-- The boards that are seen are the same when they are shown in the same versions. -/
theorem BoardsShown.boards_eq
    (kept : BoardsShown user (after.listAccessibleDashboardIds user) before after)
    (constrained : before.Constrained) (constrained' : after.Constrained)
    (settled : ∀ id version, before.Shows user id version ↔ after.Shows user id version) :
    after.boards (after.listAccessibleDashboardIds user) =
      before.boards (after.listAccessibleDashboardIds user) := by
  obtain ⟨change, unbinds, same⟩ := kept.boards
  rw [same]
  refine (List.map_congr_left fun board member => ?_).trans (List.map_id _)
  have changed : change board ∈ after.boards (after.listAccessibleDashboardIds user) :=
    same ▸ List.mem_map_of_mem member
  have step := unbinds board member
  obtain ⟨row, chosen, result⟩ := List.mem_map.mp changed
  obtain ⟨origin, chosen', rfl⟩ := List.mem_map.mp member
  obtain ⟨listed, seen⟩ := List.mem_filter.mp chosen
  have seen : row.id ∈ after.listAccessibleDashboardIds user := of_decide_eq_true seen
  rw [← result] at step ⊢
  exact step.eq_of_shows constrained (List.mem_filter.mp chosen').1 listed
    ((constrained'.accessible_iff listed).mpr seen) (settled row.id)

/-- What comes of a dashboard that is seen. -/
theorem Tables.Constrained.getDashboard_row (constrained : tables.Constrained)
    (listed : row ∈ tables.dashboards) (accessible : tables.Accessible user row) :
    ∃ role, effectiveRole row.userId user (tables.shares row.id) = some role ∧
      tables.getDashboard user row.id = .ok {
        id := row.id
        userId := row.userId
        name := row.name
        isShared := tables.shares row.id ≠ []
        canEdit := Access.canEdit role
        canManageShares := Access.canManageShares role
        isFavorite := row.id ∈ tables.favorites user
        layout := row.layout
        version := row.version
        widgets := tables.widgetsOf row.id } := by
  obtain ⟨role, known, loaded⟩ := constrained.loadDashboardAccess_row listed accessible
  refine ⟨role, known, ?_⟩
  rw [Tables.getDashboard, loaded]
  rfl

theorem toOption_getDashboard_of_not_sees (unseen : ¬ tables.Sees user id) :
    (tables.getDashboard user id).toOption = none := by
  obtain ⟨error, refused⟩ := loadDashboardAccess_of_not_sees unseen
  rw [Tables.getDashboard, refused]
  rfl

theorem Tables.Constrained.shows_iff_getDashboard (constrained : tables.Constrained)
    {version : Int} : tables.Shows user id version ↔
      (tables.getDashboard user id).toOption.map (·.version) = some version := by
  by_cases seen : tables.Sees user id
  · obtain ⟨row, listed, accessible, rfl⟩ := sees_iff.mp seen
    obtain ⟨role, -, answer⟩ := constrained.getDashboard_row listed accessible
    rw [constrained.shows_iff listed, answer]
    simp [accessible, Except.toOption]
  · rw [toOption_getDashboard_of_not_sees seen]
    exact ⟨fun shown => absurd shown.sees seen, fun none => by cases none⟩

/-- **The active dashboard** comes as before when it is shown in the same version. -/
theorem fetch_dashboard_iff (context : Context) (constrained : before.Constrained)
    (constrained' : after.Constrained)
    (kept : BoardsShown user (after.listAccessibleDashboardIds user) before after) :
    Resource.fetch context user before (.dashboard id) =
        Resource.fetch context user after (.dashboard id) ↔
      Settled context user before after (.dashboard id) := by
  rw [Resource.fetch, Resource.fetch, contentOf_eq_iff (fun _ _ => Content.dashboard.inj) (by simp)]
  constructor
  · intro same version
    rw [constrained.shows_iff_getDashboard, constrained'.shows_iff_getDashboard, same]
  · intro settled
    by_cases seen : after.Sees user id
    · obtain ⟨row, listed, accessible, rfl⟩ := sees_iff.mp seen
      obtain ⟨origin, listed', unbinds⟩ := kept.exists_origin listed seen
      have accessible' := (kept.accessible_iff seen unbinds).mp accessible
      obtain ⟨rfl, widgets⟩ := Prod.mk.inj
        (unbinds.eq_of_shows constrained listed' listed accessible settled)
      obtain ⟨role, known, answer⟩ := constrained.getDashboard_row listed' accessible'
      obtain ⟨role', known', answer'⟩ := constrained'.getDashboard_row listed accessible
      rw [kept.shares _ seen, known] at known'
      cases known'
      rw [answer, answer', kept.shares _ seen, widgets]
      simp only [kept.favorites _ seen]
    · have unseen : ¬ before.Sees user id := fun seen' =>
        seen ((sees_iff_of_shows settled).mp seen')
      rw [toOption_getDashboard_of_not_sees seen, toOption_getDashboard_of_not_sees unseen]

/-- The summaries tell what is shown. -/
theorem shows_iff_listDashboards {version : Int} : tables.Shows user id version ↔
    ∃ summary ∈ tables.listDashboards user, summary.id = id ∧ summary.version = version := by
  simp [Tables.Shows, Tables.listDashboards, mem_arranged, Tables.summary, and_assoc]

/-- The rows that are seen are the same when their boards are. -/
theorem accessible_eq (constrained : before.Constrained) (constrained' : after.Constrained)
    (unchanged : after.boards (after.listAccessibleDashboardIds user) =
      before.boards (after.listAccessibleDashboardIds user))
    (sees : ∀ id, before.Sees user id ↔ after.Sees user id) :
    after.dashboards.filter (fun row => after.Accessible user row) =
      before.dashboards.filter fun row => before.Accessible user row := by
  have named := congrArg (List.map Prod.fst) unchanged
  simp only [Tables.boards, List.map_map, Function.comp_def, List.map_id'] at named
  calc after.dashboards.filter (fun row => after.Accessible user row)
    _ = after.dashboards.filter fun row => row.id ∈ after.listAccessibleDashboardIds user :=
      List.filter_congr fun row listed => by
        rw [decide_eq_decide]
        exact constrained'.accessible_iff listed
    _ = before.dashboards.filter fun row => row.id ∈ after.listAccessibleDashboardIds user := named
    _ = before.dashboards.filter fun row => before.Accessible user row :=
      List.filter_congr fun row listed => by
        rw [decide_eq_decide]
        exact ((constrained.accessible_iff listed).trans (sees row.id)).symm

/-- **The summaries** come as before when the same dashboards are shown in the same versions. -/
theorem fetch_summaries_iff (context : Context) (constrained : before.Constrained)
    (constrained' : after.Constrained)
    (kept : BoardsShown user (after.listAccessibleDashboardIds user) before after) :
    Resource.fetch context user before .summaries = Resource.fetch context user after .summaries ↔
      Settled context user before after .summaries := by
  rw [Resource.fetch, Resource.fetch, Content.summaries.injEq]
  constructor
  · intro same id version
    rw [shows_iff_listDashboards, shows_iff_listDashboards, same]
  · intro settled
    have sees : ∀ id, before.Sees user id ↔ after.Sees user id := fun id =>
      sees_iff_of_shows (settled id)
    have rows := accessible_eq constrained constrained'
      (kept.boards_eq constrained constrained' settled) sees
    have seen : ∀ row ∈ before.dashboards.filter (fun row => before.Accessible user row),
        row.id ∈ after.listAccessibleDashboardIds user := by
      rw [← rows]
      intro row member
      exact List.mem_map_of_mem member
    rw [Tables.listDashboards, Tables.listDashboards, rows]
    refine (congrArg (List.map _) (arranged_congr fun row member other member' => ?_)).trans
      (List.map_congr_left fun row member => ?_)
    · simp only [Tables.ListedBefore, kept.favorites _ (seen row member),
        kept.favorites _ (seen other member')]
    · have member' := seen row (mem_arranged.mp member)
      simp only [Tables.summary, kept.shares _ member', kept.favorites _ member']

theorem Tables.Constrained.sees_iff_members (constrained : tables.Constrained) (context : Context) :
    tables.Sees user id ↔ (tables.listDashboardMembers user context id).toOption.isSome := by
  by_cases seen : tables.Sees user id
  · obtain ⟨row, listed, accessible, rfl⟩ := sees_iff.mp seen
    obtain ⟨role, -, loaded⟩ := constrained.loadDashboardAccess_row listed accessible
    rw [Tables.listDashboardMembers, loaded]
    exact iff_of_true seen rfl
  · obtain ⟨error, refused⟩ := loadDashboardAccess_of_not_sees seen
    rw [Tables.listDashboardMembers, refused]
    exact iff_of_false seen Bool.false_ne_true

/-- **The members** come as before while the dashboard is seen. -/
theorem fetch_members_iff (context : Context) (constrained : before.Constrained)
    (constrained' : after.Constrained)
    (kept : BoardsShown user (after.listAccessibleDashboardIds user) before after) :
    Resource.fetch context user before (.members id) =
        Resource.fetch context user after (.members id) ↔
      Settled context user before after (.members id) := by
  rw [Resource.fetch, Resource.fetch, contentOf_eq_iff (fun _ _ => Content.members.inj) (by simp)]
  constructor
  · intro same
    rw [Settled, constrained.sees_iff_members context, constrained'.sees_iff_members context, same]
  · intro settled
    by_cases seen : after.Sees user id
    · obtain ⟨row, listed, accessible, rfl⟩ := sees_iff.mp seen
      obtain ⟨origin, listed', unbinds⟩ := kept.exists_origin listed seen
      have named : row.id = origin.id := unbinds.id
      have owner : row.userId = origin.userId := unbinds.owner
      obtain ⟨role, -, loaded⟩ := constrained.loadDashboardAccess_row listed'
        ((kept.accessible_iff seen unbinds).mp accessible)
      obtain ⟨role', -, loaded'⟩ := constrained'.loadDashboardAccess_row listed accessible
      rw [← named] at loaded
      rw [Tables.listDashboardMembers, Tables.listDashboardMembers, loaded, loaded',
        kept.shares _ seen]
      dsimp only [bind, Except.bind]
      rw [owner]
    · have unseen : ¬ before.Sees user id := fun seen' => seen (settled.mp seen')
      rw [constrained.sees_iff_members context, Option.not_isSome_iff_eq_none] at unseen
      rw [constrained'.sees_iff_members context, Option.not_isSome_iff_eq_none] at seen
      rw [unseen, seen]

end Boards

/-! ## Lists -/

section Lists

variable {list : ListId} {order : Nat} {moment : Time}

/-- The list of an id on a dashboard that is not in the trash. -/
theorem Tables.Constrained.live_eq (constrained : tables.Constrained) {row other : ListRow}
    (live : row ∈ tables.lists.live id) (live' : other ∈ tables.lists.live id)
    (same : row.id = other.id) : row = other :=
  constrained.lists.row_eq (Lists.Page.Tables.mem_live.mp live).1
    (Lists.Page.Tables.mem_live.mp live').1 same

/-- A list that is kept where it is. -/
theorem moved_eq_of_places (constrained' : after.Constrained) (seen : before.Sees user id)
    {row : ListRow} {place : ListRow → Nat × Time} (live : row ∈ before.lists.live id)
    (live' : moved place row ∈ after.lists.live id)
    (placed : ∀ order moment, before.Places user id row.id order moment →
      after.Places user id row.id order moment) : moved place row = row := by
  obtain ⟨-, other, member, named, order, moment⟩ :=
    placed row.sortOrder row.updatedAt ⟨seen, row, live, rfl, rfl, rfl⟩
  obtain rfl := constrained'.live_eq member live' named
  have order : (place row).1 = row.sortOrder := order
  have moment : (place row).2 = row.updatedAt := moment
  rw [moved, order, moment]

/-- The lists of a dashboard are the same when they stand at the same places. -/
theorem live_eq_of_places (constrained' : after.Constrained)
    (kept : ListsKept (after.listAccessibleDashboardIds user) before.lists after.lists)
    (seen : before.Sees user id) (seen' : after.Sees user id)
    (settled : ∀ list order moment,
      before.Places user id list order moment ↔ after.Places user id list order moment) :
    after.lists.live id = before.lists.live id := by
  obtain ⟨place, fresh, same, -⟩ := kept.live id seen'
  have none : fresh = [] := by
    refine List.eq_nil_iff_forall_not_mem.mpr fun row member => ?_
    have live : row ∈ after.lists.live id := same ▸ List.mem_append_right _ member
    obtain ⟨-, origin, live', named, -, -⟩ := (settled row.id row.sortOrder row.updatedAt).mpr
      ⟨seen', row, live, rfl, rfl, rfl⟩
    have unique := constrained'.lists.live_unique id
    rw [same, List.map_append] at unique
    refine (List.nodup_append.mp unique).2.2 row.id ?_ row.id (List.mem_map_of_mem member) rfl
    exact List.mem_map.mpr ⟨moved place origin, List.mem_map_of_mem live', named⟩
  rw [none, List.append_nil] at same
  rw [same]
  refine (List.map_congr_left fun row live => ?_).trans (List.map_id _)
  have live' : moved place row ∈ after.lists.live id := same ▸ List.mem_map_of_mem live
  exact moved_eq_of_places constrained' seen live live' fun order moment =>
    (settled row.id order moment).mp

/-- What is answered of the lists of a dashboard, unless it is refused. -/
theorem toOption_listLists : (tables.listLists user id).toOption =
    if tables.Refuses user id then none
    else some (if tables.Sees user id then (tables.orderedLists id).map fun row =>
      row.response (tables.lists.itemCount row.id) else []) := by
  by_cases nothing : tables.listAccessibleDashboardIds user = []
  · simp [Tables.listLists, Tables.Refuses, Tables.Sees, nothing, Except.toOption]
  · by_cases seen : id ∈ tables.listAccessibleDashboardIds user
    · simp [Tables.listLists, Tables.Refuses, Tables.Sees, nothing, seen, Except.toOption]
    · simp [Tables.listLists, Tables.Refuses, Tables.Sees, nothing, seen, Except.toOption]

theorem refuses_iff_listLists :
    tables.Refuses user id ↔ (tables.listLists user id).toOption = none := by
  rw [toOption_listLists]
  split_ifs with refused
  · exact iff_of_true refused rfl
  · exact iff_of_false refused fun none => by cases none

/-- The summaries of lists tell where the lists stand. -/
theorem places_iff_listLists : tables.Places user id list order moment ↔
    ∃ answer ∈ (tables.listLists user id).toOption, ∃ summary ∈ answer,
      summary.id = list ∧ summary.sortOrder = order ∧ summary.updatedAt = moment := by
  rw [toOption_listLists]
  by_cases seen : tables.Sees user id
  · have allowed : ¬ tables.Refuses user id := fun refused => refused.2 seen
    simp [Tables.Places, seen, allowed, Tables.orderedLists, mem_arranged, ListRow.response]
  · simp [Tables.Places, seen]

/-- **The summaries of lists** come as before when the lists stand as before. -/
theorem fetch_listSummaries_iff (context : Context) (constrained' : after.Constrained)
    (kept : ListsKept (after.listAccessibleDashboardIds user) before.lists after.lists) :
    Resource.fetch context user before (.listSummaries id) =
        Resource.fetch context user after (.listSummaries id) ↔
      Settled context user before after (.listSummaries id) := by
  rw [Resource.fetch, Resource.fetch,
    contentOf_eq_iff (fun _ _ => Content.listSummaries.inj) (by simp)]
  constructor
  · intro same
    refine ⟨?_, fun list order moment => ?_⟩
    · rw [refuses_iff_listLists, refuses_iff_listLists, same]
    · rw [places_iff_listLists, places_iff_listLists, same]
  · rintro ⟨refuses, settled⟩
    -- Nothing stands on a dashboard that only one of the two states shows.
    have bare : ∀ {tables : Tables}, tables.Sees user id →
        (∀ list order moment, ¬ tables.Places user id list order moment) →
          tables.lists.live id = [] := by
      intro tables seen nowhere
      refine List.eq_nil_iff_forall_not_mem.mpr fun row live => ?_
      exact nowhere row.id row.sortOrder row.updatedAt ⟨seen, row, live, rfl, rfl, rfl⟩
    have answers : ∀ {tables : Tables}, tables.lists.live id = [] →
        (tables.orderedLists id).map (fun row =>
          row.response (tables.lists.itemCount row.id)) = [] := by
      intro tables empty
      rw [Tables.orderedLists, empty]
      rfl
    rw [toOption_listLists, toOption_listLists]
    refine if_congr refuses rfl (congrArg some ?_)
    by_cases seen : before.Sees user id
    · by_cases seen' : after.Sees user id
      · rw [if_pos seen, if_pos seen', Tables.orderedLists, Tables.orderedLists,
          live_eq_of_places constrained' kept seen seen' settled]
        refine List.map_congr_left fun row member => ?_
        rw [Lists.Page.Tables.itemCount, Lists.Page.Tables.itemCount,
          kept.items id seen' row (mem_arranged.mp member)]
      · rw [if_pos seen, if_neg seen', answers (bare seen fun list order moment placed =>
          seen' ((settled list order moment).mp placed).1)]
    · by_cases seen' : after.Sees user id
      · rw [if_neg seen, if_pos seen', answers (bare seen' fun list order moment placed =>
          seen ((settled list order moment).mpr placed).1)]
      · rw [if_neg seen, if_neg seen']

/-- The detail that is answered of a list on a dashboard that is seen. -/
theorem Tables.Constrained.getList_live (constrained : tables.Constrained) {row : ListRow}
    (live : row ∈ tables.lists.live id) (seen : tables.Sees user id) :
    tables.getList user row.id = .ok (tables.detail row) := by
  obtain ⟨listed, rfl, isLive⟩ := Lists.Page.Tables.mem_live.mp live
  obtain ⟨board, listed', accessible, named⟩ := sees_iff.mp seen
  obtain ⟨role, -, loaded⟩ := constrained.loadDashboardAccess_row listed' accessible
  have found : tables.lists.row? false row.id = some row :=
    (KeyedRows.find?_eq_some_iff constrained.lists.unique fun _ passes =>
      (of_decide_eq_true passes).1).mpr ⟨listed, decide_eq_true ⟨rfl, by rw [isLive]; rfl⟩⟩
  rw [Tables.getList, found]
  dsimp only
  rw [← named, loaded]
  rfl

theorem Tables.of_getList {answer : ListDetail} (ran : tables.getList user list = .ok answer) :
    ∃ id, ∃ row ∈ tables.lists.live id, row.id = list ∧ tables.Sees user id ∧
      answer = tables.detail row := by
  rw [Tables.getList] at ran
  split at ran
  next => cases ran
  next row found =>
    obtain ⟨listed, named, -⟩ := Lists.Page.Tables.of_row? found
    obtain ⟨access, loaded, result⟩ := Outcomes.bind_eq_ok.mp ran
    have live : row ∈ tables.lists.live row.dashboardId :=
      Lists.Page.Tables.mem_live.mpr ⟨listed, rfl, Lists.Page.Tables.deletedAt_of_row? found⟩
    refine ⟨row.dashboardId, row, live, named, ?_, (Except.ok.inj result).symm⟩
    by_contra unseen
    obtain ⟨error, refused⟩ := loadDashboardAccess_of_not_sees unseen
    rw [refused] at loaded
    cases loaded

/-- The detail of a list tells where the list stands. -/
theorem Tables.Constrained.places_iff_getList (constrained : tables.Constrained) :
    tables.Places user id list order moment ↔ ∃ answer ∈ (tables.getList user list).toOption,
      answer.dashboardId = id ∧ answer.sortOrder = order ∧ answer.updatedAt = moment := by
  constructor
  · rintro ⟨seen, row, live, rfl, rfl, rfl⟩
    rw [constrained.getList_live live seen]
    exact ⟨_, rfl, (Lists.Page.Tables.mem_live.mp live).2.1, rfl, rfl⟩
  · rintro ⟨answer, answered, rfl, rfl, rfl⟩
    obtain ⟨id, row, live, named, seen, rfl⟩ :=
      Tables.of_getList (Outcomes.toOption_eq_some.mp answered)
    obtain rfl : row.dashboardId = id := (Lists.Page.Tables.mem_live.mp live).2.1
    exact ⟨seen, row, live, named, rfl, rfl⟩

/-- **The detail of a list** comes as before when the list stands as before. -/
theorem fetch_listDetail_iff (context : Context) (constrained : before.Constrained)
    (constrained' : after.Constrained)
    (kept : ListsKept (after.listAccessibleDashboardIds user) before.lists after.lists) :
    Resource.fetch context user before (.listDetail list) =
        Resource.fetch context user after (.listDetail list) ↔
      Settled context user before after (.listDetail list) := by
  rw [Resource.fetch, Resource.fetch,
    contentOf_eq_iff (fun _ _ => Content.listDetail.inj) (by simp)]
  constructor
  · intro same id order moment
    rw [constrained.places_iff_getList, constrained'.places_iff_getList, same]
  · intro settled
    by_cases placed : ∃ id order moment, after.Places user id list order moment
    · obtain ⟨id, _, _, here⟩ := placed
      obtain ⟨seen', row, live', rfl, rfl, rfl⟩ := here
      obtain ⟨seen, origin, live, named, -, -⟩ := (settled _ _ _).mpr
        ⟨seen', row, live', rfl, rfl, rfl⟩
      obtain ⟨place, stays⟩ := kept.mem_live seen' live
      have still : moved place origin = origin := moved_eq_of_places constrained' seen live stays
        fun order moment => by rw [named]; exact (settled id order moment).mp
      obtain rfl : origin = row := still ▸ constrained'.live_eq stays live' named
      rw [constrained.getList_live live seen, constrained'.getList_live live' seen', Tables.detail,
        Tables.detail, kept.items id seen' origin live]
    · have nowhere : ∀ {tables : Tables},
          (∀ id order moment, ¬ tables.Places user id list order moment) →
            (tables.getList user list).toOption = none := by
        intro tables unplaced
        cases answered : tables.getList user list with
        | error error => rfl
        | ok answer =>
            obtain ⟨id, row, live, named, seen, -⟩ := Tables.of_getList answered
            exact (unplaced id row.sortOrder row.updatedAt ⟨seen, row, live, named, rfl, rfl⟩).elim
      rw [nowhere fun id order moment here => placed ⟨id, order, moment, here⟩,
        nowhere fun id order moment here =>
          placed ⟨id, order, moment, (settled id order moment).mp here⟩]

end Lists

end FrontDashboard.Resync
