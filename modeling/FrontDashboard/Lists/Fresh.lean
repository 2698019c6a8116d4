import FrontDashboard.Lists.Tables

/-! # Caches that a refetch would leave alone

The caches of a dashboard are fresh when every answer of the GETs that fill them has the
same rows in the same order. As rows with equal keys may be answered either way, this is so
only while the order of the rows is strict.
-/

namespace FrontDashboard.Lists.Page

/-- What a reader sees of a list in the sidebar. -/
def ListSummary.view (list : ListSummary) : ListId × String × Nat :=
  (list.id, list.name, list.itemCount)

/-- What a reader sees of an opened list. -/
def ListDetail.view (detail : ListDetail) : (ListId × String × Nat) × List ListItem :=
  (detail.toListSummary.view, detail.items)

/-- What the server shows of a row. -/
def Tables.viewOf (tables : Tables) (row : ListRow) : ListId × String × Nat :=
  (row.id, row.name, tables.itemCount row.id)

/-- The list is one of the dashboard, in the trash or not. -/
def Tables.On (dashboardId : DashboardId) (listId : ListId) (tables : Tables) : Prop :=
  ∃ row ∈ tables.lists, row.id = listId ∧ row.dashboardId = dashboardId

/-- The summaries of a dashboard are cached as a fresh GET answers them, and so are the
details of each of its lists that is cached. -/
structure Fresh (dashboardId : DashboardId) (tables : Tables) (caches : Caches) : Prop where
  summaries : ∃ cached, caches.summaries.data dashboardId = some cached ∧
    ∀ answer, tables.GetLists dashboardId answer →
      cached.map ListSummary.view = answer.map ListSummary.view
  details : ∀ listId cached, caches.details.data listId = some cached →
    tables.On dashboardId listId →
      (∃ answer, tables.GetDetail listId answer) ∧
        ∀ answer, tables.GetDetail listId answer → cached.view = answer.view

/-- Keys are unique, and no item is on two lists or on one that does not exist. -/
structure Tables.WellFormed (tables : Tables) : Prop where
  unique : (tables.lists.map ListRow.id).Nodup
  itemsUnique : ∀ listId, (ids (shown (tables.items listId))).Nodup
  itemsApart : ∀ listId other itemId, itemId ∈ ids (shown (tables.items listId)) →
    itemId ∈ ids (shown (tables.items other)) → listId = other
  orphanless : ∀ listId, listId ∉ tables.lists.map ListRow.id → tables.items listId = []

/-! ## The order of the lists -/

theorem ListRow.Before.asymm (row other : ListRow) (before : row.Before other) :
    ¬ other.Before row := by
  unfold ListRow.Before at *
  omega

theorem ListRow.Before.between (row middle other : ListRow) (before : row.Before other) :
    row.Before middle ∨ middle.Before other := by
  unfold ListRow.Before at *
  omega

namespace Tables

variable {tables : Tables} {dashboardId : DashboardId} {listId : ListId}

theorem mem_live {row : ListRow} : row ∈ tables.live dashboardId ↔
    row ∈ tables.lists ∧ row.dashboardId = dashboardId ∧ row.deletedAt = none := by
  simp [live]

theorem WellFormed.live_unique (wellFormed : tables.WellFormed) (dashboardId : DashboardId) :
    ((tables.live dashboardId).map ListRow.id).Nodup :=
  wellFormed.unique.sublist (List.filter_sublist.map _)

theorem WellFormed.row_eq (wellFormed : tables.WellFormed) {row other : ListRow}
    (member : row ∈ tables.lists) (member' : other ∈ tables.lists) (same : row.id = other.id) :
    row = other :=
  List.inj_on_of_nodup_map wellFormed.unique member member' same

/-! ## What the server shows -/

/-- The rows of a dashboard in the one order they have, as they are cached. -/
structure ShowsLists (dashboardId : DashboardId) (tables : Tables) (cached : List ListSummary)
    (rows : List ListRow) : Prop where
  answers : OrderedBy ListRow.Before (tables.live dashboardId) rows
  strictly : rows.Pairwise ListRow.Before
  shows : cached.map ListSummary.view = rows.map tables.viewOf

/-- The row of a list and its items in the one order they have, as they are cached. -/
structure ShowsDetail (listId : ListId) (tables : Tables) (cached : ListDetail) (row : ListRow)
    (answer : List Row) : Prop where
  member : row ∈ tables.lists
  named : row.id = listId
  live : row.deletedAt = none
  shows : cached.toListSummary.view = (listId, row.name, cached.items.length)
  items : Represents (tables.items listId) cached.items answer

theorem ids_of_views {rows others : List ListRow}
    (same : rows.map tables.viewOf = others.map tables.viewOf) :
    rows.map ListRow.id = others.map ListRow.id := by
  have firsts := congrArg (List.map Prod.fst) same
  rwa [List.map_map, List.map_map] at firsts

/-- The summaries are as every answer has them when the rows have one order. -/
theorem getLists_iff (wellFormed : tables.WellFormed) (dashboardId : DashboardId)
    (cached : List ListSummary) :
    (∀ answer, tables.GetLists dashboardId answer →
        cached.map ListSummary.view = answer.map ListSummary.view) ↔
      ∃ rows, tables.ShowsLists dashboardId cached rows := by
  have views : ∀ rows : List ListRow,
      (rows.map fun row => row.response (tables.itemCount row.id)).map ListSummary.view =
        rows.map tables.viewOf := by
    intro rows
    rw [List.map_map]
    rfl
  constructor
  · intro fresh
    have answers := OrderedBy.insertionSort ListRow.Before.asymm ListRow.Before.between
      (tables.live dashboardId)
    have shows := (fresh _ ⟨_, answers, rfl⟩).trans (views _)
    refine ⟨_, answers, ?_, shows⟩
    refine answers.strictly (wellFormed.live_unique dashboardId) ListRow.Before.asymm
      ListRow.Before.between fun other answers' => ?_
    have shows' := (fresh _ ⟨_, answers', rfl⟩).trans (views _)
    exact ids_of_views (shows'.symm.trans shows)
  · rintro ⟨rows, answers, strictly, shows⟩ answer ⟨other, answers', rfl⟩
    rw [views, answers'.unique ListRow.Before.asymm strictly answers.perm]
    exact shows

/-- The details are as every answer has them when the items have one order. -/
theorem getDetail_iff (wellFormed : tables.WellFormed) (listId : ListId) (cached : ListDetail) :
    ((∃ answer, tables.GetDetail listId answer) ∧
        ∀ answer, tables.GetDetail listId answer → cached.view = answer.view) ↔
      ∃ row answer, tables.ShowsDetail listId cached row answer := by
  constructor
  · rintro ⟨⟨_, row, member, named, live, _, _, _⟩, fresh⟩
    have same : ∀ items, GetList (tables.items listId) items →
        cached.view = ((listId, row.name, items.length), items) := by
      intro items listed
      rw [← named]
      exact fresh _ ⟨row, member, named, live, items, named ▸ listed, rfl⟩
    have answers := OrderedBy.insertionSort Row.Before.asymm Row.Before.between
      (tables.items listId)
    have read := same _ ⟨_, answers, rfl⟩
    have shownItems : cached.items = shown _ := congrArg Prod.snd read
    have unique : ((tables.items listId).map fun row => row.item.id).Nodup := by
      have nodup := wellFormed.itemsUnique listId
      rwa [ids, List.map_map] at nodup
    refine ⟨row, _, member, named, live, ?_, answers, ?_, shownItems.symm, ?_⟩
    · rw [shownItems]
      exact congrArg Prod.fst read
    · refine answers.strictly unique Row.Before.asymm Row.Before.between fun other answers' => ?_
      have others : cached.items = shown other := congrArg Prod.snd (same _ ⟨_, answers', rfl⟩)
      have sameIds := congrArg ids (others.symm.trans shownItems)
      rwa [ids, ids, List.map_map, List.map_map] at sameIds
    · rw [shownItems]
      exact (ids_perm answers.perm).nodup_iff.mpr (wellFormed.itemsUnique listId)
  · rintro ⟨row, answer, member, named, live, shows, represents⟩
    have listed : GetList (tables.items listId) cached.items :=
      ⟨answer, represents.answers, represents.shows.symm⟩
    refine ⟨⟨_, row, member, named, live, cached.items, listed, rfl⟩, ?_⟩
    rintro _ ⟨other, member', named', -, items, listed', rfl⟩
    obtain rfl := wellFormed.row_eq member member' (named.trans named'.symm)
    obtain rfl := represents.getList listed'
    rw [← named] at shows
    exact congrArg (·, cached.items) shows

end Tables

/-- Fresh caches, by the rows and items in the orders they have. -/
structure Shown (dashboardId : DashboardId) (tables : Tables) (caches : Caches) : Prop where
  summaries : ∃ cached, caches.summaries.data dashboardId = some cached ∧
    ∃ rows, tables.ShowsLists dashboardId cached rows
  details : ∀ listId cached, caches.details.data listId = some cached →
    tables.On dashboardId listId → ∃ row answer, tables.ShowsDetail listId cached row answer

theorem fresh_iff_shown {tables : Tables} (wellFormed : tables.WellFormed)
    (dashboardId : DashboardId) (caches : Caches) :
    Fresh dashboardId tables caches ↔ Shown dashboardId tables caches := by
  constructor
  · rintro ⟨⟨cached, loaded, fresh⟩, details⟩
    refine ⟨⟨cached, loaded, (Tables.getLists_iff wellFormed _ _).mp fresh⟩, ?_⟩
    intro listId detail loaded' here
    exact (Tables.getDetail_iff wellFormed _ _).mp (details listId detail loaded' here)
  · rintro ⟨⟨cached, loaded, shows⟩, details⟩
    refine ⟨⟨cached, loaded, (Tables.getLists_iff wellFormed _ _).mpr shows⟩, ?_⟩
    intro listId detail loaded' here
    exact (Tables.getDetail_iff wellFormed _ _).mpr (details listId detail loaded' here)

end FrontDashboard.Lists.Page
