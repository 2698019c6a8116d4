import FrontDashboard.Resync.Commits

/-! # What is kept of some dashboards

Between two states, what stays of the rows of some dashboards when no event of theirs names
their kind. A board then only loses widgets, to the deletion of a list, and its version says
so; lists only move and are joined by new ones, which are empty; the calendar stays.
-/

namespace FrontDashboard.Resync

open Calendar (CalendarEvent)
open Lists.Page (ListRow)

variable {ids : List DashboardId} {before middle after : Tables}

/-! ## Boards -/

/-- A dashboard with its widgets. -/
abbrev Board := Dashboard × List Widget

namespace Tables

/-- The boards of some dashboards. -/
def boards (ids : List DashboardId) (tables : Tables) : List Board :=
  (tables.dashboards.filter fun row => row.id ∈ ids).map fun row =>
    (row, tables.widgetsOf row.id)

/-- A dashboard among the asked ones is shown with its widgets. -/
theorem mem_boards {tables : Tables} {row : Dashboard} (listed : row ∈ tables.dashboards)
    (member : row.id ∈ ids) : (row, tables.widgetsOf row.id) ∈ tables.boards ids :=
  List.mem_map_of_mem (List.mem_filter.mpr ⟨listed, decide_eq_true member⟩)

end Tables

/-- At most widgets were taken from a board, and its version counts how often. -/
structure Unbinds (board next : Board) : Prop where
  row : next.1 =
    { board.1 with
      layout := next.1.layout, version := next.1.version, updatedAt := next.1.updatedAt }
  counts : board.1.version ≤ next.1.version
  same : board.1.version = next.1.version → next = board

theorem Unbinds.refl (board : Board) : Unbinds board board := ⟨rfl, le_refl _, fun _ => rfl⟩

theorem Unbinds.trans {board next last : Board} (first : Unbinds board next)
    (second : Unbinds next last) : Unbinds board last where
  row := by
    rw [second.row, first.row]
  counts := first.counts.trans second.counts
  same := by
    intro same
    have middle : board.1.version = next.1.version :=
      le_antisymm first.counts (same ▸ second.counts)
    rw [second.same (middle ▸ same), first.same middle]

/-- A board that is unbound keeps its id, its owner and its place in the trash. -/
theorem Unbinds.id {board next : Board} (unbinds : Unbinds board next) :
    next.1.id = board.1.id :=
  (congrArg Dashboard.id unbinds.row).trans rfl

theorem Unbinds.owner {board next : Board} (unbinds : Unbinds board next) :
    next.1.userId = board.1.userId :=
  (congrArg Dashboard.userId unbinds.row).trans rfl

theorem Unbinds.deletedAt {board next : Board} (unbinds : Unbinds board next) :
    next.1.deletedAt = board.1.deletedAt :=
  (congrArg Dashboard.deletedAt unbinds.row).trans rfl

/-- What is kept of the boards, of who may see them and of whose favorites they are. -/
structure BoardsKept (ids : List DashboardId) (before after : Tables) : Prop where
  boards : ∃ change : Board → Board, (∀ board ∈ before.boards ids, Unbinds board (change board)) ∧
    after.boards ids = (before.boards ids).map change
  shares : ∀ id ∈ ids, after.shares id = before.shares id
  favorites : ∀ id ∈ ids, ∀ user, id ∈ after.favorites user ↔ id ∈ before.favorites user

namespace BoardsKept

theorem refl (tables : Tables) : BoardsKept ids tables tables :=
  ⟨⟨fun board => board, fun board _ => .refl board, (List.map_id' _).symm⟩, fun _ _ => rfl,
    fun _ _ _ => .rfl⟩

theorem trans (first : BoardsKept ids before middle) (second : BoardsKept ids middle after) :
    BoardsKept ids before after where
  boards := by
    obtain ⟨change, unbinds, same⟩ := first.boards
    obtain ⟨next, unbinds', same'⟩ := second.boards
    refine ⟨fun board => next (change board), fun board member => ?_, ?_⟩
    · refine (unbinds board member).trans (unbinds' _ ?_)
      rw [same]
      exact List.mem_map_of_mem member
    · rw [same', same, List.map_map]
      rfl
  shares := fun id member => (second.shares id member).trans (first.shares id member)
  favorites := fun id member user =>
    (second.favorites id member user).trans (first.favorites id member user)

end BoardsKept

/-- What is kept of the boards as one user is shown them. -/
structure BoardsShown (user : UserId) (ids : List DashboardId) (before after : Tables) : Prop where
  boards : ∃ change : Board → Board, (∀ board ∈ before.boards ids, Unbinds board (change board)) ∧
    after.boards ids = (before.boards ids).map change
  shares : ∀ id ∈ ids, after.shares id = before.shares id
  favorites : ∀ id ∈ ids, id ∈ after.favorites user ↔ id ∈ before.favorites user

/-- Boards that are kept look the same. -/
theorem BoardsKept.shown (kept : BoardsKept ids before after) (user : UserId) :
    BoardsShown user ids before after :=
  ⟨kept.boards, kept.shares, fun id member => kept.favorites id member user⟩

/-! ## Lists -/

/-- A list somewhere else. -/
def moved (place : ListRow → Nat × Time) (row : ListRow) : ListRow :=
  { row with sortOrder := (place row).1, updatedAt := (place row).2 }

/-- What is kept of the lists. -/
structure ListsKept (ids : List DashboardId) (before after : Lists.Page.Tables) : Prop where
  live : ∀ id ∈ ids, ∃ place fresh, after.live id = (before.live id).map (moved place) ++ fresh ∧
    ∀ row ∈ fresh, after.items row.id = []
  items : ∀ id ∈ ids, ∀ row ∈ before.live id, after.items row.id = before.items row.id

namespace ListsKept

theorem refl (tables : Lists.Page.Tables) : ListsKept ids tables tables :=
  ⟨fun _ _ => ⟨fun row => (row.sortOrder, row.updatedAt), [],
    (by rw [List.append_nil]; exact (List.map_id' _).symm), fun _ none =>
    (List.not_mem_nil none).elim⟩,
    fun _ _ _ _ => rfl⟩

/-- A kept list is still live, at a place that may have moved. -/
theorem mem_live {before after : Lists.Page.Tables} (kept : ListsKept ids before after)
    {id : DashboardId} (member : id ∈ ids) {row : ListRow} (live : row ∈ before.live id) :
    ∃ place, moved place row ∈ after.live id := by
  obtain ⟨place, fresh, same, -⟩ := kept.live id member
  exact ⟨place, same ▸ List.mem_append_left _ (List.mem_map_of_mem live)⟩

theorem trans {before middle after : Lists.Page.Tables} (first : ListsKept ids before middle)
    (second : ListsKept ids middle after) : ListsKept ids before after where
  live := by
    intro id member
    obtain ⟨place, fresh, same, empty⟩ := first.live id member
    obtain ⟨next, fresh', same', empty'⟩ := second.live id member
    refine ⟨fun row => next (moved place row), fresh.map (moved next) ++ fresh', ?_, ?_⟩
    · rw [same', same, List.map_append, List.map_map, List.append_assoc]
      rfl
    · intro row added
      rcases List.mem_append.mp added with old | new
      · obtain ⟨origin, listed, rfl⟩ := List.mem_map.mp old
        have live : origin ∈ middle.live id := same ▸ List.mem_append_right _ listed
        exact (second.items id member origin live).trans (empty origin listed)
      · exact empty' row new
  items := by
    intro id member row live
    obtain ⟨place, live'⟩ := first.mem_live member live
    exact (second.items id member _ live').trans (first.items id member row live)

end ListsKept

/-- The lists stay. -/
structure ListsApart (ids : List DashboardId) (before after : Lists.Page.Tables) : Prop where
  live : ∀ id ∈ ids, after.live id = before.live id
  items : ∀ id ∈ ids, ∀ row ∈ before.live id, after.items row.id = before.items row.id

namespace ListsApart

theorem refl (tables : Lists.Page.Tables) : ListsApart ids tables tables :=
  ⟨fun _ _ => rfl, fun _ _ _ _ => rfl⟩

theorem trans {before middle after : Lists.Page.Tables} (first : ListsApart ids before middle)
    (second : ListsApart ids middle after) : ListsApart ids before after where
  live := fun id member => (second.live id member).trans (first.live id member)
  items := by
    intro id member row live
    have live' : row ∈ middle.live id := first.live id member ▸ live
    exact (second.items id member row live').trans (first.items id member row live)

/-- Lists that are left alone are kept. -/
theorem kept {before after : Lists.Page.Tables} (apart : ListsApart ids before after) :
    ListsKept ids before after where
  live := by
    intro id member
    refine ⟨fun row => (row.sortOrder, row.updatedAt), [], ?_, fun _ none =>
      (List.not_mem_nil none).elim⟩
    rw [List.append_nil, apart.live id member]
    exact (List.map_id' _).symm
  items := apart.items

end ListsApart

/-! ## Calendar -/

/-- What is kept of the calendar: everything. -/
structure CalendarKept (ids : List DashboardId) (before after : Calendar.Tables) : Prop where
  events : after.events.filter (fun event => event.dashboardId ∈ ids) =
    before.events.filter fun event => event.dashboardId ∈ ids
  overrides : ∀ event ∈ before.events, event.dashboardId ∈ ids →
    after.overridesOf event.id = before.overridesOf event.id

namespace CalendarKept

theorem refl (tables : Calendar.Tables) : CalendarKept ids tables tables :=
  ⟨rfl, fun _ _ _ => rfl⟩

/-- The events of a kept dashboard are those it had. -/
theorem mem_events {before after : Calendar.Tables} (kept : CalendarKept ids before after)
    {event : CalendarEvent} (member : event.dashboardId ∈ ids) :
    event ∈ after.events ↔ event ∈ before.events := by
  have same := congrArg (event ∈ ·) kept.events
  simpa [member] using same

theorem trans {before middle after : Calendar.Tables} (first : CalendarKept ids before middle)
    (second : CalendarKept ids middle after) : CalendarKept ids before after where
  events := second.events.trans first.events
  overrides := by
    intro event listed member
    have listed' := (first.mem_events member).mpr listed
    exact (second.overrides event listed' member).trans (first.overrides event listed member)

end CalendarKept

end FrontDashboard.Resync
