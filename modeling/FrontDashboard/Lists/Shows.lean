import FrontDashboard.Lists.Carried

/-! # Rows as they are cached

How the rows of a dashboard and the items of a list go on being shown by a cache when both
change: in place, by leaving one out, by adding one at the end, or by a new order.
-/

namespace FrontDashboard.Lists.Page

variable {tables next : Tables} {dashboardId : DashboardId} {cached : List ListSummary}
  {rows : List ListRow} {caches : Caches}

/-! ## The summaries -/

namespace Tables.ShowsLists

theorem cached_ids (shows : tables.ShowsLists dashboardId cached rows) :
    cached.map ListSummary.id = rows.map ListRow.id := by
  have firsts := congrArg (List.map Prod.fst) shows.shows
  rwa [List.map_map, List.map_map] at firsts

theorem mem_cached_ids (shows : tables.ShowsLists dashboardId cached rows) (id : ListId) :
    id ∈ cached.map ListSummary.id ↔ id ∈ (tables.live dashboardId).map ListRow.id := by
  rw [shows.cached_ids]
  exact (shows.answers.perm.map ListRow.id).mem_iff

theorem unique (shows : tables.ShowsLists dashboardId cached rows)
    (wellFormed : tables.WellFormed) :
    (cached.map ListSummary.id).Nodup := by
  rw [shows.cached_ids]
  exact (shows.answers.perm.map ListRow.id).nodup_iff.mpr (wellFormed.live_unique dashboardId)

/-- Rows that change in place, with summaries that change as they do. -/
theorem map (shows : tables.ShowsLists dashboardId cached rows) (change : ListRow → ListRow)
    (keeps : ∀ row other, (change row).Before (change other) → row.Before other)
    (keepsStrictly : ∀ row other, row.Before other → (change row).Before (change other))
    (live : next.live dashboardId = (tables.live dashboardId).map change)
    (patch : ListSummary → ListSummary)
    (views : ∀ list ∈ cached, ∀ row ∈ tables.live dashboardId, list.view = tables.viewOf row →
      (patch list).view = next.viewOf (change row)) :
    next.ShowsLists dashboardId (cached.map patch) (rows.map change) := by
  refine ⟨?_, ?_, ?_⟩
  · rw [live]
    exact shows.answers.map keeps
  · rw [List.pairwise_map]
    exact shows.strictly.imp fun earlier => keepsStrictly _ _ earlier
  · have subset : ∀ row ∈ rows, row ∈ tables.live dashboardId := fun row member =>
      shows.answers.perm.subset member
    have same := shows.shows
    clear shows live
    rw [List.map_map, List.map_map]
    induction cached generalizing rows with
    | nil =>
        rw [List.map_eq_nil_iff.mp same.symm]
        rfl
    | cons list others ih =>
        cases rows with
        | nil => cases same
        | cons row rest =>
            obtain ⟨first, later⟩ := List.cons.inj same
            have here := views list List.mem_cons_self row (subset row List.mem_cons_self) first
            have rest' := ih (fun other member => views other (List.mem_cons_of_mem list member))
              (fun other member => subset other (List.mem_cons_of_mem row member)) later
            rw [List.map_cons, List.map_cons, rest']
            exact congrArg (· :: _) here

/-- A row that is left out, with its summary. -/
theorem without (shows : tables.ShowsLists dashboardId cached rows) (id : ListId)
    (live : next.live dashboardId = (tables.live dashboardId).filter fun row => row.id ≠ id)
    (views : ∀ row, next.viewOf row = tables.viewOf row) :
    next.ShowsLists dashboardId (cached.filter fun list => list.id ≠ id)
      (rows.filter fun row => row.id ≠ id) := by
  refine ⟨?_, shows.strictly.filter _, ?_⟩
  · rw [live]
    exact shows.answers.filter _
  · have filtered := congrArg (List.filter fun view : ListId × String × Nat => view.1 ≠ id)
      shows.shows
    rw [List.filter_map, List.filter_map] at filtered
    rw [show next.viewOf = tables.viewOf from funext views]
    exact filtered

/-- A row that is added, with its summary at the end. -/
theorem append_iff (shows : tables.ShowsLists dashboardId cached rows)
    (wellFormed : next.WellFormed)
    {row : ListRow} (live : (next.live dashboardId).Perm (tables.live dashboardId ++ [row]))
    (views : ∀ row ∈ tables.live dashboardId, next.viewOf row = tables.viewOf row)
    {list : ListSummary} (view : list.view = next.viewOf row) :
    (∃ rows', next.ShowsLists dashboardId (cached ++ [list]) rows') ↔
      ∀ other ∈ tables.live dashboardId, other.Before row := by
  have sameViews : rows.map next.viewOf = rows.map tables.viewOf :=
    List.map_congr_left fun row member => views row (shows.answers.perm.subset member)
  have unique : ((next.live dashboardId).map next.viewOf).Nodup := by
    apply List.Nodup.of_map Prod.fst
    rw [List.map_map]
    exact wellFormed.live_unique dashboardId
  have together : (cached ++ [list]).map ListSummary.view = (rows ++ [row]).map next.viewOf := by
    rw [List.map_append, List.map_append, sameViews, shows.shows, List.map_singleton,
      List.map_singleton, view]
  rw [← OrderedBy.append_iff live unique ListRow.Before.asymm shows.answers shows.strictly]
  constructor
  · rintro ⟨rows', answers, strictly, shows'⟩
    exact ⟨rows', answers, strictly, shows'.symm.trans together⟩
  · rintro ⟨rows', answers, strictly, same⟩
    exact ⟨rows', answers, strictly, together.trans same.symm⟩

end Tables.ShowsLists

/-! ## The lists of a dashboard after a mutation -/

namespace Tables

theorem live_created {row : ListRow} (here : row.dashboardId = dashboardId)
    (isLive : row.deletedAt = none) :
    ({ tables with lists := tables.lists ++ [row] } : Tables).live dashboardId =
      tables.live dashboardId ++ [row] := by
  simp [live, List.filter_append, here, isLive]

/-- An edit of a row that keeps its dashboard and keeps it out of the trash. -/
theorem live_edited (wellFormed : tables.WellFormed) {row : ListRow} (member : row ∈ tables.lists)
    (edit : ListRow → ListRow) (keepsId : (edit row).id = row.id)
    (keepsDashboard : (edit row).dashboardId = row.dashboardId)
    (keepsLive : (edit row).deletedAt = row.deletedAt) :
    (tables.replace (edit row)).live dashboardId =
      (tables.live dashboardId).map fun other => if other.id = row.id then edit other
      else other := by
  have same : ∀ other ∈ tables.lists, other.id = row.id → other = row := fun other member' named =>
    wellFormed.row_eq member' member named
  have edited : (tables.replace (edit row)).lists =
      tables.lists.map fun other => if other.id = row.id then edit other else other := by
    apply List.map_congr_left
    intro other member'
    rw [keepsId]
    split_ifs with named
    · rw [same other member' named]
    · rfl
  rw [live, live, edited, List.filter_map]
  congr 1
  apply List.filter_congr
  intro other member'
  simp only [Function.comp_apply]
  split_ifs with named
  · rw [same other member' named, keepsDashboard, keepsLive]
  · rfl

theorem live_deleted {row updated : ListRow} (sameId : updated.id = row.id)
    (trashed : updated.deletedAt ≠ none) :
    (tables.replace updated).live dashboardId =
      (tables.live dashboardId).filter fun other => other.id ≠ row.id := by
  rw [live, live, replace, List.filter_map, List.filter_filter]
  have kept : ∀ other : ListRow,
      ((fun row : ListRow => decide (row.dashboardId = dashboardId ∧ row.deletedAt = none)) ∘
        fun row => if row.id = updated.id then updated else row) other =
      (decide (other.id ≠ row.id) &&
        decide (other.dashboardId = dashboardId ∧ other.deletedAt = none)) := by
    intro other
    rw [Function.comp_apply, sameId]
    by_cases named : other.id = row.id
    · simp [named, trashed]
    · simp [named]
  rw [funext kept]
  conv_rhs => rw [← List.map_id (List.filter _ tables.lists)]
  apply List.map_congr_left
  intro other member
  have different : other.id ≠ row.id := by
    have passes := (List.mem_filter.mp member).2
    rw [Bool.and_eq_true] at passes
    exact of_decide_eq_true passes.1
  rw [sameId, if_neg different]
  rfl

theorem live_restored (wellFormed : tables.WellFormed) {row updated : ListRow}
    (member : row ∈ tables.lists) (trashed : row.deletedAt ≠ none) (sameId : updated.id = row.id)
    (here : updated.dashboardId = dashboardId) (isLive : updated.deletedAt = none) :
    ((tables.replace updated).live dashboardId).Perm (tables.live dashboardId ++ [updated]) := by
  obtain ⟨front, back, split⟩ := List.append_of_mem member
  have unique := wellFormed.unique
  rw [split, List.map_append, List.map_cons, List.nodup_middle] at unique
  have others : ∀ other ∈ front ++ back, other.id ≠ row.id := by
    intro other present same
    refine (List.nodup_cons.mp unique).1 ?_
    rw [← List.map_append]
    exact List.mem_map.mpr ⟨other, present, same⟩
  have unchanged : ∀ rows : List ListRow, (∀ other ∈ rows, other ∈ front ++ back) →
      (rows.map fun other => if other.id = updated.id then updated else other) = rows := by
    intro rows among
    conv_rhs => rw [← List.map_id rows]
    apply List.map_congr_left
    intro other present
    rw [sameId, if_neg (others other (among other present))]
    rfl
  have replaced : (tables.replace updated).lists = front ++ updated :: back := by
    rw [replace, split, List.map_append, List.map_cons, sameId.symm, if_pos rfl,
      unchanged front fun _ => List.mem_append_left back,
      unchanged back fun _ => List.mem_append_right front]
  rw [live, live, replaced, split, List.filter_append, List.filter_append,
    List.filter_cons_of_pos (by simp [here, isLive]), List.filter_cons_of_neg (by simp [trashed])]
  exact List.perm_middle.trans (List.perm_append_singleton _ _).symm

theorem live_renumbered (orderedIds : List ListId) (stamp : ListRow → Nat) :
    (tables.renumberLists dashboardId orderedIds stamp).live dashboardId =
      (tables.live dashboardId).map fun row =>
        { row with sortOrder := orderedIds.idxOf row.id, updatedAt := stamp row } := by
  rw [live, live, renumberLists, List.filter_map]
  have kept : ∀ row : ListRow,
      ((fun row : ListRow => decide (row.dashboardId = dashboardId ∧ row.deletedAt = none)) ∘
        fun row => if row.dashboardId = dashboardId ∧ row.deletedAt = none then
          { row with sortOrder := orderedIds.idxOf row.id, updatedAt := stamp row } else row) row =
      decide (row.dashboardId = dashboardId ∧ row.deletedAt = none) := by
    intro row
    rw [Function.comp_apply]
    split_ifs with isLive
    · rfl
    · rfl
  rw [funext kept]
  apply List.map_congr_left
  intro row member
  exact if_pos (of_decide_eq_true (List.mem_filter.mp member).2)

end Tables

/-- In a list of distinct ids the positions increase. -/
theorem idxOf_increasing {orderedIds : List Nat} (distinct : orderedIds.Nodup) :
    orderedIds.Pairwise fun id later => orderedIds.idxOf id < orderedIds.idxOf later := by
  rw [List.pairwise_iff_getElem]
  intro first second inBounds inBounds' earlier
  rw [distinct.idxOf_getElem first inBounds, distinct.idxOf_getElem second inBounds']
  exact earlier

/-- The lists in the order that was asked for. -/
theorem Tables.ShowsLists.reordered (shows : tables.ShowsLists dashboardId cached rows)
    (wellFormed : tables.WellFormed) {orderedIds : List ListId} (distinct : orderedIds.Nodup)
    (same : ∀ id, id ∈ orderedIds ↔ id ∈ (tables.live dashboardId).map ListRow.id)
    (stamp : ListRow → Nat) :
    ∃ rows', (tables.renumberLists dashboardId orderedIds stamp).ShowsLists dashboardId
      ((Reorder.byKeys ListSummary.id cached orderedIds).getD cached) rows' := by
  set number : ListRow → ListRow := fun row =>
    { row with sortOrder := orderedIds.idxOf row.id, updatedAt := stamp row }
  have numbered : (tables.renumberLists dashboardId orderedIds stamp).live dashboardId =
      (tables.live dashboardId).map number := Tables.live_renumbered orderedIds stamp
  have sameIds : ((tables.live dashboardId).map number).map ListRow.id =
      (tables.live dashboardId).map ListRow.id := by
    rw [List.map_map]
    rfl
  have unique := wellFormed.live_unique dashboardId
  have asked : orderedIds.Perm (((tables.live dashboardId).map number).map ListRow.id) := by
    rw [sameIds]
    exact (List.perm_ext_iff_of_nodup distinct unique).mpr same
  have asked' : orderedIds.Perm (cached.map ListSummary.id) :=
    (List.perm_ext_iff_of_nodup distinct (shows.unique wellFormed)).mpr
      fun id => (same id).trans (shows.mem_cached_ids id).symm
  obtain ⟨rows', ordered⟩ := Reorder.byKeys_of_perm distinct asked
  obtain ⟨lists, ordered'⟩ := Reorder.byKeys_of_perm distinct asked'
  obtain ⟨rowIds, rowsPerm⟩ := Reorder.byKeys_eq_some ordered
  obtain ⟨listIds, listsPerm⟩ := Reorder.byKeys_eq_some ordered'
  rw [ordered', Option.getD_some]
  have strictly : rows'.Pairwise ListRow.Before := by
    have increasing := idxOf_increasing distinct
    rw [← rowIds, List.pairwise_map] at increasing
    refine increasing.imp_of_mem fun {row other} member member' less => Or.inl ?_
    obtain ⟨_, _, rfl⟩ := List.mem_map.mp (rowsPerm.subset member)
    obtain ⟨_, _, rfl⟩ := List.mem_map.mp (rowsPerm.subset member')
    rw [rowIds] at less
    exact less
  refine ⟨rows', ⟨?_, strictly.imp fun earlier => ListRow.Before.asymm _ _ earlier⟩, strictly, ?_⟩
  · rw [numbered]
    exact rowsPerm
  · have views : (rows'.map (tables.renumberLists dashboardId orderedIds stamp).viewOf).Perm
        (cached.map ListSummary.view) := by
      rw [shows.shows]
      refine (rowsPerm.map _).trans ?_
      rw [List.map_map]
      exact (shows.answers.perm.symm.map tables.viewOf)
    have uniqueViews : ((cached.map ListSummary.view).map Prod.fst).Nodup := by
      rw [List.map_map]
      exact shows.unique wellFormed
    refine Reorder.eq_of_keys uniqueViews (fun view member => (listsPerm.map _).subset member)
      (fun view member => views.subset member) ?_
    rw [List.map_map, List.map_map]
    exact listIds.trans rowIds.symm

/-! ## The details -/

namespace Tables.ShowsDetail

variable {listId : ListId} {detail : ListDetail} {row : ListRow} {answer rows : List Row}

/-- A list whose row keeps its name and whose items are as they were. -/
theorem frame (shows : tables.ShowsDetail listId detail row answer) {row' : ListRow}
    (member : row' ∈ next.lists) (named : row'.id = listId) (live : row'.deletedAt = none)
    (sameName : row'.name = row.name) (sameItems : next.items listId = tables.items listId) :
    next.ShowsDetail listId detail row' answer :=
  ⟨member, named, live, sameName ▸ shows.shows, sameItems ▸ shows.items⟩

/-- A request on the items that keeps their number in step. -/
theorem serve (shows : tables.ShowsDetail listId detail row answer) {request : ItemRequest}
    {rows : List Row} (served : Served (tables.items listId) request rows)
    (later : ∀ createdAt ∈ request.createdAt?, ∀ row ∈ tables.items listId,
      row.createdAt < createdAt) {detail' : ListDetail}
    (view : detail'.toListSummary.view = (listId, row.name, detail'.items.length))
    (items : detail'.items = request.apply detail.items) :
    ∃ answer', (tables.setItems listId rows).ShowsDetail listId detail' row answer' := by
  refine ⟨request.display answer, shows.member, shows.named, shows.live, view, ?_⟩
  rw [Tables.setItems_items, if_pos rfl, items]
  exact shows.items.serve served later

theorem view_id (shows : tables.ShowsDetail listId detail row answer) : detail.id = listId :=
  congrArg Prod.fst shows.shows

theorem view_name (shows : tables.ShowsDetail listId detail row answer) : detail.name = row.name :=
  congrArg (fun view => view.2.1) shows.shows

theorem view_itemCount (shows : tables.ShowsDetail listId detail row answer) :
    detail.itemCount = detail.items.length :=
  congrArg (fun view => view.2.2) shows.shows

/-- An item that is added, at the end. -/
theorem append_iff (shows : tables.ShowsDetail listId detail row answer)
    (wellFormed : (tables.setItems listId rows).WellFormed) {new : Row}
    (added : rows = new :: tables.items listId) :
    (∃ row' answer', (tables.setItems listId rows).ShowsDetail listId
        { detail with items := detail.items ++ [new.item], itemCount := detail.itemCount + 1 } row'
          answer') ↔
      ∀ other ∈ tables.items listId, other.Before new := by
  have distinct : (ids (shown rows)).Nodup := by
    have unique := wellFormed.itemsUnique listId
    rwa [Tables.setItems_items, if_pos rfl] at unique
  have together : shown (answer ++ [new]) = detail.items ++ [new.item] := by
    rw [shown, List.map_append, List.map_singleton]
    exact congrArg (· ++ [new.item]) shows.items.shows
  have listed : (rows).Perm (tables.items listId ++ [new]) :=
    added ▸ (List.perm_append_singleton new (tables.items listId)).symm
  rw [← OrderedBy.append_iff listed (List.Nodup.of_map ListItem.id distinct) Row.Before.asymm
    shows.items.answers shows.items.strictly]
  constructor
  · rintro ⟨row', answer', shows'⟩
    have items := shows'.items
    rw [Tables.setItems_items, if_pos rfl] at items
    exact ⟨answer', items.answers, items.strictly, items.shows.trans together.symm⟩
  · rintro ⟨answer', answers, strictly, same⟩
    have shows' := same.trans together
    refine ⟨row, answer', shows.member, shows.named, shows.live, ?_, ?_⟩
    · rw [List.length_append, List.length_singleton, ← shows.view_itemCount, ← shows.view_id,
        ← shows.view_name]
      rfl
    · rw [Tables.setItems_items, if_pos rfl]
      refine ⟨answers, strictly, shows', ?_⟩
      rw [← shows']
      exact (ids_perm answers.perm).nodup_iff.mpr distinct

end Tables.ShowsDetail

end FrontDashboard.Lists.Page
