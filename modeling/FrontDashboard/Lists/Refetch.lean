import FrontDashboard.Lists.Shows

/-! # Patched or fetched

After a mutation of its own the page does not fetch: its patches have to leave the caches
as a refetch would. For six of the nine mutations they do. A list or an item that is created,
and a list that is restored, is put last, where the server has it last only if the keys of
all others come before its own.
-/

namespace FrontDashboard.Lists.Page

variable {tables next : Tables} {dashboardId : DashboardId} {caches : Caches}
  {listId : ListId} {mutation : Mutation} {response : Response}

/-! ## Where a row is appended -/

theorem lt_appendOrder {orders : List Nat} (positive : ∃ order ∈ orders, 0 < order) {order : Nat}
    (member : order ∈ orders) : order < appendOrder orders := by
  obtain ⟨some', member', positive⟩ := positive
  rw [appendOrder]
  cases found : orders.max? with
  | none =>
      rw [List.max?_eq_none_iff] at found
      rw [found] at member
      cases member
  | some greatest =>
      have bound := (List.max?_eq_some_iff.mp found).2
      have first := bound _ member
      have second := bound _ member'
      cases greatest with
      | zero => omega
      | succ greatest =>
          dsimp only
          omega

theorem appendOrder_eq_zero {orders : List Nat} (zero : ∀ order ∈ orders, order = 0) :
    appendOrder orders = 0 := by
  rw [appendOrder]
  cases found : orders.max? with
  | none => rfl
  | some greatest =>
      rw [zero greatest (List.max?_mem found)]

/-- An order that is appended is after each of the others, unless it is 0 as they are. -/
theorem appended_last_iff {α : Type} (order createdAt : α → Nat) (rows : List α) (now : Nat) :
    (∀ row ∈ rows, order row < appendOrder (rows.map order) ∨
        order row = appendOrder (rows.map order) ∧ createdAt row < now) ↔
      (∃ row ∈ rows, 0 < order row) ∨ ∀ row ∈ rows, createdAt row < now := by
  by_cases positive : ∃ row ∈ rows, 0 < order row
  · refine iff_of_true (fun row member => Or.inl ?_) (Or.inl positive)
    obtain ⟨other, present, greater⟩ := positive
    exact lt_appendOrder ⟨_, List.mem_map_of_mem present, greater⟩ (List.mem_map_of_mem member)
  · have zero : ∀ row ∈ rows, order row = 0 := by
      intro row member
      exact Nat.eq_zero_of_not_pos fun greater => positive ⟨row, member, greater⟩
    have appended : appendOrder (rows.map order) = 0 := by
      refine appendOrder_eq_zero fun value member => ?_
      obtain ⟨row, present, rfl⟩ := List.mem_map.mp member
      exact zero row present
    rw [appended, or_iff_right positive]
    refine forall₂_congr fun row member => ?_
    rw [zero row member]
    simp

/-! ## The mutations -/

/-- The mutation is one of a dashboard. -/
def Mutation.On (dashboardId : DashboardId) (tables : Tables) : Mutation → Prop
  | .createList _ _ _ _ dashboard _ _ => dashboard = dashboardId
  | .updateListName _ id _ _ => tables.On dashboardId id
  | .deleteList _ id _ => tables.On dashboardId id
  | .restoreList _ id dashboard _ => dashboard = dashboardId ∧ tables.On dashboardId id
  | .reorderLists _ dashboard _ _ => dashboard = dashboardId
  | .addListItem _ listId _ _ _ => tables.On dashboardId listId
  | .updateListItem _ listId _ _ => tables.On dashboardId listId
  | .deleteListItem _ listId _ => tables.On dashboardId listId
  | .reorderListItems _ listId _ => tables.On dashboardId listId

/-- What a mutation puts last, the server has last: the others have not all the order 0, or
are older; a restored list comes after the others by its own order. -/
def Mutation.Last (tables : Tables) (caches : Caches) : Mutation → Prop
  | .createList _ _ _ _ dashboardId _ now =>
      (∃ row ∈ tables.live dashboardId, 0 < row.sortOrder) ∨
        ∀ row ∈ tables.live dashboardId, row.createdAt < now
  | .restoreList _ id dashboardId _ =>
      ∀ trashed ∈ tables.lists, trashed.id = id →
        ∀ row ∈ tables.live dashboardId, row.Before trashed
  | .addListItem _ listId _ _ now =>
      (caches.details.data listId).isSome = true →
        (∃ row ∈ tables.items listId, 0 < row.sortOrder) ∨
          ∀ row ∈ tables.items listId, row.createdAt < now
  | _ => True

/-! ## Lists that are not touched -/

theorem Tables.On.of_replace {updated row : ListRow} (member : row ∈ tables.lists)
    (sameId : updated.id = row.id) (sameDashboard : updated.dashboardId = row.dashboardId)
    (on : (tables.replace updated).On dashboardId listId) : tables.On dashboardId listId := by
  obtain ⟨other, member', named, here⟩ := on
  obtain ⟨before, present, rfl⟩ := List.mem_map.mp member'
  split_ifs at named here with same
  · exact ⟨row, member, sameId ▸ named, sameDashboard ▸ here⟩
  · exact ⟨before, present, named, here⟩

theorem Tables.mem_replace_of_ne {updated row : ListRow} (member : row ∈ tables.lists)
    (different : row.id ≠ updated.id) : row ∈ (tables.replace updated).lists :=
  List.mem_map.mpr ⟨row, member, if_neg different⟩

theorem Tables.mem_replace_self {updated row : ListRow} (member : row ∈ tables.lists)
    (sameId : updated.id = row.id) : updated ∈ (tables.replace updated).lists :=
  List.mem_map.mpr ⟨row, member, if_pos sameId.symm⟩

/-- With the details in order, it is the summaries that decide. -/
theorem shown_iff {lists : List ListSummary}
    (loaded : caches.summaries.data dashboardId = some lists)
    (details : ∀ listId cached, caches.details.data listId = some cached →
      next.On dashboardId listId → ∃ row answer, next.ShowsDetail listId cached row answer) :
    Shown dashboardId next caches ↔ ∃ rows, next.ShowsLists dashboardId lists rows := by
  constructor
  · rintro ⟨⟨cached, loaded', shows⟩, -⟩
    cases loaded.symm.trans loaded'
    exact shows
  · exact fun shows => ⟨⟨lists, loaded, shows⟩, details⟩

/-! ## Lists -/

section Lists

variable (wellFormed : tables.WellFormed) (before : Shown dashboardId tables caches)
include wellFormed before

/-- **A list that is created** is last where the server has it, if the others come first. -/
theorem shown_created_iff {userId : UserId} {name : String} {listType : ListType} {id : ListId}
    {now : Nat} (fresh : id ∉ tables.lists.map ListRow.id)
    (wellFormed' : Tables.WellFormed { tables with
      lists := tables.lists ++ [tables.created userId name listType dashboardId id now] }) :
    Shown dashboardId
        { tables with
          lists := tables.lists ++ [tables.created userId name listType dashboardId id now] }
        (caches.applyCreatedList
          ((tables.created userId name listType dashboardId id now).response 0)) ↔
      ∀ row ∈ tables.live dashboardId,
        row.Before (tables.created userId name listType dashboardId id now) := by
  obtain ⟨⟨cached, loaded, rows, shows⟩, details⟩ := before
  set row := tables.created userId name listType dashboardId id now
  have noItems : tables.items id = [] := wellFormed.orphanless id fresh
  have loaded' : (caches.applyCreatedList (row.response 0)).summaries.data dashboardId =
      some (cached ++ [row.response 0]) := by
    change (caches.summaries.updateWhere (· == dashboardId) _).data dashboardId = _
    rw [Entries.data] at loaded
    obtain ⟨state, here, data⟩ := Option.bind_eq_some_iff.mp loaded
    rw [Entries.data_updateWhere, here]
    simp [data]
  refine (shown_iff loaded' ?_).trans (shows.append_iff wellFormed' ?_ ?_ ?_)
  · intro listId detail loadedDetail on
    change (caches.details.seed id _).data listId = some detail at loadedDetail
    rw [Entries.data_seed] at loadedDetail
    split_ifs at loadedDetail with here
    · subst here
      cases loadedDetail
      refine ⟨row, [], List.mem_append_right _ List.mem_cons_self, rfl, rfl, rfl, ?_⟩
      rw [noItems]
      exact ⟨⟨.nil, .nil⟩, .nil, rfl, .nil⟩
    · obtain ⟨other, member, named, sameDashboard⟩ := on
      have old : other ∈ tables.lists := by
        rcases List.mem_append.mp member with old | new
        · exact old
        · rw [List.mem_singleton.mp new] at named
          exact absurd named.symm here
      obtain ⟨found, answer, shown⟩ := details listId detail loadedDetail
        ⟨other, old, named, sameDashboard⟩
      exact ⟨found, answer, shown.frame (List.mem_append_left _ shown.member) shown.named
        shown.live rfl rfl⟩
  · exact .of_eq (Tables.live_created rfl rfl)
  · exact fun _ _ => rfl
  · change (id, name, 0) = (id, name, (tables.items id).length)
    rw [noItems]
    rfl

/-- **A list that is renamed** is renamed in both caches. -/
theorem shown_renamed {id : ListId} {name : String} {now : Nat} {row : ListRow}
    (found : tables.row? false id = some row) :
    Shown dashboardId (tables.replace { row with name := name, updatedAt := now })
      (caches.updateListName id (ListRow.response { row with name := name, updatedAt := now }
        (tables.itemCount id))) := by
  obtain ⟨⟨cached, loaded, rows, shows⟩, details⟩ := before
  obtain ⟨member, named, -⟩ := Tables.of_row? found
  have isLive := Tables.deletedAt_of_row? found
  set updated : ListRow := { row with name := name, updatedAt := now }
  set response := updated.response (tables.itemCount id)
  have sameId : updated.id = row.id := rfl
  constructor
  · refine ⟨cached.map fun list => if list.id = id then response else list, ?_, _, shows.map
      (fun other => if other.id = row.id then { other with name := name, updatedAt := now }
        else other) ?_ ?_ ?_ _ ?_⟩
    · change (caches.patchListSummaryById id _).summaries.data dashboardId = _
      rw [Caches.data_patchListSummaryById_some, loaded, Option.map_some]
    · intro first second earlier
      unfold ListRow.Before at *
      split_ifs at earlier <;> exact earlier
    · intro first second earlier
      unfold ListRow.Before at *
      split_ifs <;> exact earlier
    · exact Tables.live_edited wellFormed member
        (fun other => { other with name := name, updatedAt := now }) rfl rfl rfl
    · intro list _ other member' view
      have sameIds : list.id = other.id := congrArg Prod.fst view
      rw [named, sameIds]
      split_ifs with here
      · change (row.id, name, tables.itemCount id) = (other.id, name, tables.itemCount other.id)
        rw [named, here]
      · exact view
  · intro listId detail loadedDetail on
    change (Caches.patchListDetailById id _ _).details.data listId = some detail at loadedDetail
    rw [Caches.data_patchListDetailById] at loadedDetail
    have onBefore := on.of_replace member sameId rfl
    split_ifs at loadedDetail with here
    · subst here
      obtain ⟨old, loadedOld, rfl⟩ := Option.map_eq_some_iff.mp loadedDetail
      obtain ⟨_, answer, shown⟩ := details listId old loadedOld onBefore
      refine ⟨updated, answer, Tables.mem_replace_self member sameId, named, isLive, ?_,
        shown.items⟩
      rw [← shown.view_itemCount, ← shown.view_id]
      rfl
    · obtain ⟨other, answer, shown⟩ := details listId detail loadedDetail onBefore
      refine ⟨other, answer, shown.frame (Tables.mem_replace_of_ne shown.member ?_) shown.named
        shown.live rfl rfl⟩
      rw [shown.named, sameId, named]
      exact here

omit wellFormed in
/-- **A list that is trashed** leaves both caches. -/
theorem shown_deleted {id : ListId} {now : Nat} {row : ListRow}
    (found : tables.row? false id = some row) :
    Shown dashboardId (tables.replace { row with deletedAt := some now, updatedAt := now })
      (caches.deleteList id) := by
  obtain ⟨⟨cached, loaded, rows, shows⟩, details⟩ := before
  obtain ⟨member, named, -⟩ := Tables.of_row? found
  set updated : ListRow := { row with deletedAt := some now, updatedAt := now }
  have sameId : updated.id = row.id := rfl
  have trashed : updated.deletedAt ≠ none := Option.some_ne_none now
  constructor
  · refine ⟨cached.filter fun list => list.id ≠ id, ?_, _, shows.without id ?_ fun _ => rfl⟩
    · change (caches.patchListSummaryById id _).summaries.data dashboardId = _
      rw [Caches.data_patchListSummaryById, loaded, Option.map_some, ← List.filterMap_eq_filter]
      congr 1
      apply List.filterMap_congr
      intro list _
      by_cases here : list.id = id
      · simp [Option.guard, here]
      · simp [Option.guard, here]
    · rw [Tables.live_deleted sameId trashed, named]
  · intro listId detail loadedDetail on
    change (caches.details.updateWhere (· == id) _).data listId = some detail at loadedDetail
    rw [Entries.data_updateWhere] at loadedDetail
    obtain ⟨state, here, data⟩ := Option.bind_eq_some_iff.mp loadedDetail
    have onBefore := on.of_replace member sameId rfl
    by_cases same : listId = id
    · simp [same] at data
    · have kept : caches.details.data listId = some detail := by
        rw [Entries.data, here]
        simpa [same] using data
      obtain ⟨other, answer, shown⟩ := details listId detail kept onBefore
      refine ⟨other, answer, shown.frame (Tables.mem_replace_of_ne shown.member ?_) shown.named
        shown.live rfl rfl⟩
      rw [shown.named, sameId, named]
      exact same

/-- **A list that is restored** is last where the server has it, if the others come first. -/
theorem shown_restored_iff {id : ListId} {now : Nat} {row : ListRow}
    (found : tables.row? true id = some row) (here : row.dashboardId = dashboardId) :
    Shown dashboardId (tables.replace { row with deletedAt := none, updatedAt := now })
        (caches.restoreList id dashboardId
          (ListRow.response { row with deletedAt := none, updatedAt := now }
            (tables.itemCount id))) ↔
      ∀ other ∈ tables.live dashboardId, other.Before row := by
  obtain ⟨⟨cached, loaded, rows, shows⟩, details⟩ := before
  obtain ⟨member, named, isTrashed⟩ := Tables.of_row? found
  have trashed : row.deletedAt ≠ none := Option.isSome_iff_ne_none.mp isTrashed
  have notLive : ∀ other ∈ tables.lists, other.id = id → other.deletedAt ≠ none := by
    intro other member' same
    rw [wellFormed.row_eq member' member (same.trans named.symm)]
    exact trashed
  set updated : ListRow := { row with deletedAt := none, updatedAt := now }
  have sameId : updated.id = row.id := rfl
  have wellFormed' : (tables.replace updated).WellFormed :=
    wellFormed.of_lists (Tables.replace_ids updated tables)
  have absent : (cached.filter fun list => list.id ≠ id) = cached := by
    rw [List.filter_eq_self]
    intro list present
    have listed := (shows.mem_cached_ids list.id).mp (List.mem_map_of_mem present)
    obtain ⟨other, isLive, same⟩ := List.mem_map.mp listed
    have onDashboard := Tables.mem_live.mp isLive
    refine decide_eq_true fun named' => ?_
    exact notLive other onDashboard.1 (same.trans named') onDashboard.2.2
  have loaded' : (caches.restoreList id dashboardId
      (updated.response (tables.itemCount id))).summaries.data dashboardId =
        some (cached ++ [updated.response (tables.itemCount id)]) := by
    change (caches.summaries.updateWhere (· == dashboardId) _).data dashboardId = _
    rw [Entries.data_updateWhere_map, beq_self_eq_true, if_pos rfl, loaded, Option.map_some, absent]
  have view : (updated.response (tables.itemCount id)).view =
      (tables.replace updated).viewOf updated := by
    change (row.id, row.name, tables.itemCount id) = (row.id, row.name, tables.itemCount row.id)
    rw [named]
  have appended := shows.append_iff wellFormed'
    (Tables.live_restored wellFormed member trashed sameId here rfl) (fun _ _ => rfl) view
  refine (shown_iff loaded' ?_).trans appended
  intro listId detail loadedDetail on
  change caches.details.data listId = some detail at loadedDetail
  obtain ⟨other, answer, shown⟩ := details listId detail loadedDetail
    (on.of_replace member sameId rfl)
  refine ⟨other, answer, shown.frame (Tables.mem_replace_of_ne shown.member ?_) shown.named
    shown.live rfl rfl⟩
  intro same
  exact notLive other shown.member (same.trans named) shown.live

/-- **Lists in another order** are put in that order. -/
theorem shown_reordered {orderedIds : List ListId} {stamp : ListRow → Nat}
    (distinct : orderedIds.Nodup)
    (same : ∀ id, id ∈ orderedIds ↔ id ∈ (tables.live dashboardId).map ListRow.id) :
    Shown dashboardId (tables.renumberLists dashboardId orderedIds stamp)
      (caches.reorderLists dashboardId orderedIds) := by
  obtain ⟨⟨cached, loaded, rows, shows⟩, details⟩ := before
  constructor
  · refine ⟨_, ?_, shows.reordered wellFormed distinct same stamp⟩
    change (Entries.updateWhere (· == dashboardId) _
      (caches.summaries.ensure dashboardId)).data dashboardId = _
    rw [Entries.data_updateWhere_map, beq_self_eq_true, if_pos rfl, Entries.data_ensure, loaded,
      Option.map_some]
  · intro listId detail loadedDetail on
    change caches.details.data listId = some detail at loadedDetail
    have onBefore : tables.On dashboardId listId := by
      obtain ⟨_, member, named, here⟩ := on
      obtain ⟨old, present, rfl⟩ := List.mem_map.mp member
      split_ifs at named here with isLive
      · exact ⟨old, present, named, isLive.1⟩
      · exact ⟨old, present, named, here⟩
    obtain ⟨other, answer, shown⟩ := details listId detail loadedDetail onBefore
    have renumbered := List.mem_map_of_mem (f := fun row : ListRow =>
      if row.dashboardId = dashboardId ∧ row.deletedAt = none then
        { row with sortOrder := orderedIds.idxOf row.id, updatedAt := stamp row }
      else row) shown.member
    by_cases isLive : other.dashboardId = dashboardId ∧ other.deletedAt = none
    · rw [if_pos isLive] at renumbered
      exact ⟨_, answer, shown.frame renumbered shown.named shown.live rfl rfl⟩
    · rw [if_neg isLive] at renumbered
      exact ⟨_, answer, shown.frame renumbered shown.named shown.live rfl rfl⟩

end Lists

end FrontDashboard.Lists.Page
