import FrontDashboard.Lists.Refetch

/-! # Items, patched or fetched

The patches of the page for the four mutations of a list's items. An item that is added is
put last in the cached detail, if there is one.
-/

namespace FrontDashboard.Lists.Page

variable {tables : Tables} {dashboardId : DashboardId} {caches : Caches} {listId : ListId}

theorem nextOrder_eq_appendOrder (rows : List Row) :
    nextOrder rows = appendOrder (rows.map Row.sortOrder) := by
  cases found : (rows.map Row.sortOrder).max? with
  | none => simp only [nextOrder, appendOrder, found]
  | some order => cases order <;> simp only [nextOrder, appendOrder, found]

/-- One row fewer, where a key is left out that one row has. -/
theorem length_filter_key {α : Type} {key : α → Nat} {rows : List α} {target : Nat}
    (unique : (rows.map key).Nodup) (present : target ∈ rows.map key) :
    (rows.filter fun row => key row ≠ target).length = rows.length - 1 := by
  have keys : (rows.filter fun row => key row ≠ target).map key =
      (rows.map key).erase target := by
    rw [unique.erase_eq_filter, List.filter_map]
    congr 1
    apply List.filter_congr
    intro row _
    rw [Function.comp_apply]
    by_cases here : key row = target
    · simp [here]
    · simp [here]
  have lengths := congrArg List.length keys
  rwa [List.length_map, List.length_erase_of_mem present, List.length_map] at lengths

/-- The page's order is the one that was asked for. -/
theorem byKeys_eq_arranged {items : List ListItem} {orderedIds : List ItemId}
    (unique : (ids items).Nodup) (once : orderedIds.Nodup)
    (present : ∀ itemId ∈ orderedIds, itemId ∈ ids items)
    (whole : ∀ itemId ∈ ids items, itemId ∈ orderedIds) :
    (Reorder.byKeys ListItem.id items orderedIds).getD items = arranged items orderedIds := by
  have same : orderedIds.Perm (items.map ListItem.id) :=
    (List.perm_ext_iff_of_nodup once unique).mpr fun itemId => ⟨present itemId, whole itemId⟩
  obtain ⟨result, ordered⟩ := Reorder.byKeys_of_perm once same
  obtain ⟨sameIds, perm⟩ := Reorder.byKeys_eq_some ordered
  rw [ordered, Option.getD_some]
  exact Reorder.eq_of_keys unique (fun _ member => perm.subset member)
    (fun _ member => mem_of_mem_arranged member) (sameIds.trans (ids_arranged present).symm)

/-! ## The rest of the tables -/

theorem Tables.ShowsDetail.setItems_of_ne {scope : ListId} {detail : ListDetail} {row : ListRow}
    {answer rows : List Row} (shows : tables.ShowsDetail scope detail row answer)
    (other : scope ≠ listId) : (tables.setItems listId rows).ShowsDetail scope detail row answer :=
  shows.frame shows.member shows.named shows.live rfl (by rw [Tables.setItems_items, if_neg other])

/-- The details that are patched, from the detail of the one list. -/
theorem details_of_setItems {rows : List Row} {patched : Caches} {patch : ListDetail → ListDetail}
    (details : ∀ scope cached, caches.details.data scope = some cached →
      tables.On dashboardId scope → ∃ row answer, tables.ShowsDetail scope cached row answer)
    (data : ∀ scope, patched.details.data scope =
      if scope = listId then (caches.details.data scope).map patch else caches.details.data scope)
    (shows : ∀ detail row answer, caches.details.data listId = some detail →
      tables.ShowsDetail listId detail row answer →
        ∃ row' answer',
          (tables.setItems listId rows).ShowsDetail listId (patch detail) row' answer')
    (scope : ListId) (cached : ListDetail) (loaded : patched.details.data scope = some cached)
    (on : (tables.setItems listId rows).On dashboardId scope) :
    ∃ row answer, (tables.setItems listId rows).ShowsDetail scope cached row answer := by
  rw [data] at loaded
  split_ifs at loaded with here
  · subst here
    obtain ⟨detail, before, rfl⟩ := Option.map_eq_some_iff.mp loaded
    obtain ⟨row, answer, shown⟩ := details scope detail before on
    exact shows detail row answer before shown
  · obtain ⟨row, answer, shown⟩ := details scope cached loaded on
    exact ⟨row, answer, shown.setItems_of_ne here⟩

/-- Summaries whose count of one list is kept in step. -/
theorem Tables.ShowsLists.counted {cached : List ListSummary} {lists : List ListRow}
    {rows : List Row} (shows : tables.ShowsLists dashboardId cached lists) (count : Nat → Nat)
    (counts : count (tables.itemCount listId) = rows.length) :
    (tables.setItems listId rows).ShowsLists dashboardId
      (cached.map fun list =>
        if list.id = listId then { list with itemCount := count list.itemCount } else list)
      lists := by
  have same : (tables.setItems listId rows).live dashboardId =
      (tables.live dashboardId).map id := (List.map_id _).symm
  rw [← List.map_id lists]
  refine shows.map id (fun _ _ before => before) (fun _ _ before => before) same _ ?_
  intro list _ row _ view
  obtain ⟨sameId, rest⟩ := Prod.mk.inj view
  obtain ⟨sameName, sameCount⟩ := Prod.mk.inj rest
  rw [id_eq, Tables.viewOf, Tables.itemCount, Tables.setItems_items, ← sameId]
  split_ifs with here
  · rw [← sameName, ← counts, ← here, sameId, ← sameCount, ← sameId]
    rfl
  · rw [← sameName, sameId, ← Tables.itemCount, ← sameCount, ← sameId]
    rfl

/-- Summaries of a list that has as many items as before. -/
theorem Tables.ShowsLists.uncounted {cached : List ListSummary} {lists : List ListRow}
    {rows : List Row} (shows : tables.ShowsLists dashboardId cached lists)
    (same : rows.length = tables.itemCount listId) :
    (tables.setItems listId rows).ShowsLists dashboardId cached lists := by
  have counted := shows.counted id same.symm
  have unchanged : (cached.map fun list =>
      if list.id = listId then { list with itemCount := id list.itemCount } else list) =
        cached := by
    conv_rhs => rw [← List.map_id cached]
    apply List.map_congr_left
    intro list _
    split_ifs <;> rfl
  rwa [unchanged] at counted

/-! ## The mutations -/

section Items

variable (before : Shown dashboardId tables caches)
include before

/-- **An item that is added** is last where the server has it, if the others come first. -/
theorem shown_itemAdded_iff (on : tables.On dashboardId listId) {body : ListItemCreate}
    {id : ItemId} {now : Nat}
    (wellFormed' : (tables.setItems listId
      (⟨⟨id, body.values⟩, nextOrder (tables.items listId), now⟩ :: tables.items
      listId)).WellFormed)
    (today : Nat) :
    Shown dashboardId
        (tables.setItems listId
          (⟨⟨id, body.values⟩, nextOrder (tables.items listId), now⟩ :: tables.items listId))
        (caches.addListItem today listId ⟨id, body.values⟩) ↔
      ((caches.details.data listId).isSome = true →
        ∀ other ∈ tables.items listId,
          other.Before ⟨⟨id, body.values⟩, nextOrder (tables.items listId), now⟩) := by
  obtain ⟨⟨cached, loaded, lists, shows⟩, details⟩ := before
  constructor
  · intro after isCached
    obtain ⟨detail, loaded⟩ := Option.isSome_iff_exists.mp isCached
    obtain ⟨row, answer, shown⟩ := details listId detail loaded on
    refine (shown.append_iff wellFormed' rfl).mp (after.details listId _ ?_ on)
    rw [Caches.data_addListItem, if_pos rfl, loaded, Option.map_some]
  · intro last
    constructor
    · refine ⟨_, ?_, lists, shows.counted (· + 1) rfl⟩
      rw [Caches.addListItem, Caches.patchAgendaFromListDetail_summaries,
        Caches.data_patchListSummaryById_some]
      change (caches.summaries.data dashboardId).map _ = _
      rw [loaded, Option.map_some]
    · refine details_of_setItems details (caches.data_addListItem today listId _) ?_
      intro detail row answer loaded shown
      exact (shown.append_iff wellFormed' rfl).mpr (last (by rw [loaded]; rfl))

/-- **An item that is updated** shows what was written. -/
theorem shown_itemUpdated {itemId : ItemId} {body : ListItemUpdate} {old : Row}
    (found : ((tables.items listId).find? fun row => row.item.id = itemId) = some old)
    (today : Nat) :
    Shown dashboardId
      (tables.setItems listId (updateItem itemId body old.item.values (tables.items listId)))
      (caches.updateListItem today listId itemId (old.item.patch body)) := by
  obtain ⟨⟨cached, loaded, lists, shows⟩, details⟩ := before
  have served : Served (tables.items listId) (.update ⟨.owner, 0⟩ itemId body) _ := .updated found
  constructor
  · refine ⟨cached, ?_, lists, shows.uncounted (List.length_map _)⟩
    rw [Caches.updateListItem, Caches.patchAgendaFromListDetail_summaries]
    exact loaded
  · refine details_of_setItems details (caches.data_updateListItem today listId itemId _) ?_
    intro detail row answer _ shown
    obtain ⟨present, named⟩ := (find?_row shown.items.unique_rows).mp found
    have listed : old.item ∈ detail.items := by
      rw [← shown.items.shows]
      exact List.mem_map_of_mem (shown.items.answers.perm.mem_iff.mpr present)
    have patched : (detail.items.map fun item =>
        if item.id = itemId then old.item.patch body else item) =
          (ItemRequest.update ⟨.owner, 0⟩ itemId body).apply detail.items := by
      apply List.map_congr_left
      intro item member
      split_ifs with here
      · rw [List.inj_on_of_nodup_map shown.items.unique member listed (here.trans named.symm)]
      · rfl
    refine ⟨row, shown.serve served (fun _ impossible => by cases impossible) ?_ patched⟩
    rw [List.length_map]
    exact shown.shows

/-- **An item that is deleted** leaves the detail and the counts. -/
theorem shown_itemDeleted (wellFormed : tables.WellFormed) {itemId : ItemId}
    (present : itemId ∈ ids (shown (tables.items listId))) :
    Shown dashboardId (tables.setItems listId (deleteItem itemId (tables.items listId)))
      (caches.deleteListItem listId itemId) := by
  obtain ⟨⟨cached, loaded, lists, shows⟩, details⟩ := before
  have served : Served (tables.items listId) (.delete ⟨.owner, 0⟩ itemId) _ := .deleted
  constructor
  · have distinct := wellFormed.itemsUnique listId
    rw [ids, List.map_map] at present distinct
    have counts := length_filter_key distinct present
    refine ⟨_, ?_, lists, shows.counted (· - 1) counts.symm⟩
    rw [Caches.deleteListItem, Caches.data_patchListSummaryById_some]
    change (caches.summaries.data dashboardId).map _ = _
    rw [loaded, Option.map_some]
  · refine details_of_setItems details (caches.data_deleteListItem listId itemId) ?_
    intro detail row answer _ shown
    have listed : itemId ∈ detail.items.map ListItem.id := by
      rw [← shown.items.shows]
      exact (ids_perm shown.items.answers.perm).mem_iff.mpr present
    have counts := length_filter_key shown.items.unique listed
    refine ⟨row, shown.serve served (fun _ impossible => by cases impossible) ?_ rfl⟩
    rw [counts, ← shown.view_id, ← shown.view_name, ← shown.view_itemCount]
    rfl

/-- **Items in another order** are put in that order. -/
theorem shown_itemsReordered (wellFormed : tables.WellFormed) {body : ItemReorder}
    (present : ∀ itemId ∈ body.itemIds, itemId ∈ ids (shown (tables.items listId)))
    (whole : ∀ itemId ∈ ids (shown (tables.items listId)), itemId ∈ body.itemIds) :
    Shown dashboardId (tables.setItems listId (renumber (tables.items listId) body.itemIds))
      (caches.reorderListItems listId body.itemIds) := by
  obtain ⟨⟨cached, loaded, lists, shows⟩, details⟩ := before
  have served : Served (tables.items listId) (.reorder ⟨.owner, 0⟩ body) _ :=
    .reordered present whole
  have asked : body.itemIds.Perm (ids (shown (tables.items listId))) :=
    (List.perm_ext_iff_of_nodup body.nodup (wellFormed.itemsUnique listId)).mpr fun itemId =>
      ⟨present itemId, whole itemId⟩
  constructor
  · refine ⟨cached, loaded, lists, shows.uncounted ?_⟩
    have lengths := congrArg List.length (ids_renumber _ present)
    rw [ids, List.length_map, List.length_map, asked.length_eq, ids, List.length_map,
      List.length_map] at lengths
    exact lengths
  · refine details_of_setItems details (caches.data_reorderListItems listId body.itemIds) ?_
    intro detail row answer _ displayed
    have listed : (ids detail.items).Perm (ids (shown (tables.items listId))) := by
      rw [← displayed.items.shows]
      exact ids_perm displayed.items.answers.perm
    have arranges := byKeys_eq_arranged displayed.items.unique body.nodup
      (fun itemId member => listed.mem_iff.mpr (present itemId member))
      (fun itemId member => whole itemId (listed.mem_iff.mp member))
    refine ⟨row, displayed.serve served (fun _ impossible => by cases impossible) ?_ arranges⟩
    rw [(Reorder.getD_byKeys_perm body.itemIds detail.items).length_eq]
    exact displayed.shows

end Items

/-! ## Every mutation -/

/-- **Patched is as fetched**, for a mutation that puts last only what the server has last. -/
theorem patched_fresh_iff {settings : ListSettings} {next : Tables} {mutation : Mutation}
    {response : Response} (wellFormed : tables.WellFormed) (fresh : Fresh dashboardId tables caches)
    (on : mutation.On dashboardId tables)
    (ok : serve settings mutation tables = .ok (response, next)) (today : Nat) :
    Fresh dashboardId next (mutation.patch today response caches) ↔
      mutation.Last tables caches := by
  have carried := carried_of_ok ok
  have before := (fresh_iff_shown wellFormed dashboardId caches).mp fresh
  rw [fresh_iff_shown (wellFormed.carried carried)]
  have wellFormed' := wellFormed.carried carried
  cases carried with
  | created absent =>
      cases on
      refine (shown_created_iff wellFormed before absent wellFormed').trans ?_
      exact appended_last_iff ListRow.sortOrder ListRow.createdAt (tables.live dashboardId) _
  | renamed found => exact iff_of_true (shown_renamed wellFormed before found) trivial
  | deleted found => exact iff_of_true (shown_deleted before found) trivial
  | @restored _ id _ _ row found =>
      obtain ⟨rfl, other, member, named, here⟩ := on
      obtain ⟨member', named', -⟩ := Tables.of_row? found
      have same := wellFormed.row_eq member member' (named.trans named'.symm)
      refine (shown_restored_iff wellFormed before found (same ▸ here)).trans ?_
      constructor
      · intro last trashed present called
        rw [wellFormed.row_eq present member' (called.trans named'.symm)]
        exact last
      · exact fun last => last row member' named'
  | reordered distinct same =>
      cases on
      exact iff_of_true (shown_reordered wellFormed before distinct same) trivial
  | itemAdded found unused served =>
      cases served with
      | created =>
          refine (shown_itemAdded_iff before on wellFormed' today).trans ?_
          rw [nextOrder_eq_appendOrder]
          exact forall_congr' fun _ => appended_last_iff Row.sortOrder Row.createdAt _ _
  | itemUpdated found foundItem served =>
      cases served with
      | updated foundItem' =>
          cases foundItem.symm.trans foundItem'
          exact iff_of_true (shown_itemUpdated before foundItem today) trivial
  | itemDeleted found present served =>
      cases served with
      | deleted => exact iff_of_true (shown_itemDeleted before wellFormed present) trivial
  | itemsReordered found served =>
      cases served with
      | reordered present whole =>
          exact iff_of_true (shown_itemsReordered before wellFormed present whole) trivial

/-- A list of the dashboard 1, made by the user 7. -/
def exampleRow (id : ListId) (name : String) (sortOrder createdAt : Nat) (deletedAt : Option Nat) :
    ListRow :=
  ⟨id, 1, name, .grocery, sortOrder, 7, createdAt, createdAt, deletedAt⟩

/-- Two lists, the first of them in the trash. -/
def trashedFirst : Tables where
  lists := [exampleRow 1 "Weekly" 0 10 (some 30), exampleRow 2 "Party" 1 20 none]
  items := fun _ => []

/-- The caches of a page that shows the lists of the dashboard 1 and has opened none. -/
def sidebar (lists : List ListSummary) : Caches where
  summaries := Entries.seed 1 lists fun _ => none
  details := fun _ => none
  reminders := fun _ => none

theorem trashedFirst_wellFormed : trashedFirst.WellFormed :=
  ⟨by decide, fun _ => List.nodup_nil, fun _ _ _ here => absurd here List.not_mem_nil,
    fun _ _ => rfl⟩

theorem trashedFirst_fresh :
    Fresh 1 trashedFirst (sidebar [(exampleRow 2 "Party" 1 20 none).response 0]) := by
  refine (fresh_iff_shown trashedFirst_wellFormed 1 _).mpr ⟨⟨_, rfl, ?_⟩, ?_⟩
  · exact ⟨[exampleRow 2 "Party" 1 20 none], ⟨.refl _, List.pairwise_singleton _ _⟩,
      List.pairwise_singleton _ _, rfl⟩
  · intro listId cached loaded
    cases loaded

/-- A third list, made when the other has a positive order, comes after it. -/
theorem patched_fresh_create :
    let mutation : Mutation := .createList ⟨.editor, 2⟩ 7 "Garden" .grocery 1 3 40
    let created := exampleRow 3 "Garden" 2 40 none
    Fresh 1 { trashedFirst with lists := trashedFirst.lists ++ [created] }
      (mutation.patch 0 (.list (created.response 0))
        (sidebar [(exampleRow 2 "Party" 1 20 none).response 0])) := by
  intro mutation created
  have on : mutation.On 1 trashedFirst := rfl
  have ok : serve ⟨⟨25000, 5000⟩, 500, 100⟩ mutation trashedFirst =
      .ok (.list (created.response 0),
        { trashedFirst with lists := trashedFirst.lists ++ [created] }) := rfl
  exact (patched_fresh_iff trashedFirst_wellFormed trashedFirst_fresh on ok 0).mpr
    (.inl ⟨_, List.mem_cons_self, Nat.one_pos⟩)

/-- A list that was first is restored: the page has it last, a refetch has it first. -/
theorem restored_last :
    ∃ (tables : Tables) (caches : Caches) (mutation : Mutation) (response : Response)
      (next : Tables), tables.WellFormed ∧ Fresh 1 tables caches ∧ mutation.On 1 tables ∧
        serve ⟨⟨25000, 5000⟩, 500, 100⟩ mutation tables = .ok (response, next) ∧
          ¬ Fresh 1 next (mutation.patch 0 response caches) := by
  refine ⟨trashedFirst, _, .restoreList ⟨.owner, fun _ => false⟩ 1 1 40, _, _,
    trashedFirst_wellFormed,
    trashedFirst_fresh, ⟨rfl, _, List.mem_cons_self, rfl, rfl⟩, rfl, fun after => ?_⟩
  obtain ⟨cached, loaded, same⟩ := after.summaries
  cases loaded
  have reads := same _ ⟨[{ exampleRow 1 "Weekly" 0 10 none with updatedAt := 40 },
    exampleRow 2 "Party" 1 20 none], ⟨.refl _, by decide⟩, rfl⟩
  revert reads
  decide

end FrontDashboard.Lists.Page
