import FrontDashboard.Library.DerivedView
import FrontDashboard.Lists.Shows

/-! # Reminders, patched or fetched

The reminders of a dashboard are derived from the items of its lists, one by one. The page
fetches them once and from then on derives again what its own mutations of items change; a
rename of a list and its deletion go through its entries.
-/

namespace FrontDashboard.Lists.Page

open DerivedView (Shows)

/-- `fetchAgendaReminders`, of the details it is answered. -/
def fetchAgendaReminders (today : Nat) (details : List ListDetail) : List Reminder :=
  details.flatMap fun detail =>
    detail.items.filterMap fun item => Reminder.ofItem item detail.id detail.name today

/-- The lists of a dashboard are cached under the ids, dashboards and names that the server has.
Whether the cached items are those of the server does not matter. -/
structure Known (dashboardId : DashboardId) (tables : Tables) (caches : Caches) : Prop where
  identities : ∀ row ∈ tables.lists, ∀ detail, caches.details.data row.id = some detail →
    detail.id = row.id ∧ detail.dashboardId = row.dashboardId
  lists : ∀ row ∈ tables.live dashboardId, ∃ detail, caches.details.data row.id = some detail ∧
    detail.name = row.name

/-- The lists of a dashboard are cached as the server has them, and as a set its reminders are
those that would be fetched. -/
structure Agrees (dashboardId : DashboardId) (today : Nat) (tables : Tables) (caches : Caches) :
    Prop extends Known dashboardId tables caches where
  reminders : ∃ entries, caches.reminders.data dashboardId = some entries ∧
    ∀ answer, tables.GetListDetails dashboardId answer →
      ∀ reminder, reminder ∈ entries ↔ reminder ∈ fetchAgendaReminders today answer

variable {tables next : Tables} {dashboardId : DashboardId} {caches : Caches} {listId : ListId}
  {today : Nat}

/-! ## The items of a dashboard -/

/-- An item, with the row of its list. -/
abbrev Listed := ListRow × ListItem

/-- The items on the lists of a dashboard that are not in the trash. -/
def Tables.OnLists (dashboardId : DashboardId) (tables : Tables) (source : Listed) : Prop :=
  source.1 ∈ tables.live dashboardId ∧ source.2 ∈ shown (tables.items source.1.id)

/-- The reminder of an item. -/
def reminderOf (today : Nat) (source : Listed) : Option Reminder :=
  Reminder.ofItem source.2 source.1.id source.1.name today

/-- A reminder names its item and its list. -/
theorem Reminder.ofItem_eq_some {item : ListItem} {listName : String} {reminder : Reminder}
    (derived : Reminder.ofItem item listId listName today = some reminder) :
    reminder.itemId = item.id ∧ reminder.listId = listId := by
  rw [Reminder.ofItem] at derived
  split at derived
  next => cases derived
  next dueDate _ =>
    split_ifs at derived <;> cases derived <;> exact ⟨rfl, rfl⟩

/-- Under another name of the list, the same reminder. -/
theorem Reminder.ofItem_rename (item : ListItem) (listName renamed : String) :
    Reminder.ofItem item listId renamed today =
      (Reminder.ofItem item listId listName today).map fun entry =>
        { entry with listName := renamed } := by
  unfold Reminder.ofItem
  cases item.values .dueDate with
  | none => rfl
  | some dueDate =>
      dsimp only
      split_ifs <;> rfl

/-- What is derived from the detail of a list is derived from its items. -/
theorem mem_reminders_of_detail (wellFormed : tables.WellFormed) {row : ListRow}
    (member : row ∈ tables.lists) {detail : ListDetail} (answers : tables.GetDetail row.id detail)
    (reminder : Reminder) :
    reminder ∈ (detail.items.filterMap fun item =>
        Reminder.ofItem item detail.id detail.name today) ↔
      ∃ item ∈ shown (tables.items row.id), reminderOf today (row, item) = some reminder := by
  obtain ⟨other, member', named, -, items, ⟨sorted, ordered, rfl⟩, rfl⟩ := answers
  cases wellFormed.row_eq member' member named
  rw [List.mem_filterMap]
  refine exists_congr fun item => and_congr_left fun _ => ?_
  exact (ordered.perm.map Row.item).mem_iff

/-- **What is fetched** is derived from the items of the dashboard. -/
theorem mem_fetchAgendaReminders (wellFormed : tables.WellFormed) {answer : List ListDetail}
    (answers : tables.GetListDetails dashboardId answer) (reminder : Reminder) :
    reminder ∈ fetchAgendaReminders today answer ↔
      ∃ source, tables.OnLists dashboardId source ∧ reminderOf today source = some reminder := by
  obtain ⟨rows, ordered, details⟩ := answers
  have fromRows : (∀ row ∈ rows, row ∈ tables.lists) →
      (reminder ∈ fetchAgendaReminders today answer ↔ ∃ row ∈ rows,
        ∃ item ∈ shown (tables.items row.id), reminderOf today (row, item) = some reminder) := by
    intro among
    clear ordered
    induction details with
    | nil => simp [fetchAgendaReminders]
    | @cons row detail rows answer first _ ih =>
        have here := @mem_reminders_of_detail _ today wellFormed row
          (among row List.mem_cons_self) detail first reminder
        have later := ih fun other present => among other (List.mem_cons_of_mem row present)
        rw [fetchAgendaReminders, List.flatMap_cons, List.mem_append, here,
          ← fetchAgendaReminders, later]
        simp
  rw [fromRows fun row present =>
    (Tables.mem_live.mp (ordered.perm.subset present)).1]
  constructor
  · rintro ⟨row, present, item, member, derived⟩
    exact ⟨(row, item), ⟨ordered.perm.subset present, member⟩, derived⟩
  · rintro ⟨⟨row, item⟩, ⟨present, member⟩, derived⟩
    exact ⟨row, ordered.perm.symm.subset present, item, member, derived⟩

/-- The details have an answer. -/
theorem exists_getListDetails (dashboardId : DashboardId) (tables : Tables) :
    ∃ answer, tables.GetListDetails dashboardId answer := by
  have ordered := OrderedBy.insertionSort ListRow.Before.asymm ListRow.Before.between
    (tables.live dashboardId)
  let items (row : ListRow) := shown ((tables.items row.id).insertionSort Row.Before)
  let detail (row : ListRow) : ListDetail :=
    { row.response (items row).length with items := items row }
  refine ⟨((tables.live dashboardId).insertionSort ListRow.Before).map detail, _, ordered, ?_⟩
  refine List.forall₂_map_right_iff.mpr (List.forall₂_same.mpr fun row present => ?_)
  obtain ⟨member, -, isLive⟩ := Tables.mem_live.mp (ordered.perm.subset present)
  exact ⟨row, member, rfl, isLive, items row, getList_insertionSort _, rfl⟩

/-- Reminders that agree are those derived from the items of the dashboard. -/
theorem reminders_iff (wellFormed : tables.WellFormed) (entries : List Reminder) :
    (∀ answer, tables.GetListDetails dashboardId answer →
        ∀ reminder, reminder ∈ entries ↔ reminder ∈ fetchAgendaReminders today answer) ↔
      Shows (reminderOf today) (tables.OnLists dashboardId) entries := by
  constructor
  · intro agrees reminder
    obtain ⟨answer, answers⟩ := exists_getListDetails dashboardId tables
    exact (agrees answer answers reminder).trans
      (mem_fetchAgendaReminders wellFormed answers reminder)
  · intro shows answer answers reminder
    exact (shows reminder).trans (mem_fetchAgendaReminders wellFormed answers reminder).symm

/-! ## Patches of the reminders -/

namespace Caches

variable (caches)

/-- A patch changes the reminders of the dashboards it picks. -/
theorem reminders_patchReminders (picks : DashboardId → Bool)
    (change : List Reminder → List Reminder) :
    (caches.patchReminders picks change).reminders.data dashboardId =
      if picks dashboardId then (caches.reminders.data dashboardId).map change
      else caches.reminders.data dashboardId :=
  Entries.data_updateWhere_map dashboardId picks change caches.reminders

/-- An item's patch goes through the list it is in, if that is loaded. -/
theorem reminders_patchAgendaFromListDetail (item : ListItem) :
    (caches.patchAgendaFromListDetail today listId item).reminders.data dashboardId =
      match caches.details.data listId with
      | none => caches.reminders.data dashboardId
      | some detail =>
          if dashboardId = detail.dashboardId then
            (caches.reminders.data dashboardId).map fun entries =>
              entries.filter (fun entry => entry.itemId ≠ item.id) ++
                (Reminder.ofItem item detail.id detail.name today).toList
          else caches.reminders.data dashboardId := by
  rw [patchAgendaFromListDetail]
  dsimp only
  rw [Entries.data_ensure]
  cases caches.details.data listId with
  | none => rfl
  | some detail =>
      dsimp only
      rw [applyAgendaItemUpdate, reminders_patchReminders]
      simp only [beq_iff_eq]

end Caches

/-! ## Items -/

namespace Tables

/-- After a request on the items of a list the other items are as they were. -/
theorem onLists_setItems {rows : List Row} {target : ItemId}
    (others : ∀ item, item.id ≠ target →
      (item ∈ shown rows ↔ item ∈ shown (tables.items listId)))
    {source : Listed} (other : source.2.id ≠ target) :
    (tables.setItems listId rows).OnLists dashboardId source ↔
      tables.OnLists dashboardId source := by
  refine and_congr_right fun _ => ?_
  rw [setItems_items]
  split_ifs with here
  · rw [others source.2 other, here]
  · exact Iff.rfl

/-- A request on the items of a list of another dashboard. -/
theorem onLists_setItems_of_ne (wellFormed : tables.WellFormed) {rows : List Row} {row : ListRow}
    (found : tables.row? false listId = some row) (elsewhere : row.dashboardId ≠ dashboardId)
    (source : Listed) :
    (tables.setItems listId rows).OnLists dashboardId source ↔
      tables.OnLists dashboardId source := by
  obtain ⟨member, named, -⟩ := of_row? found
  refine and_congr_right fun isLive => ?_
  obtain ⟨member', here, -⟩ := mem_live.mp isLive
  have different : source.1.id ≠ listId := by
    intro same
    rw [wellFormed.row_eq member' member (same.trans named.symm)] at here
    exact elsewhere here
  rw [setItems_items, if_neg different]

/-- The list of an item that is on it. -/
theorem OnLists.row_eq (wellFormed : tables.WellFormed) {source : Listed} {row : ListRow}
    (on : tables.OnLists dashboardId source) (found : tables.row? false listId = some row)
    (present : source.2.id ∈ ids (shown (tables.items listId))) : source.1 = row := by
  obtain ⟨member, named, -⟩ := of_row? found
  have sameList := wellFormed.itemsApart _ _ _ (List.mem_map_of_mem on.2) present
  exact wellFormed.row_eq (mem_live.mp on.1).1 member (sameList.trans named.symm)

end Tables

/-- What the rows and the details have by which they are known, after both have changed. -/
theorem Known.identities_of (known : Known dashboardId tables caches) {patched : Caches}
    (rows : ∀ row ∈ next.lists, ∃ old ∈ tables.lists, old.id = row.id ∧
      old.dashboardId = row.dashboardId)
    (details : ∀ scope detail, patched.details.data scope = some detail →
      ∃ old, caches.details.data scope = some old ∧ detail.id = old.id ∧
        detail.dashboardId = old.dashboardId)
    (row : ListRow) (member : row ∈ next.lists) (detail : ListDetail)
    (loaded : patched.details.data row.id = some detail) :
    detail.id = row.id ∧ detail.dashboardId = row.dashboardId := by
  obtain ⟨old, present, sameId, sameDashboard⟩ := rows row member
  obtain ⟨before, cached, keepsId, keepsDashboard⟩ := details row.id detail loaded
  obtain ⟨named, here⟩ := known.identities old present before (sameId ▸ cached)
  exact ⟨keepsId.trans (named.trans sameId), keepsDashboard.trans (here.trans sameDashboard)⟩

/-- A patch of one detail that keeps what it is known by. -/
theorem Known.patched (known : Known dashboardId tables caches) (same : next.lists = tables.lists)
    {patched : Caches} {patch : ListDetail → ListDetail}
    (data : ∀ scope, patched.details.data scope =
      if scope = listId then (caches.details.data scope).map patch else caches.details.data scope)
    (keeps : ∀ detail, (patch detail).id = detail.id ∧
      (patch detail).dashboardId = detail.dashboardId ∧ (patch detail).name = detail.name) :
    Known dashboardId next patched := by
  refine ⟨known.identities_of (fun row member => ⟨row, same ▸ member, rfl, rfl⟩) ?_,
    fun row isLive => ?_⟩
  · intro scope detail loaded
    rw [data] at loaded
    split_ifs at loaded
    · obtain ⟨before, cached, rfl⟩ := Option.map_eq_some_iff.mp loaded
      exact ⟨before, cached, (keeps before).1, (keeps before).2.1⟩
    · exact ⟨detail, loaded, rfl, rfl⟩
  · rw [Tables.live, same] at isLive
    obtain ⟨detail, loaded, name⟩ := known.lists row isLive
    rw [data, loaded]
    split_ifs
    · exact ⟨patch detail, rfl, (keeps detail).2.2.trans name⟩
    · exact ⟨detail, rfl, name⟩

/-- What is known of the caches stays so when a list's items change on both sides. -/
theorem Known.setItems (known : Known dashboardId tables caches) {rows : List Row}
    {patched : Caches} {patch : ListDetail → ListDetail}
    (data : ∀ scope, patched.details.data scope =
      if scope = listId then (caches.details.data scope).map patch else caches.details.data scope)
    (keeps : ∀ detail, (patch detail).id = detail.id ∧
      (patch detail).dashboardId = detail.dashboardId ∧ (patch detail).name = detail.name) :
    Known dashboardId (tables.setItems listId rows) patched :=
  known.patched (tables.setItems_lists rows) data keeps

/-- The reminders after an item is derived again. -/
theorem shows_patchAgenda (wellFormed : tables.WellFormed) {rows : List Row}
    (wellFormed' : (tables.setItems listId rows).WellFormed)
    (known : Known dashboardId tables caches) {row : ListRow}
    (found : tables.row? false listId = some row) {item : ListItem} (member : item ∈ shown rows)
    (others : ∀ other, other.id ≠ item.id →
      (other ∈ shown rows ↔ other ∈ shown (tables.items listId)))
    {entries : List Reminder} (loaded : caches.reminders.data dashboardId = some entries)
    (shows : Shows (reminderOf today) (tables.OnLists dashboardId) entries) :
    ∃ entries', (caches.patchAgendaFromListDetail today listId item).reminders.data dashboardId =
        some entries' ∧
      Shows (reminderOf today) ((tables.setItems listId rows).OnLists dashboardId) entries' := by
  obtain ⟨present, rfl, -⟩ := Tables.of_row? found
  have isLive := Tables.deletedAt_of_row? found
  rw [Caches.reminders_patchAgendaFromListDetail, loaded]
  by_cases here : row.dashboardId = dashboardId
  · have rowLive : row ∈ tables.live dashboardId := Tables.mem_live.mpr ⟨present, here, isLive⟩
    obtain ⟨detail, cached, name⟩ := known.lists row rowLive
    obtain ⟨sameId, sameDashboard⟩ := known.identities row present detail cached
    rw [cached]
    dsimp only
    rw [if_pos (here.symm.trans sameDashboard.symm), Option.map_some, sameId, name]
    refine ⟨_, rfl, ?_⟩
    have listed : item ∈ shown ((tables.setItems row.id rows).items row.id) := by
      rwa [Tables.setItems_items, if_pos rfl]
    have remaining : Shows (reminderOf today)
        (fun source => (tables.setItems row.id rows).OnLists dashboardId source ∧
          source.2.id ≠ item.id)
        (entries.filter fun entry => decide (entry.itemId ≠ item.id)) := by
      refine shows.filter _ fun source entry derived => ?_
      rw [decide_eq_true_eq, (Reminder.ofItem_eq_some derived).1]
      exact and_congr_left fun other => Tables.onLists_setItems others other
    refine remaining.append (row, item) fun source => ?_
    constructor
    · intro on
      by_cases same : source.2.id = item.id
      · have inList : source.2.id ∈ ids (shown ((tables.setItems row.id rows).items row.id)) :=
          same ▸ List.mem_map_of_mem listed
        have sameRow := on.row_eq wellFormed' found inList
        have onRow := on.2
        rw [sameRow] at onRow
        have sameItem := List.inj_on_of_nodup_map (wellFormed'.itemsUnique row.id) onRow listed same
        exact .inr (Prod.ext sameRow sameItem)
      · exact .inl ⟨on, same⟩
    · rintro (⟨on, -⟩ | rfl)
      · exact on
      · exact ⟨rowLive, listed⟩
  · have unchanged : Shows (reminderOf today) ((tables.setItems row.id rows).OnLists dashboardId)
        entries :=
      shows.congr fun source _ _ => Tables.onLists_setItems_of_ne wellFormed found here source
    cases cached : caches.details.data row.id with
    | none => exact ⟨entries, rfl, unchanged⟩
    | some detail =>
        have sameDashboard := (known.identities row present detail cached).2
        dsimp only
        rw [if_neg fun same => here (sameDashboard.symm.trans same.symm)]
        exact ⟨entries, rfl, unchanged⟩

/-- The reminders after an item is dropped from every dashboard. -/
theorem shows_deleteItem (wellFormed : tables.WellFormed) {itemId : ItemId}
    (present : itemId ∈ ids (shown (tables.items listId))) {entries : List Reminder}
    (shows : Shows (reminderOf today) (tables.OnLists dashboardId) entries) :
    Shows (reminderOf today)
      ((tables.setItems listId (deleteItem itemId (tables.items listId))).OnLists dashboardId)
      (entries.filter fun entry => entry.itemId ∉ [itemId]) := by
  refine shows.filter _ fun source entry derived => ?_
  rw [decide_eq_true_eq, (Reminder.ofItem_eq_some derived).1, List.mem_singleton]
  have others : ∀ other : ListItem, other.id ≠ itemId →
      (other ∈ shown (deleteItem itemId (tables.items listId)) ↔
        other ∈ shown (tables.items listId)) := by
    intro other different
    rw [shown_deleteItem, List.mem_filter]
    exact and_iff_left (decide_eq_true different)
  by_cases same : source.2.id = itemId
  · refine iff_of_false (fun on => ?_) fun both => both.2 same
    have onList := on.2
    rw [Tables.setItems_items] at onList
    split_ifs at onList with here
    · rw [shown_deleteItem] at onList
      exact of_decide_eq_true (List.mem_filter.mp onList).2 same
    · exact here (wellFormed.itemsApart _ _ _ (List.mem_map_of_mem onList) (same ▸ present))
  · rw [Tables.onLists_setItems others same]
    exact (and_iff_left same).symm

/-! ## Lists -/

/-- The reminders after a list is renamed. -/
theorem shows_renamed (wellFormed : tables.WellFormed) {row : ListRow}
    (found : tables.row? false listId = some row) (name : String) (now : Nat)
    {entries : List Reminder}
    (shows : Shows (reminderOf today) (tables.OnLists dashboardId) entries) :
    Shows (reminderOf today)
      ((tables.replace { row with name := name, updatedAt := now }).OnLists dashboardId)
      (entries.map fun entry =>
        if entry.listId = listId then { entry with listName := name } else entry) := by
  obtain ⟨member, rfl, -⟩ := Tables.of_row? found
  let edit (other : ListRow) : ListRow := { other with name := name, updatedAt := now }
  let change (source : Listed) : Listed :=
    (if source.1.id = row.id then edit source.1 else source.1, source.2)
  have sameId (source : Listed) : (change source).1.id = source.1.id := by
    dsimp only [change]
    split_ifs <;> rfl
  have live : (tables.replace (edit row)).live dashboardId = _ :=
    Tables.live_edited wellFormed member edit rfl rfl rfl
  refine shows.map change _ (fun source => ?_) fun source => ?_
  · rw [Tables.OnLists, live]
    constructor
    · intro on
      obtain ⟨other, isLive, same⟩ := List.mem_map.mp on.1
      have changed : change (other, source.2) = source := Prod.ext same rfl
      refine ⟨(other, source.2), ⟨isLive, ?_⟩, changed⟩
      have onList := on.2
      rw [← changed, sameId] at onList
      exact onList
    · rintro ⟨old, on, rfl⟩
      refine ⟨List.mem_map.mpr ⟨old.1, on.1, rfl⟩, ?_⟩
      rw [sameId]
      exact on.2
  · have listOf : ∀ reminder ∈ reminderOf today source, reminder.listId = source.1.id :=
      fun reminder derived => (Reminder.ofItem_eq_some derived).2
    by_cases here : source.1.id = row.id
    · have renamed : reminderOf today (change source) =
          (reminderOf today source).map fun entry => { entry with listName := name } := by
        dsimp only [change]
        rw [if_pos here]
        exact Reminder.ofItem_rename source.2 source.1.name name
      rw [renamed]
      refine Option.map_congr fun reminder derived => ?_
      rw [if_pos ((listOf reminder derived).trans here)]
    · have unchanged : change source = source := by
        dsimp only [change]
        rw [if_neg here]
      rw [unchanged]
      refine Option.map_id_apply.symm.trans ?_
      refine Option.map_congr fun reminder derived => ?_
      rw [if_neg fun same => here ((listOf reminder derived).symm.trans same), id_eq]

/-- The reminders after a list is trashed. -/
theorem shows_deleted {row updated : ListRow} (sameId : updated.id = row.id)
    (trashed : updated.deletedAt ≠ none) {entries : List Reminder}
    (shows : Shows (reminderOf today) (tables.OnLists dashboardId) entries) :
    Shows (reminderOf today) ((tables.replace updated).OnLists dashboardId)
      (entries.filter fun entry => entry.listId ≠ row.id) := by
  refine shows.filter _ fun source entry derived => ?_
  rw [decide_eq_true_eq, (Reminder.ofItem_eq_some derived).2, Tables.OnLists,
    Tables.live_deleted sameId trashed, List.mem_filter, decide_eq_true_eq]
  exact and_right_comm

/-- A replaced row leaves the other lists. -/
theorem mem_replace {updated row : ListRow} (member : row ∈ tables.lists)
    (sameId : updated.id = row.id) (sameDashboard : updated.dashboardId = row.dashboardId)
    (other : ListRow) (present : other ∈ (tables.replace updated).lists) :
    ∃ old ∈ tables.lists, old.id = other.id ∧ old.dashboardId = other.dashboardId := by
  obtain ⟨old, member', rfl⟩ := List.mem_map.mp present
  split_ifs
  · exact ⟨row, member, sameId.symm, sameDashboard.symm⟩
  · exact ⟨old, member', rfl, rfl⟩

/-- What is known stays so when a list is renamed. -/
theorem Known.renamed (wellFormed : tables.WellFormed) (known : Known dashboardId tables caches)
    {row : ListRow} (found : tables.row? false listId = some row) (name : String)
    (now itemCount : Nat) :
    Known dashboardId (tables.replace { row with name := name, updatedAt := now })
      (caches.updateListName listId
        (ListRow.response { row with name := name, updatedAt := now } itemCount)) := by
  obtain ⟨member, rfl, -⟩ := Tables.of_row? found
  let edit (other : ListRow) : ListRow := { other with name := name, updatedAt := now }
  have live : (tables.replace (edit row)).live dashboardId = _ :=
    Tables.live_edited wellFormed member edit rfl rfl rfl
  have data (scope : ListId) : (caches.updateListName row.id
      (ListRow.response (edit row) itemCount)).details.data scope = _ :=
    Caches.data_patchListDetailById _ row.id _ scope
  refine ⟨known.identities_of (mem_replace member rfl rfl) ?_, fun other isLive => ?_⟩
  · intro scope detail loaded
    rw [data] at loaded
    split_ifs at loaded
    · obtain ⟨before, cached, rfl⟩ := Option.map_eq_some_iff.mp loaded
      exact ⟨before, cached, rfl, rfl⟩
    · exact ⟨detail, loaded, rfl, rfl⟩
  · rw [live] at isLive
    obtain ⟨old, wasLive, rfl⟩ := List.mem_map.mp isLive
    obtain ⟨detail, cached, sameName⟩ := known.lists old wasLive
    rw [data]
    by_cases here : old.id = row.id
    · rw [if_pos here, if_pos here]
      exact ⟨_, congrArg (Option.map _) cached, rfl⟩
    · rw [if_neg here, if_neg here]
      exact ⟨detail, cached, sameName⟩

/-- What is known stays so when a list is deleted. -/
theorem Known.deleted (known : Known dashboardId tables caches) {row updated : ListRow}
    (member : row ∈ tables.lists) (sameId : updated.id = row.id)
    (sameDashboard : updated.dashboardId = row.dashboardId) (trashed : updated.deletedAt ≠ none) :
    Known dashboardId (tables.replace updated) (caches.deleteList row.id) := by
  have data (scope : ListId) : (caches.deleteList row.id).details.data scope =
      if scope = row.id then none else caches.details.data scope := by
    change (caches.details.updateWhere (· == row.id) _).data scope = _
    rw [Entries.data_updateWhere, Entries.data]
    cases caches.details scope with
    | none => simp
    | some state =>
        by_cases here : scope = row.id
        · simp [here]
        · simp [here]
  refine ⟨known.identities_of (mem_replace member sameId sameDashboard) ?_, fun other isLive => ?_⟩
  · intro scope detail loaded
    rw [data] at loaded
    split_ifs at loaded
    exact ⟨detail, loaded, rfl, rfl⟩
  · rw [Tables.live_deleted sameId trashed, List.mem_filter, decide_eq_true_eq] at isLive
    rw [data, if_neg isLive.2]
    exact known.lists other isLive.1

/-! ## The mutations -/

/-- Reminders that are derived from the items of the dashboard, and lists that are known. -/
structure Derived (dashboardId : DashboardId) (today : Nat) (tables : Tables) (caches : Caches) :
    Prop extends Known dashboardId tables caches where
  reminders : ∃ entries, caches.reminders.data dashboardId = some entries ∧
    Shows (reminderOf today) (tables.OnLists dashboardId) entries

/-- In well-formed tables the reminders agree when each is derived from its item. -/
theorem agrees_iff_derived (wellFormed : tables.WellFormed) :
    Agrees dashboardId today tables caches ↔ Derived dashboardId today tables caches := by
  constructor
  · rintro ⟨known, entries, loaded, same⟩
    exact ⟨known, entries, loaded, (reminders_iff wellFormed entries).mp same⟩
  · rintro ⟨known, entries, loaded, shows⟩
    exact ⟨known, entries, loaded, (reminders_iff wellFormed entries).mpr shows⟩

section Mutations

variable (wellFormed : tables.WellFormed) (before : Derived dashboardId today tables caches)
include before

omit before in
/-- A patch of the reminders of every dashboard. -/
theorem reminders_swept {entries : List Reminder} (change : List Reminder → List Reminder)
    (loaded : caches.reminders.data dashboardId = some entries) :
    (caches.patchReminders (fun _ => true) change).reminders.data dashboardId =
      some (change entries) := by
  rw [Caches.reminders_patchReminders, if_pos rfl, loaded, Option.map_some]

include wellFormed in
/-- Each change keeps the reminders derived. -/
theorem derived_renamed {row : ListRow} (found : tables.row? false listId = some row)
    (name : String) (now itemCount : Nat) :
    Derived dashboardId today (tables.replace { row with name := name, updatedAt := now })
      (caches.updateListName listId
        (ListRow.response { row with name := name, updatedAt := now } itemCount)) := by
  obtain ⟨known, entries, loaded, shows⟩ := before
  exact ⟨known.renamed wellFormed found name now itemCount, _, reminders_swept _ loaded,
    shows_renamed wellFormed found name now shows⟩

theorem derived_deleted {row : ListRow} (found : tables.row? false listId = some row) (now : Nat) :
    Derived dashboardId today
      (tables.replace { row with deletedAt := some now, updatedAt := now })
      (caches.deleteList listId) := by
  obtain ⟨known, entries, loaded, shows⟩ := before
  obtain ⟨member, rfl, -⟩ := Tables.of_row? found
  have trashed : some now ≠ none := Option.some_ne_none now
  exact ⟨known.deleted member rfl rfl trashed, _, reminders_swept _ loaded,
    shows_deleted rfl trashed shows⟩

include wellFormed in
theorem derived_itemDeleted {itemId : ItemId}
    (present : itemId ∈ ids (shown (tables.items listId))) :
    Derived dashboardId today
      (tables.setItems listId (deleteItem itemId (tables.items listId)))
      (caches.deleteListItem listId itemId) := by
  obtain ⟨known, entries, loaded, shows⟩ := before
  exact ⟨known.setItems (caches.data_deleteListItem listId itemId) fun _ => ⟨rfl, rfl, rfl⟩, _,
    reminders_swept _ loaded, shows_deleteItem wellFormed present shows⟩

include wellFormed in
theorem derived_itemAdded {row : ListRow} {new : Row}
    (found : tables.row? false listId = some row)
    (wellFormed' : (tables.setItems listId (new :: tables.items listId)).WellFormed) :
    Derived dashboardId today (tables.setItems listId (new :: tables.items listId))
      (caches.addListItem today listId new.item) := by
  obtain ⟨known, entries, loaded, shows⟩ := before
  have others : ∀ other : ListItem, other.id ≠ new.item.id →
      (other ∈ shown (new :: tables.items listId) ↔ other ∈ shown (tables.items listId)) := by
    intro other different
    exact List.mem_cons.trans (or_iff_right fun same => different (congrArg ListItem.id same))
  refine ⟨known.setItems (caches.data_addListItem today listId new.item) fun _ =>
    ⟨rfl, rfl, rfl⟩, ?_⟩
  have patched : Known dashboardId tables
      ((caches.patchListDetailById listId fun detail =>
        { detail with
          items := detail.items ++ [new.item]
          itemCount := detail.itemCount + 1 }).patchListSummaryById listId fun list =>
            some { list with itemCount := list.itemCount + 1 }) :=
    known.patched rfl (caches.data_patchListDetailById listId _) fun _ => ⟨rfl, rfl, rfl⟩
  exact shows_patchAgenda wellFormed wellFormed' patched found List.mem_cons_self others loaded
    shows

include wellFormed in
theorem derived_itemUpdated {row : ListRow} {itemId : ItemId} {body : ListItemUpdate} {old : Row}
    (found : tables.row? false listId = some row)
    (foundItem : ((tables.items listId).find? fun row => row.item.id = itemId) = some old)
    (wellFormed' : (tables.setItems listId
      (updateItem itemId body old.item.values (tables.items listId))).WellFormed) :
    Derived dashboardId today
      (tables.setItems listId (updateItem itemId body old.item.values (tables.items listId)))
      (caches.updateListItem today listId itemId (old.item.patch body)) := by
  obtain ⟨known, entries, loaded, shows⟩ := before
  obtain ⟨present, named⟩ := (find?_row (wellFormed.itemsUnique listId)).mp foundItem
  have writes : old.item.write body old.item.values = old.item.patch body :=
    write_eq_patch fun _ _ _ => Eq.symm
  have member : old.item.patch body ∈
      shown (updateItem itemId body old.item.values (tables.items listId)) := by
    rw [updateItem, shown, List.map_map]
    refine List.mem_map.mpr ⟨old, present, ?_⟩
    rw [Function.comp_apply, if_pos named]
    exact writes
  have others : ∀ other : ListItem, other.id ≠ (old.item.patch body).id →
      (other ∈ shown (updateItem itemId body old.item.values (tables.items listId)) ↔
        other ∈ shown (tables.items listId)) := by
    intro other different
    have notThis : other.id ≠ itemId := fun same => different (same.trans named.symm)
    rw [updateItem, shown, List.map_map]
    constructor
    · intro inUpdated
      obtain ⟨current, inRows, rfl⟩ := List.mem_map.mp inUpdated
      rw [Function.comp_apply] at notThis ⊢
      split_ifs at notThis ⊢ with here
      · exact absurd here notThis
      · exact List.mem_map_of_mem inRows
    · intro inRows
      obtain ⟨current, here, rfl⟩ := List.mem_map.mp inRows
      refine List.mem_map.mpr ⟨current, here, ?_⟩
      rw [Function.comp_apply, if_neg notThis]
  refine ⟨known.setItems (caches.data_updateListItem today listId itemId _) fun _ =>
    ⟨rfl, rfl, rfl⟩, ?_⟩
  have patched : Known dashboardId tables (caches.patchListDetailById listId fun detail =>
      { detail with
        items := detail.items.map fun current =>
          if current.id = itemId then old.item.patch body else current }) :=
    known.patched rfl (caches.data_patchListDetailById listId _) fun _ => ⟨rfl, rfl, rfl⟩
  exact shows_patchAgenda wellFormed wellFormed' patched found member others loaded shows

end Mutations

/-- The mutations whose effect on the reminders is patched. -/
def Mutation.patchesReminders : Mutation → Bool
  | .addListItem .. | .updateListItem .. | .deleteListItem .. | .updateListName ..
  | .deleteList .. => true
  | _ => false

/-- **One mutation** that succeeds. -/
theorem derived_carried (wellFormed : tables.WellFormed) {mutation : Mutation} {response : Response}
    (carried : Carried tables mutation response next) (patches : mutation.patchesReminders = true)
    (before : Derived dashboardId today tables caches) :
    Derived dashboardId today next (mutation.patch today response caches) := by
  have wellFormed' := wellFormed.carried carried
  cases carried with
  | created => cases patches
  | renamed found => exact derived_renamed wellFormed before found _ _ _
  | deleted found => exact derived_deleted before found _
  | restored => cases patches
  | reordered => cases patches
  | itemAdded found unused served =>
      cases served with
      | created => exact derived_itemAdded wellFormed before found wellFormed'
  | itemUpdated found foundItem served =>
      cases served with
      | updated foundItem' =>
          cases foundItem.symm.trans foundItem'
          exact derived_itemUpdated wellFormed before found foundItem wellFormed'
  | itemDeleted found present served =>
      cases served with
      | deleted => exact derived_itemDeleted wellFormed before present
  | itemsReordered => cases patches

/-- A mutation of the page that is patched when it succeeds, as all but the reorders are. -/
def mutate (settings : ListSettings) (today : Nat) (state : Tables × Caches) (mutation : Mutation) :
    Tables × Caches :=
  match serve settings mutation state.1 with
  | .error _ => state
  | .ok (response, next) => (next, mutation.patch today response state.2)

/-- Every mutation that patches the reminders keeps them derived. -/
theorem derived_mutate (settings : ListSettings) {mutation : Mutation}
    (patches : mutation.patchesReminders = true) {state : Tables × Caches}
    (wellFormed : state.1.WellFormed)
    (before : Derived dashboardId today state.1 state.2) :
    (mutate settings today state mutation).1.WellFormed ∧
      Derived dashboardId today (mutate settings today state mutation).1
        (mutate settings today state mutation).2 := by
  rw [mutate]
  split
  next => exact ⟨wellFormed, before⟩
  next response next ok =>
    have carried := carried_of_ok ok
    exact ⟨wellFormed.carried carried, derived_carried wellFormed carried patches before⟩

/-- **Patched reminders** are those that a fetch would answer, after any mutations of items,
renames and deletions of lists within a day. -/
theorem reminders_patched (settings : ListSettings) (dashboardId : DashboardId) (today : Nat)
    (mutations : List Mutation) (patches : ∀ mutation ∈ mutations, mutation.patchesReminders = true)
    (tables : Tables) (caches : Caches) (wellFormed : tables.WellFormed)
    (agrees : Agrees dashboardId today tables caches) :
    let after := mutations.foldl (mutate settings today) (tables, caches)
    Agrees dashboardId today after.1 after.2 := by
  have preserved : ∀ (rest : List Mutation) (state : Tables × Caches),
      (∀ mutation ∈ rest, mutation.patchesReminders = true) → state.1.WellFormed →
        Derived dashboardId today state.1 state.2 →
          (rest.foldl (mutate settings today) state).1.WellFormed ∧
            Derived dashboardId today (rest.foldl (mutate settings today) state).1
              (rest.foldl (mutate settings today) state).2 := by
    intro rest
    induction rest with
    | nil => exact fun state _ wellFormed before => ⟨wellFormed, before⟩
    | cons mutation rest ih =>
        intro state patches wellFormed before
        obtain ⟨wellFormed', after⟩ :=
          derived_mutate settings (patches mutation List.mem_cons_self) wellFormed before
        exact ih _ (fun other member => patches other (List.mem_cons_of_mem mutation member))
          wellFormed' after
  obtain ⟨wellFormed', after⟩ := preserved mutations (tables, caches) patches wellFormed
    ((agrees_iff_derived wellFormed).mp agrees)
  exact (agrees_iff_derived wellFormed').mpr after

/-- One list with one item that was due yesterday. -/
def overdueTables : Tables where
  lists := [⟨1, 1, "Chores", .todo, 0, 7, 10, 10, none⟩]
  items := fun listId => if listId = 1 then [⟨⟨5, fun
    | .text => "Dust"
    | .checked => false
    | .dueDate => some 99
    | .priority => none
    | .category => none
    | .assignedTo => none⟩, 0, 20⟩] else []

def overdueCaches : Caches where
  summaries := fun _ => none
  details := Entries.seed 1 ⟨⟨1, 1, "Chores", .todo, 0, 7, 10, 10, 1⟩, []⟩ fun _ => none
  reminders := Entries.seed 1 [⟨5, "Dust", 99, 1, "Chores", none, .overdue⟩] fun _ => none

/-- The tables of the run below are well formed. -/
theorem overdueTables_wellFormed : overdueTables.WellFormed := by
  have items (listId : ListId) (itemId : ItemId)
      (member : itemId ∈ ids (shown (overdueTables.items listId))) : listId = 1 := by
    by_contra other
    rw [overdueTables] at member
    simp [other] at member
  refine ⟨by decide, fun listId => ?_, fun listId other itemId here there => ?_,
    fun listId absent => ?_⟩
  · dsimp only [overdueTables]
    split_ifs
    · exact List.nodup_singleton _
    · exact List.nodup_nil
  · exact (items listId itemId here).trans (items other itemId there).symm
  · refine if_neg fun same : listId = 1 => absent ?_
    rw [same]
    exact List.mem_cons_self

/-- The caches of the run below agree with its tables. -/
theorem overdue_agrees : Agrees 1 100 overdueTables overdueCaches := by
  refine (agrees_iff_derived overdueTables_wellFormed).mpr ⟨⟨?_, ?_⟩, _, rfl, ?_⟩
  · intro row member detail loaded
    cases List.mem_singleton.mp member
    cases loaded
    exact ⟨rfl, rfl⟩
  · intro row isLive
    cases List.mem_singleton.mp (Tables.mem_live.mp isLive).1
    exact ⟨_, rfl, rfl⟩
  · intro reminder
    rw [List.mem_singleton]
    constructor
    · rintro rfl
      exact ⟨(_, _), ⟨List.mem_cons_self, List.mem_cons_self⟩, rfl⟩
    · rintro ⟨⟨row, item⟩, ⟨isLive, member⟩, derived⟩
      cases List.mem_singleton.mp (Tables.mem_live.mp isLive).1
      cases List.mem_singleton.mp member
      cases derived
      rfl

/-- The list is renamed, a second item is added and given the day, and the first is checked. -/
theorem reminders_patched_overdue :
    let due : ListItemUpdate := ⟨fun
      | .dueDate => some (some 100)
      | _ => none, .dueDate, rfl⟩
    let check : ListItemUpdate := ⟨fun
      | .checked => some true
      | _ => none, .checked, rfl⟩
    let owner : ItemCaller := ⟨.owner, 1⟩
    let after :=
      [.updateListName ⟨.owner, fun _ => true⟩ 1 "House" 30, .addListItem owner 1 "Sweep" 6 40,
      .updateListItem owner 1 6 due, .updateListItem owner 1 5 check].foldl
        (mutate ⟨⟨25000, 5000⟩, 500, 100⟩ 100) (overdueTables, overdueCaches)
    Agrees 1 100 after.1 after.2 ∧
      after.2.reminders.data 1 = some [⟨6, "Sweep", 100, 1, "House", none, .today⟩] := by
  intro due check owner after
  refine ⟨reminders_patched _ 1 100 _ ?_ overdueTables overdueCaches overdueTables_wellFormed
    overdue_agrees, rfl⟩
  simp [Mutation.patchesReminders]

end FrontDashboard.Lists.Page
