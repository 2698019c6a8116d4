import FrontDashboard.Lists.Items
import FrontDashboard.Query.ScopedQuery

/-! # The caches a list is in

The page keeps the summaries of a dashboard's lists, the details of each list and the
reminders of a dashboard in three queries. A mutation of the page is not told to it by the
stream: when its response arrives, all three are patched by hand.
-/

namespace FrontDashboard.Lists.Page

open Query (QueryState emptyState)

abbrev DashboardId := Nat

abbrev UserId := Nat

inductive ListType
  | checklist
  | grocery
  | todo

/-- `ListSummary`. -/
structure ListSummary where
  id : ListId
  dashboardId : DashboardId
  name : String
  listType : ListType
  sortOrder : Nat
  createdBy : UserId
  createdAt : Nat
  updatedAt : Nat
  itemCount : Nat

/-- `ListDetail`. -/
structure ListDetail extends ListSummary where
  items : List ListItem

inductive Status
  | overdue
  | today
  deriving DecidableEq

/-- An `AgendaItem` that is a reminder. Its id is `reminder:` before that of its item. -/
structure Reminder where
  itemId : ItemId
  title : String
  dueDate : Nat
  listId : ListId
  listName : String
  priority : Option ItemPriority
  status : Status

/-- What a query has cached, by the scope of the entry. -/
abbrev Entries (Data : Type) := Nat → Option (QueryState Data String)

namespace Entries

variable {Data : Type}

/-- The data that is cached for a scope. -/
def data (scope : Nat) (entries : Entries Data) : Option Data :=
  (entries scope).bind QueryState.data

/-- `ensureEntry`. -/
def ensure (scope : Nat) (entries : Entries Data) : Entries Data :=
  Function.update entries scope ((entries scope).or (some emptyState))

/-- `updateWhere`. -/
def updateWhere (picks : Nat → Bool)
    (updater : QueryState Data String → QueryState Data String) (entries : Entries Data) :
    Entries Data :=
  fun scope => (entries scope).map fun state => if picks scope then updater state else state

/-- `seed`. -/
def seed (scope : Nat) (value : Data) (entries : Entries Data) : Entries Data :=
  Function.update entries scope (some ⟨some value, false, none⟩)

/-- The state when a request goes out, of a fetch in the background if there is data. -/
def refetching (state : QueryState Data String) : QueryState Data String :=
  match state.data with
  | none => ⟨none, true, none⟩
  | some value => if state.error.isSome then ⟨some value, false, none⟩ else state

/-- `fetch` up to its request, as `invalidateWhere` calls it. -/
def invalidate (scope : Nat) (entries : Entries Data) : Entries Data :=
  entries.updateWhere (· == scope) refetching

/-- The fulfilled branch of a request. -/
def fetched (scope : Nat) (value : Data) (entries : Entries Data) : Entries Data :=
  entries.updateWhere (· == scope) fun _ => ⟨some value, false, none⟩

/-- The rejected branch of a request. -/
def failed (scope : Nat) (error : String) (entries : Entries Data) : Entries Data :=
  entries.updateWhere (· == scope) fun state => ⟨state.data, false, some error⟩

end Entries

structure Caches where
  summaries : Entries (List ListSummary)
  details : Entries ListDetail
  reminders : Entries (List Reminder)

/-! ## The agenda -/

namespace Reminder

/-- `listItemToAgendaItem`. -/
def ofItem (item : ListItem) (listId : ListId) (listName : String) (today : Nat) :
    Option Reminder :=
  match item.values .dueDate with
  | none => none
  | some dueDate =>
      if item.values .checked || today < dueDate then none
      else some
        { itemId := item.id
          title := item.values .text
          dueDate := dueDate
          listId := listId
          listName := listName
          priority := item.values .priority
          status := if dueDate < today then .overdue else .today }

end Reminder

namespace Caches

/-- An updater of the reminders that have data. -/
def patchReminders (picks : DashboardId → Bool) (change : List Reminder → List Reminder)
    (caches : Caches) : Caches :=
  { caches with
    reminders := caches.reminders.updateWhere picks fun state =>
      { state with data := state.data.map change } }

/-- `applyAgendaItemUpdate`. -/
def applyAgendaItemUpdate (today : Nat) (dashboardId : DashboardId) (item : ListItem)
    (listId : ListId) (listName : String) (caches : Caches) : Caches :=
  caches.patchReminders (· == dashboardId) fun entries =>
    entries.filter (fun entry => entry.itemId ≠ item.id) ++
      (Reminder.ofItem item listId listName today).toList

/-- `removeAgendaItems`. -/
def removeAgendaItems (itemIds : List ItemId) (caches : Caches) : Caches :=
  caches.patchReminders (fun _ => true) fun entries =>
    entries.filter fun entry => entry.itemId ∉ itemIds

/-- `renameAgendaListEntries`. -/
def renameAgendaListEntries (listId : ListId) (listName : String) (caches : Caches) : Caches :=
  caches.patchReminders (fun _ => true) fun entries =>
    entries.map fun entry =>
      if entry.listId = listId then { entry with listName := listName } else entry

/-- `removeAgendaItemsForList`. -/
def removeAgendaItemsForList (listId : ListId) (caches : Caches) : Caches :=
  caches.patchReminders (fun _ => true) fun entries =>
    entries.filter fun entry => entry.listId ≠ listId

/-! ## Patches of the lists -/

/-- `patchListSummaryById`. A state without the list stays as it is. -/
def patchListSummaryById (listId : ListId) (updater : ListSummary → Option ListSummary)
    (caches : Caches) : Caches :=
  { caches with
    summaries := caches.summaries.updateWhere (fun _ => true) fun state =>
      { state with
        data := state.data.map fun lists =>
          lists.filterMap fun list => if list.id = listId then updater list else some list } }

/-- `patchListDetailById`, for the updaters that yield a detail. -/
def patchListDetailById (listId : ListId) (updater : ListDetail → ListDetail)
    (caches : Caches) : Caches :=
  { caches with
    details := caches.details.updateWhere (· == listId) fun state =>
      match state.data with
      | none => state
      | some detail => ⟨some (updater detail), false, state.error⟩ }

/-- `removeListFromCaches`. -/
def removeListFromCaches (listId : ListId) (caches : Caches) : Caches :=
  let removed := caches.patchListSummaryById listId fun _ => none
  { removed with
    details := removed.details.updateWhere (· == listId) fun _ =>
      ⟨none, false, some "List not found"⟩ }

/-- `applyCreatedList`. -/
def applyCreatedList (list : ListSummary) (caches : Caches) : Caches :=
  { caches with
    summaries := caches.summaries.updateWhere (· == list.dashboardId) fun state =>
      { state with data := some (state.data.elim [list] (· ++ [list])) }
    details := caches.details.seed list.id { list with items := [] } }

/-- `patchAgendaFromListDetail`. -/
def patchAgendaFromListDetail (today : Nat) (listId : ListId) (item : ListItem)
    (caches : Caches) : Caches :=
  let looked : Caches := { caches with details := caches.details.ensure listId }
  match looked.details.data listId with
  | none => looked
  | some detail => looked.applyAgendaItemUpdate today detail.dashboardId item detail.id detail.name

/-! ## The fulfilled branches of the page's mutations -/

/-- `updateListName`. -/
def updateListName (id : ListId) (updated : ListSummary) (caches : Caches) : Caches :=
  ((caches.patchListSummaryById id fun _ => some updated).patchListDetailById id fun detail =>
    { detail with name := updated.name, updatedAt := updated.updatedAt }).renameAgendaListEntries
      id updated.name

/-- `deleteList`. -/
def deleteList (id : ListId) (caches : Caches) : Caches :=
  (caches.removeListFromCaches id).removeAgendaItemsForList id

/-- `restoreList`, up to the request for the reminders. -/
def restoreList (id : ListId) (dashboardId : DashboardId) (restored : ListSummary)
    (caches : Caches) : Caches :=
  { caches with
    summaries := caches.summaries.updateWhere (· == dashboardId) fun state =>
      { state with
        data := state.data.map fun lists => lists.filter (fun list => list.id ≠ id) ++ [restored] }
    reminders := caches.reminders.invalidate dashboardId }

/-- `addListItem`. -/
def addListItem (today : Nat) (listId : ListId) (item : ListItem) (caches : Caches) : Caches :=
  ((caches.patchListDetailById listId fun detail =>
    { detail with
      items := detail.items ++ [item]
      itemCount := detail.itemCount + 1 }).patchListSummaryById listId fun list =>
        some { list with itemCount := list.itemCount + 1 }).patchAgendaFromListDetail today listId
          item

/-- `updateListItem`. -/
def updateListItem (today : Nat) (listId : ListId) (itemId : ItemId) (item : ListItem)
    (caches : Caches) : Caches :=
  (caches.patchListDetailById listId fun detail =>
    { detail with
      items := detail.items.map fun current => if current.id = itemId then item else current
      }).patchAgendaFromListDetail today listId item

/-- `deleteListItem`. -/
def deleteListItem (listId : ListId) (itemId : ItemId) (caches : Caches) : Caches :=
  ((caches.patchListDetailById listId fun detail =>
    { detail with
      items := detail.items.filter fun item => item.id ≠ itemId
      itemCount := detail.itemCount - 1 }).removeAgendaItems [itemId]).patchListSummaryById listId
        fun list => some { list with itemCount := list.itemCount - 1 }

/-! ## Reorders -/

/-- The saved copy of `reorderListItems`. -/
def previousItems (listId : ListId) (caches : Caches) : Option (List ListItem) :=
  ((caches.details.ensure listId).data listId).map ListDetail.items

/-- `reorderListItems` up to its request. An order that is none of the items changes nothing. -/
def reorderListItems (listId : ListId) (orderedIds : List ItemId) (caches : Caches) : Caches :=
  ({ caches with details := caches.details.ensure listId } : Caches).patchListDetailById listId
    fun detail => { detail with
      items := (Reorder.byKeys ListItem.id detail.items orderedIds).getD detail.items }

/-- The rejected branch of `reorderListItems`. -/
def rollBackItems (listId : ListId) (previous : Option (List ListItem)) (conflict : Bool)
    (caches : Caches) : Caches :=
  let restored : Caches :=
    match previous with
    | none => caches
    | some items => caches.patchListDetailById listId fun detail => { detail with items := items }
  if conflict then { restored with details := restored.details.invalidate listId } else restored

/-- The saved copy of `reorderLists`. -/
def previousLists (dashboardId : DashboardId) (caches : Caches) : Option (List ListSummary) :=
  (caches.summaries.ensure dashboardId).data dashboardId

/-- `reorderLists` up to its request. -/
def reorderLists (dashboardId : DashboardId) (orderedIds : List ListId) (caches : Caches) :
    Caches :=
  { caches with
    summaries := (caches.summaries.ensure dashboardId).updateWhere (· == dashboardId) fun state =>
      { state with data := state.data.map fun lists =>
          (Reorder.byKeys ListSummary.id lists orderedIds).getD lists } }

/-- The rejected branch of `reorderLists`. -/
def rollBackLists (dashboardId : DashboardId) (previous : Option (List ListSummary))
    (conflict : Bool) (caches : Caches) : Caches :=
  let restored : Caches :=
    match previous with
    | none => caches
    | some lists =>
        { caches with
          summaries := caches.summaries.updateWhere (· == dashboardId) fun state =>
            { state with data := some lists } }
  if conflict then { restored with summaries := restored.summaries.invalidate dashboardId }
  else restored

/-! ## Frames -/

/-- `list.item.checked` and `list.item.updated`, with values. -/
def onItemUpdated (listId : ListId) (itemId : ItemId) (values : ListItemUpdate)
    (caches : Caches) : Caches :=
  let looked : Caches := { caches with details := caches.details.ensure listId }
  if (looked.details.data listId).any fun detail => detail.items.any (·.id = itemId) then
    looked.patchListDetailById listId fun detail =>
      { detail with
        items := detail.items.map fun item => if item.id = itemId then item.patch values else item }
  else
    let unpatched := looked.patchListDetailById listId id
    { unpatched with details := unpatched.details.invalidate listId }

/-- `list.item.reordered`. -/
def onItemReordered (listId : ListId) (itemIds : List ItemId) (caches : Caches) : Caches :=
  let looked : Caches := { caches with details := caches.details.ensure listId }
  if (looked.details.data listId).any fun detail =>
      (Reorder.byKeys ListItem.id detail.items itemIds).isSome then
    looked.reorderListItems listId itemIds
  else
    let unpatched := looked.patchListDetailById listId id
    { unpatched with details := unpatched.details.invalidate listId }

/-- `list.reordered`. -/
def onReordered (dashboardId : DashboardId) (listIds : List ListId) (caches : Caches) : Caches :=
  let looked : Caches := { caches with summaries := caches.summaries.ensure dashboardId }
  if (looked.summaries.data dashboardId).any fun lists =>
      (Reorder.byKeys ListSummary.id lists listIds).isSome then
    looked.reorderLists dashboardId listIds
  else { looked with summaries := looked.summaries.invalidate dashboardId }

/-- The frames that have the lists of a dashboard fetched, or a list, or both. -/
def onOther (dashboardId : Option DashboardId) (listId : Option ListId) (caches : Caches) :
    Caches :=
  { caches with
    summaries := dashboardId.elim caches.summaries fun id => caches.summaries.invalidate id
    details := listId.elim caches.details fun id => caches.details.invalidate id }

end Caches

/-! ## What is cached after a patch -/

variable {Data : Type}

theorem Entries.data_updateWhere (scope : Nat) (picks : Nat → Bool)
    (updater : QueryState Data String → QueryState Data String) (entries : Entries Data) :
    (entries.updateWhere picks updater).data scope =
      (entries scope).bind fun state => (if picks scope then updater state else state).data := by
  rw [Entries.data, Entries.updateWhere]
  cases entries scope <;> rfl

theorem Entries.data_seed (scope other : Nat) (value : Data) (entries : Entries Data) :
    (entries.seed other value).data scope =
      if scope = other then some value else entries.data scope := by
  rw [Entries.data, Entries.seed, Function.update_apply]
  split_ifs <;> rfl

theorem Entries.data_ensure (scope other : Nat) (entries : Entries Data) :
    (entries.ensure other).data scope = entries.data scope := by
  rw [Entries.data, Entries.ensure, Function.update_apply]
  split_ifs with here
  · subst here
    rw [Entries.data]
    cases entries scope <;> rfl
  · rfl

/-- A change of the data of the scopes that are picked. -/
theorem Entries.data_updateWhere_map (scope : Nat) (picks : Nat → Bool) (change : Data → Data)
    (entries : Entries Data) :
    (entries.updateWhere picks fun state => { state with data := state.data.map change }).data
        scope =
      if picks scope then (entries.data scope).map change else entries.data scope := by
  rw [Entries.data_updateWhere, Entries.data]
  cases entries scope with
  | none => simp
  | some state => cases picks scope <;> rfl

namespace Caches

variable (caches : Caches)

theorem data_patchListSummaryById (listId : ListId) (updater : ListSummary → Option ListSummary)
    (dashboardId : DashboardId) :
    (caches.patchListSummaryById listId updater).summaries.data dashboardId =
      (caches.summaries.data dashboardId).map fun lists =>
        lists.filterMap fun list => if list.id = listId then updater list else some list :=
  Entries.data_updateWhere_map dashboardId _ _ caches.summaries

/-- A patch that keeps the list. -/
theorem data_patchListSummaryById_some (listId : ListId) (updater : ListSummary → ListSummary)
    (dashboardId : DashboardId) :
    (caches.patchListSummaryById listId fun list => some (updater list)).summaries.data
        dashboardId =
      (caches.summaries.data dashboardId).map fun lists =>
        lists.map fun list => if list.id = listId then updater list else list := by
  rw [data_patchListSummaryById]
  congr 1
  funext lists
  rw [← List.filterMap_eq_map]
  apply List.filterMap_congr
  intro list _
  rw [Function.comp_apply]
  split_ifs <;> rfl

theorem data_patchListDetailById (listId : ListId) (updater : ListDetail → ListDetail)
    (scope : ListId) :
    (caches.patchListDetailById listId updater).details.data scope =
      if scope = listId then (caches.details.data scope).map updater
      else caches.details.data scope := by
  change (caches.details.updateWhere _ _).data scope = _
  rw [Entries.data_updateWhere, Entries.data]
  cases caches.details scope with
  | none => simp
  | some state =>
      obtain ⟨data, loading, error⟩ := state
      by_cases here : scope = listId
      · cases data <;> simp [here]
      · simp [here]

theorem patchAgendaFromListDetail_summaries (today : Nat) (listId : ListId) (item : ListItem) :
    (caches.patchAgendaFromListDetail today listId item).summaries = caches.summaries := by
  rw [Caches.patchAgendaFromListDetail]
  dsimp only
  split <;> rfl

theorem data_patchAgendaFromListDetail (today : Nat) (listId : ListId) (item : ListItem)
    (scope : ListId) :
    (caches.patchAgendaFromListDetail today listId item).details.data scope =
      caches.details.data scope := by
  rw [Caches.patchAgendaFromListDetail]
  dsimp only
  split
  · exact Entries.data_ensure scope listId caches.details
  · exact Entries.data_ensure scope listId caches.details

theorem data_addListItem (today : Nat) (listId : ListId) (item : ListItem) (scope : ListId) :
    (caches.addListItem today listId item).details.data scope =
      if scope = listId then
        (caches.details.data scope).map fun detail =>
          { detail with items := detail.items ++ [item], itemCount := detail.itemCount + 1 }
      else caches.details.data scope := by
  rw [addListItem, data_patchAgendaFromListDetail]
  exact caches.data_patchListDetailById listId _ scope

theorem data_updateListItem (today : Nat) (listId : ListId) (itemId : ItemId) (item : ListItem)
    (scope : ListId) :
    (caches.updateListItem today listId itemId item).details.data scope =
      if scope = listId then
        (caches.details.data scope).map fun detail =>
          { detail with
            items := detail.items.map fun current => if current.id = itemId then item else current }
      else caches.details.data scope := by
  rw [updateListItem, data_patchAgendaFromListDetail]
  exact caches.data_patchListDetailById listId _ scope

theorem data_deleteListItem (listId : ListId) (itemId : ItemId) (scope : ListId) :
    (caches.deleteListItem listId itemId).details.data scope =
      if scope = listId then
        (caches.details.data scope).map fun detail =>
          { detail with
            items := detail.items.filter fun item => item.id ≠ itemId
            itemCount := detail.itemCount - 1 }
      else caches.details.data scope :=
  caches.data_patchListDetailById listId _ scope

theorem data_reorderListItems (listId : ListId) (orderedIds : List ItemId) (scope : ListId) :
    (caches.reorderListItems listId orderedIds).details.data scope =
      if scope = listId then
        (caches.details.data scope).map fun detail =>
          { detail with
            items := (Reorder.byKeys ListItem.id detail.items orderedIds).getD detail.items }
      else caches.details.data scope := by
  rw [reorderListItems, data_patchListDetailById, Entries.data_ensure]

end Caches

end FrontDashboard.Lists.Page
