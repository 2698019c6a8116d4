import FrontDashboard.Lists.Page
import Mathlib.Data.Option.Basic

/-! # A reorder that fails

While the request of a reorder is on its way, the cached list goes on being patched,
invalidated and fetched. A failure puts back the copy that was saved before the reorder.
-/

namespace FrontDashboard.Lists.Page

open Query (QueryState)

/-! ## What else happens to the caches -/

/-- A patch by another mutation of the page or by a frame, or a step of a fetch. -/
inductive Change
  | created (list : ListSummary)
  | renamed (id : ListId) (updated : ListSummary)
  | removed (id : ListId)
  | restored (id : ListId) (dashboardId : DashboardId) (restored : ListSummary)
  | itemAdded (listId : ListId) (item : ListItem)
  | itemUpdated (listId : ListId) (itemId : ItemId) (item : ListItem)
  | itemDeleted (listId : ListId) (itemId : ItemId)
  | itemsReordered (listId : ListId) (orderedIds : List ItemId)
  | listsReordered (dashboardId : DashboardId) (orderedIds : List ListId)
  | itemsRolledBack (listId : ListId) (previous : Option (List ListItem)) (conflict : Bool)
  | listsRolledBack (dashboardId : DashboardId) (previous : Option (List ListSummary))
      (conflict : Bool)
  | itemFrame (listId : ListId) (itemId : ItemId) (values : ListItemUpdate)
  | itemOrderFrame (listId : ListId) (itemIds : List ItemId)
  | orderFrame (dashboardId : DashboardId) (listIds : List ListId)
  | deletedFrame (id : ListId)
  | otherFrame (dashboardId : Option DashboardId) (listId : Option ListId)
  | detailFetched (listId : ListId) (detail : ListDetail)
  | detailFailed (listId : ListId) (error : String)
  | summariesFetched (dashboardId : DashboardId) (lists : List ListSummary)
  | summariesFailed (dashboardId : DashboardId) (error : String)

def Change.apply (today : Nat) : Change → Caches → Caches
  | .created list, caches => caches.applyCreatedList list
  | .renamed id updated, caches => caches.updateListName id updated
  | .removed id, caches => caches.deleteList id
  | .restored id dashboardId response, caches => caches.restoreList id dashboardId response
  | .itemAdded listId item, caches => caches.addListItem today listId item
  | .itemUpdated listId itemId item, caches => caches.updateListItem today listId itemId item
  | .itemDeleted listId itemId, caches => caches.deleteListItem listId itemId
  | .itemsReordered listId orderedIds, caches => caches.reorderListItems listId orderedIds
  | .listsReordered dashboardId orderedIds, caches => caches.reorderLists dashboardId orderedIds
  | .itemsRolledBack listId previous conflict, caches =>
      caches.rollBackItems listId previous conflict
  | .listsRolledBack dashboardId previous conflict, caches =>
      caches.rollBackLists dashboardId previous conflict
  | .itemFrame listId itemId values, caches => caches.onItemUpdated listId itemId values
  | .itemOrderFrame listId itemIds, caches => caches.onItemReordered listId itemIds
  | .orderFrame dashboardId listIds, caches => caches.onReordered dashboardId listIds
  | .deletedFrame id, caches => caches.removeListFromCaches id
  | .otherFrame dashboardId listId, caches => caches.onOther dashboardId listId
  | .detailFetched listId detail, caches =>
      { caches with details := caches.details.fetched listId detail }
  | .detailFailed listId error, caches =>
      { caches with details := caches.details.failed listId error }
  | .summariesFetched dashboardId lists, caches =>
      { caches with summaries := caches.summaries.fetched dashboardId lists }
  | .summariesFailed dashboardId error, caches =>
      { caches with summaries := caches.summaries.failed dashboardId error }

/-- Changes one after another. -/
def Caches.run (today : Nat) (changes : List Change) (caches : Caches) : Caches :=
  changes.foldl (fun caches change => change.apply today caches) caches

/-- The cached items of a list. -/
def Caches.items (listId : ListId) (caches : Caches) : Option (List ListItem) :=
  (caches.details.data listId).map ListDetail.items

/-! ## Caches that differ in order -/

variable {Data : Type} {same : Data → Data → Prop}

/-- The same entries, with data that are the same but for their order. -/
def Entries.Alike (same : Data → Data → Prop) (entries others : Entries Data) : Prop :=
  ∀ scope, Option.Rel (fun state other => Option.Rel same state.data other.data)
    (entries scope) (others scope)

/-- Related data stay related under changes that keep the relation. -/
theorem rel_map {first second : Option Data} {change other : Data → Data}
    (related : Option.Rel same first second)
    (keeps : ∀ value value', same value value' → same (change value) (other value')) :
    Option.Rel same (first.map change) (second.map other) := by
  cases related with
  | some holds => exact .some (keeps _ _ holds)
  | none => exact .none

theorem rel_refl (refl : ∀ value, same value value) (value : Option Data) :
    Option.Rel same value value := by
  cases value with
  | none => exact .none
  | some value => exact .some (refl value)

theorem rel_symm (symm : ∀ value value', same value value' → same value' value)
    {first second : Option Data} (related : Option.Rel same first second) :
    Option.Rel same second first := by
  cases related with
  | some holds => exact .some (symm _ _ holds)
  | none => exact .none

theorem rel_trans
    (trans : ∀ value value' value'', same value value' → same value' value'' → same value value'')
    {first second third : Option Data} (related : Option.Rel same first second)
    (related' : Option.Rel same second third) : Option.Rel same first third := by
  cases related with
  | none => exact related'
  | some holds => cases related' with | some holds' => exact .some (trans _ _ _ holds holds')

/-- An entry that is there is not made again. -/
theorem Entries.ensure_ensure (scope : Nat) (entries : Entries Data) :
    (entries.ensure scope).ensure scope = entries.ensure scope := by
  rw [Entries.ensure, Entries.ensure, Function.update_idem, Function.update_self]
  cases entries scope <;> rfl

namespace Entries.Alike

variable {entries others : Entries Data} {scope : Nat}

theorem refl (refl : ∀ value, same value value) (entries : Entries Data) :
    Alike same entries entries := by
  intro scope
  cases entries scope with
  | none => exact .none
  | some state => exact .some (rel_refl refl state.data)

theorem symm (symm : ∀ value value', same value value' → same value' value)
    (alike : Alike same entries others) : Alike same others entries :=
  fun scope => rel_symm (fun _ _ => rel_symm symm) (alike scope)

theorem trans {further : Entries Data}
    (trans : ∀ value value' value'', same value value' → same value' value'' → same value value'')
    (alike : Alike same entries others) (alike' : Alike same others further) :
    Alike same entries further := by
  intro scope
  refine rel_trans ?_ (alike scope) (alike' scope)
  exact fun _ _ _ related related' => rel_trans trans related related'

/-- An updater that keeps data the same makes entries like themselves before. -/
theorem updateWhere_self (refl : ∀ value, same value value) (picks : Nat → Bool)
    {updater : QueryState Data String → QueryState Data String}
    (keeps : ∀ state, Option.Rel same state.data (updater state).data) (entries : Entries Data) :
    Alike same entries (entries.updateWhere picks updater) := by
  intro scope
  rw [Entries.updateWhere]
  cases entries scope with
  | none => exact .none
  | some state =>
      refine .some ?_
      dsimp only
      split_ifs
      · exact keeps state
      · exact rel_refl refl state.data

/-- Entries that are alike hold data that are. -/
theorem data (alike : Alike same entries others) (scope : Nat) :
    Option.Rel same (entries.data scope) (others.data scope) := by
  have here := alike scope
  rw [Entries.data, Entries.data]
  generalize entries scope = state at here ⊢
  generalize others scope = other at here ⊢
  cases here with
  | some related => exact related
  | none => exact .none

/-- An entry is made in both. -/
theorem ensure (alike : Alike same entries others) (scope : Nat) :
    Alike same (entries.ensure scope) (others.ensure scope) := by
  intro other
  rw [Entries.ensure, Entries.ensure, Function.update_apply, Function.update_apply]
  split_ifs with here
  · have there := alike scope
    generalize entries scope = state at there ⊢
    generalize others scope = state' at there ⊢
    cases there with
    | some related => exact .some related
    | none => exact .some .none
  · exact alike other

/-- Updaters that keep data the same keep entries alike. They need not be one. -/
theorem updateWhere (alike : Alike same entries others) (picks : Nat → Bool)
    {updater other : QueryState Data String → QueryState Data String}
    (keeps : ∀ state state', Option.Rel same state.data state'.data →
      Option.Rel same (updater state).data (other state').data) :
    Alike same (entries.updateWhere picks updater) (others.updateWhere picks other) := by
  intro scope
  rw [Entries.updateWhere, Entries.updateWhere]
  have here := alike scope
  generalize entries scope = state at here ⊢
  generalize others scope = state' at here ⊢
  cases here with
  | some related =>
      refine .some ?_
      split_ifs
      · exact keeps _ _ related
      · exact related
  | none => exact .none

/-- The same value is put into both. -/
theorem seed (alike : Alike same entries others) {value : Data} (refl : same value value)
    (scope : Nat) : Alike same (entries.seed scope value) (others.seed scope value) := by
  intro other
  rw [Entries.seed, Entries.seed, Function.update_apply, Function.update_apply]
  split_ifs
  · exact .some (.some refl)
  · exact alike other

/-- A request that goes out leaves the data as they are. -/
theorem refetching_data (state : QueryState Data String) :
    (Entries.refetching state).data = state.data := by
  rw [Entries.refetching]
  split
  next absent => exact absent.symm
  next loaded =>
    split_ifs
    · exact loaded.symm
    · rfl

/-- Marking a scope stale leaves entries alike. -/
theorem invalidate (alike : Alike same entries others) (scope : Nat) :
    Alike same (entries.invalidate scope) (others.invalidate scope) := by
  refine alike.updateWhere _ fun state state' related => ?_
  rw [refetching_data, refetching_data]
  exact related

/-- A request that goes out makes no difference to the data. -/
theorem invalidate_self (refl : ∀ value, same value value) (scope : Nat)
    (entries : Entries Data) : Alike same entries (entries.invalidate scope) := by
  refine updateWhere_self refl _ (fun state => ?_) entries
  rw [refetching_data]
  exact rel_refl refl state.data

/-- The same answer lands in both. -/
theorem fetched (alike : Alike same entries others) {value : Data} (refl : same value value)
    (scope : Nat) : Alike same (entries.fetched scope value) (others.fetched scope value) :=
  alike.updateWhere _ fun _ _ _ => .some refl

/-- The same error lands in both. -/
theorem failed (alike : Alike same entries others) (scope : Nat) (error : String) :
    Alike same (entries.failed scope error) (others.failed scope error) :=
  alike.updateWhere _ fun _ _ related => related

end Entries.Alike

/-- Caches that differ in the order of items and lists, and in nothing else about these. -/
structure Caches.Alike (caches others : Caches) : Prop where
  details : Entries.Alike (fun detail other => detail.items.Perm other.items)
    caches.details others.details
  summaries : Entries.Alike List.Perm caches.summaries others.summaries

namespace Caches.Alike

variable {caches others : Caches}

theorem refl (caches : Caches) : Alike caches caches :=
  ⟨.refl (fun _ => .refl _) _, .refl (fun _ => .refl _) _⟩

/-- Reminders are no part of it. -/
theorem of_lists {after after' : Caches} (alike : Alike caches others)
    (details : after.details = caches.details) (summaries : after.summaries = caches.summaries)
    (details' : after'.details = others.details)
    (summaries' : after'.summaries = others.summaries) : Alike after after' := by
  constructor
  · rw [details, details']
    exact alike.details
  · rw [summaries, summaries']
    exact alike.summaries

/-- Reminders are not compared, so their patches may differ. -/
theorem patchReminders (alike : Alike caches others) (picks picks' : DashboardId → Bool)
    (change change' : List Reminder → List Reminder) :
    Alike (caches.patchReminders picks change) (others.patchReminders picks' change') :=
  ⟨alike.details, alike.summaries⟩

/-- The entry of a list is made in both. -/
theorem ensureDetail (alike : Alike caches others) (listId : ListId) :
    Alike { caches with details := caches.details.ensure listId }
      { others with details := others.details.ensure listId } :=
  ⟨alike.details.ensure listId, alike.summaries⟩

/-- A patch of one list keeps caches alike when it keeps the items up to their order. -/
theorem patchListDetailById (alike : Alike caches others) (listId : ListId)
    {updater other : ListDetail → ListDetail}
    (keeps : ∀ detail detail' : ListDetail, detail.items.Perm detail'.items →
      (updater detail).items.Perm (other detail').items) :
    Alike (caches.patchListDetailById listId updater)
      (others.patchListDetailById listId other) := by
  refine ⟨alike.details.updateWhere _ ?_, alike.summaries⟩
  rintro ⟨data, loading, error⟩ ⟨data', loading', error'⟩ related
  dsimp only at related ⊢
  cases related with
  | some holds => exact .some (keeps _ _ holds)
  | none => exact .none

/-- A patch of one summary keeps caches alike. -/
theorem patchListSummaryById (alike : Alike caches others) (listId : ListId)
    (updater : ListSummary → Option ListSummary) :
    Alike (caches.patchListSummaryById listId updater)
      (others.patchListSummaryById listId updater) := by
  refine ⟨alike.details, alike.summaries.updateWhere _ fun state state' related => ?_⟩
  exact rel_map related fun _ _ holds => holds.filterMap _

/-- A patch of the agenda leaves caches alike. -/
theorem patchAgendaFromListDetail (alike : Alike caches others) (today : Nat) (listId : ListId)
    (item : ListItem) :
    Alike (caches.patchAgendaFromListDetail today listId item)
      (others.patchAgendaFromListDetail today listId item) := by
  refine (alike.ensureDetail listId).of_lists ?_ ?_ ?_ ?_ <;>
    · rw [Caches.patchAgendaFromListDetail]
      dsimp only
      split <;> rfl

/-- A list that is created lands in both. -/
theorem applyCreatedList (alike : Alike caches others) (list : ListSummary) :
    Alike (caches.applyCreatedList list) (others.applyCreatedList list) := by
  refine ⟨alike.details.seed (.refl _) list.id, alike.summaries.updateWhere _ ?_⟩
  rintro ⟨data, loading, error⟩ ⟨data', loading', error'⟩ related
  dsimp only at related ⊢
  cases related with
  | some holds => exact .some (holds.append_right [list])
  | none => exact .some (.refl _)

theorem removeListFromCaches (alike : Alike caches others) (listId : ListId) :
    Alike (caches.removeListFromCaches listId) (others.removeListFromCaches listId) := by
  have removed := alike.patchListSummaryById listId fun _ => none
  exact ⟨removed.details.updateWhere _ fun _ _ _ => .none, removed.summaries⟩

theorem updateListName (alike : Alike caches others) (id : ListId) (updated : ListSummary) :
    Alike (caches.updateListName id updated) (others.updateListName id updated) := by
  refine ((alike.patchListSummaryById id _).patchListDetailById id ?_).patchReminders _ _ _ _
  exact fun _ _ holds => holds

theorem deleteList (alike : Alike caches others) (id : ListId) :
    Alike (caches.deleteList id) (others.deleteList id) :=
  (alike.removeListFromCaches id).patchReminders _ _ _ _

theorem restoreList (alike : Alike caches others) (id : ListId) (dashboardId : DashboardId)
    (restored : ListSummary) :
    Alike (caches.restoreList id dashboardId restored)
      (others.restoreList id dashboardId restored) := by
  refine ⟨alike.details, alike.summaries.updateWhere _ fun state state' related => ?_⟩
  exact rel_map related fun _ _ holds => (holds.filter _).append_right _

theorem addListItem (alike : Alike caches others) (today : Nat) (listId : ListId)
    (item : ListItem) :
    Alike (caches.addListItem today listId item) (others.addListItem today listId item) := by
  refine ((alike.patchListDetailById listId fun detail detail' holds => ?_).patchListSummaryById
    listId _).patchAgendaFromListDetail today listId item
  exact holds.append_right [item]

theorem updateListItem (alike : Alike caches others) (today : Nat) (listId : ListId)
    (itemId : ItemId) (item : ListItem) :
    Alike (caches.updateListItem today listId itemId item)
      (others.updateListItem today listId itemId item) := by
  refine (alike.patchListDetailById listId fun detail detail' holds =>
    ?_).patchAgendaFromListDetail today listId item
  exact holds.map _

theorem deleteListItem (alike : Alike caches others) (listId : ListId) (itemId : ItemId) :
    Alike (caches.deleteListItem listId itemId) (others.deleteListItem listId itemId) := by
  refine ((alike.patchListDetailById listId ?_).patchReminders _ _ _ _).patchListSummaryById
    listId _
  exact fun _ _ holds => holds.filter _

/-- An order changes no more than the order, whether it is one of the items or not. -/
theorem reorderListItems (alike : Alike caches others) (listId : ListId)
    (orderedIds : List ItemId) :
    Alike (caches.reorderListItems listId orderedIds)
      (others.reorderListItems listId orderedIds) := by
  refine (alike.ensureDetail listId).patchListDetailById listId fun detail detail' holds => ?_
  exact (Reorder.getD_byKeys_perm _ _).trans (holds.trans (Reorder.getD_byKeys_perm _ _).symm)

theorem reorderLists (alike : Alike caches others) (dashboardId : DashboardId)
    (orderedIds : List ListId) :
    Alike (caches.reorderLists dashboardId orderedIds)
      (others.reorderLists dashboardId orderedIds) := by
  refine ⟨alike.details, (alike.summaries.ensure dashboardId).updateWhere _ ?_⟩
  intro state state' related
  refine rel_map related fun lists lists' holds => ?_
  exact (Reorder.getD_byKeys_perm _ _).trans (holds.trans (Reorder.getD_byKeys_perm _ _).symm)

/-- The same list is fetched again in both. -/
theorem invalidateDetail (alike : Alike caches others) (listId : ListId) :
    Alike { caches with details := caches.details.invalidate listId }
      { others with details := others.details.invalidate listId } :=
  ⟨alike.details.invalidate listId, alike.summaries⟩

/-- The same summaries are fetched again in both. -/
theorem invalidateSummaries (alike : Alike caches others) (dashboardId : DashboardId) :
    Alike { caches with summaries := caches.summaries.invalidate dashboardId }
      { others with summaries := others.summaries.invalidate dashboardId } :=
  ⟨alike.details, alike.summaries.invalidate dashboardId⟩

/-- The items are put back in both. -/
theorem rollBackItems (alike : Alike caches others) (listId : ListId)
    (previous : Option (List ListItem)) (conflict : Bool) :
    Alike (caches.rollBackItems listId previous conflict)
      (others.rollBackItems listId previous conflict) := by
  have restored : Alike (caches.rollBackItems listId previous false)
      (others.rollBackItems listId previous false) := by
    cases previous with
    | none => exact alike
    | some items => exact alike.patchListDetailById listId fun _ _ _ => .refl items
  cases conflict with
  | false => exact restored
  | true => exact restored.invalidateDetail listId

/-- The lists are put back in both. -/
theorem rollBackLists (alike : Alike caches others) (dashboardId : DashboardId)
    (previous : Option (List ListSummary)) (conflict : Bool) :
    Alike (caches.rollBackLists dashboardId previous conflict)
      (others.rollBackLists dashboardId previous conflict) := by
  have restored : Alike (caches.rollBackLists dashboardId previous false)
      (others.rollBackLists dashboardId previous false) := by
    cases previous with
    | none => exact alike
    | some lists =>
        exact ⟨alike.details, alike.summaries.updateWhere _ fun _ _ _ => .some (.refl lists)⟩
  cases conflict with
  | false => exact restored
  | true => exact restored.invalidateSummaries dashboardId

theorem symm (alike : Alike caches others) : Alike others caches :=
  ⟨alike.details.symm fun _ _ => List.Perm.symm, alike.summaries.symm fun _ _ => List.Perm.symm⟩

theorem trans {further : Caches} (alike : Alike caches others) (alike' : Alike others further) :
    Alike caches further :=
  ⟨alike.details.trans (fun _ _ _ => List.Perm.trans) alike'.details,
    alike.summaries.trans (fun _ _ _ => List.Perm.trans) alike'.summaries⟩

/-- A patch that keeps the items up to their order makes no difference. -/
theorem patchListDetailById_self (caches : Caches) (listId : ListId)
    {updater : ListDetail → ListDetail} (keeps : ∀ detail : ListDetail,
      detail.items.Perm (updater detail).items) :
    Alike caches (caches.patchListDetailById listId updater) := by
  refine ⟨Entries.Alike.updateWhere_self (fun _ => .refl _) _ ?_ _, (Alike.refl caches).summaries⟩
  rintro ⟨data, loading, error⟩
  cases data with
  | none => exact .none
  | some detail => exact .some (keeps detail)

/-- A list that is fetched is like itself before. -/
theorem invalidated (caches : Caches) (listId : ListId) :
    Alike caches { caches.patchListDetailById listId id with
      details := (caches.patchListDetailById listId id).details.invalidate listId } := by
  refine (patchListDetailById_self caches listId fun _ => .refl _).trans ⟨?_, (refl _).summaries⟩
  exact Entries.Alike.invalidate_self (fun _ => .refl _) listId _

/-- An order of the items makes no difference. -/
theorem reorderListItems_self (caches : Caches) (listId : ListId) (orderedIds : List ItemId) :
    Alike { caches with details := caches.details.ensure listId }
      (caches.reorderListItems listId orderedIds) :=
  patchListDetailById_self _ listId fun _ => (Reorder.getD_byKeys_perm _ _).symm

/-- An order of the lists makes no difference. -/
theorem reorderLists_self (caches : Caches) (dashboardId : DashboardId)
    (orderedIds : List ListId) :
    Alike { caches with summaries := caches.summaries.ensure dashboardId }
      (caches.reorderLists dashboardId orderedIds) := by
  refine ⟨(refl _).details, Entries.Alike.updateWhere_self (fun _ => .refl _) _ ?_ _⟩
  rintro ⟨data, loading, error⟩
  cases data with
  | none => exact .none
  | some lists => exact .some (Reorder.getD_byKeys_perm _ _).symm

/-- A frame lands in both. -/
theorem onItemUpdated (alike : Alike caches others) (listId : ListId) (itemId : ItemId)
    (values : ListItemUpdate) :
    Alike (caches.onItemUpdated listId itemId values)
      (others.onItemUpdated listId itemId values) := by
  have looked := alike.ensureDetail listId
  have sameFits : ((caches.details.ensure listId).data listId).any
        (fun detail => detail.items.any (·.id = itemId)) =
      ((others.details.ensure listId).data listId).any
        (fun detail => detail.items.any (·.id = itemId)) := by
    have here := looked.details.data listId
    dsimp only at here
    generalize (caches.details.ensure listId).data listId = detail at here ⊢
    generalize (others.details.ensure listId).data listId = detail' at here ⊢
    cases here with
    | some holds => exact holds.any_eq
    | none => rfl
  rw [Caches.onItemUpdated, Caches.onItemUpdated]
  dsimp only
  rw [sameFits]
  split_ifs
  · exact looked.patchListDetailById listId fun _ _ holds => holds.map _
  · exact (invalidated _ listId).symm.trans (looked.trans (invalidated _ listId))

theorem onItemReordered (alike : Alike caches others) (listId : ListId) (itemIds : List ItemId) :
    Alike (caches.onItemReordered listId itemIds) (others.onItemReordered listId itemIds) := by
  have self : ∀ caches : Caches, Alike { caches with details := caches.details.ensure listId }
      (caches.onItemReordered listId itemIds) := by
    intro caches
    rw [Caches.onItemReordered]
    dsimp only
    split_ifs
    · have ordered := reorderListItems_self
        { caches with details := caches.details.ensure listId } listId itemIds
      rwa [Entries.ensure_ensure] at ordered
    · exact invalidated _ listId
  exact (self caches).symm.trans ((alike.ensureDetail listId).trans (self others))

theorem onReordered (alike : Alike caches others) (dashboardId : DashboardId)
    (listIds : List ListId) :
    Alike (caches.onReordered dashboardId listIds) (others.onReordered dashboardId listIds) := by
  have self : ∀ caches : Caches,
      Alike { caches with summaries := caches.summaries.ensure dashboardId }
        (caches.onReordered dashboardId listIds) := by
    intro caches
    rw [Caches.onReordered]
    dsimp only
    split_ifs
    · have ordered := reorderLists_self
        { caches with summaries := caches.summaries.ensure dashboardId } dashboardId listIds
      rwa [Entries.ensure_ensure] at ordered
    · refine ⟨(refl _).details, ?_⟩
      exact Entries.Alike.invalidate_self (fun _ => .refl _) dashboardId _
  have looked : Alike { caches with summaries := caches.summaries.ensure dashboardId }
      { others with summaries := others.summaries.ensure dashboardId } :=
    ⟨alike.details, alike.summaries.ensure dashboardId⟩
  exact (self caches).symm.trans (looked.trans (self others))

theorem onOther (alike : Alike caches others) (dashboardId : Option DashboardId)
    (listId : Option ListId) :
    Alike (caches.onOther dashboardId listId) (others.onOther dashboardId listId) := by
  constructor
  · cases listId with
    | none => exact alike.details
    | some id => exact alike.details.invalidate id
  · cases dashboardId with
    | none => exact alike.summaries
    | some id => exact alike.summaries.invalidate id

/-- **A change** of caches that differ in order leaves them so. -/
theorem apply (alike : Alike caches others) (today : Nat) (change : Change) :
    Alike (change.apply today caches) (change.apply today others) := by
  cases change with
  | created list => exact alike.applyCreatedList list
  | renamed id updated => exact alike.updateListName id updated
  | removed id => exact alike.deleteList id
  | restored id dashboardId response => exact alike.restoreList id dashboardId response
  | itemAdded listId item => exact alike.addListItem today listId item
  | itemUpdated listId itemId item => exact alike.updateListItem today listId itemId item
  | itemDeleted listId itemId => exact alike.deleteListItem listId itemId
  | itemsReordered listId orderedIds => exact alike.reorderListItems listId orderedIds
  | listsReordered dashboardId orderedIds => exact alike.reorderLists dashboardId orderedIds
  | itemsRolledBack listId previous conflict => exact alike.rollBackItems listId previous conflict
  | listsRolledBack dashboardId previous conflict =>
      exact alike.rollBackLists dashboardId previous conflict
  | itemFrame listId itemId values => exact alike.onItemUpdated listId itemId values
  | itemOrderFrame listId itemIds => exact alike.onItemReordered listId itemIds
  | orderFrame dashboardId listIds => exact alike.onReordered dashboardId listIds
  | deletedFrame id => exact alike.removeListFromCaches id
  | otherFrame dashboardId listId => exact alike.onOther dashboardId listId
  | detailFetched listId detail =>
      exact ⟨alike.details.fetched (.refl _) listId, alike.summaries⟩
  | detailFailed listId error => exact ⟨alike.details.failed listId error, alike.summaries⟩
  | summariesFetched dashboardId lists =>
      exact ⟨alike.details, alike.summaries.fetched (.refl _) dashboardId⟩
  | summariesFailed dashboardId error =>
      exact ⟨alike.details, alike.summaries.failed dashboardId error⟩

/-- **Any changes** do. -/
theorem run (alike : Alike caches others) (today : Nat) (changes : List Change) :
    Alike (caches.run today changes) (others.run today changes) := by
  induction changes generalizing caches others with
  | nil => exact alike
  | cons change rest ih => exact ih (alike.apply today change)

end Caches.Alike

/-! ## Summaries that are cached stay so -/

/-- A patch that keeps data leaves what is loaded loaded. -/
theorem Entries.isSome_updateWhere {scope : Nat} {entries : Entries Data}
    (loaded : (entries.data scope).isSome = true) (picks : Nat → Bool)
    {updater : QueryState Data String → QueryState Data String}
    (keeps : ∀ state, state.data.isSome = true → (updater state).data.isSome = true) :
    ((entries.updateWhere picks updater).data scope).isSome = true := by
  rw [Entries.data_updateWhere]
  rw [Entries.data] at loaded
  cases here : entries scope with
  | none =>
      rw [here] at loaded
      cases loaded
  | some state =>
      rw [here] at loaded
      change (if picks scope then updater state else state).data.isSome = true
      split_ifs
      · exact keeps state loaded
      · exact loaded

/-- An entry made for one scope unloads no other. -/
theorem Entries.isSome_ensure {scope : Nat} {entries : Entries Data}
    (loaded : (entries.data scope).isSome = true) (other : Nat) :
    ((entries.ensure other).data scope).isSome = true := by
  rw [Entries.data] at loaded
  rw [Entries.data, Entries.ensure, Function.update_apply]
  split_ifs with here
  · subst here
    cases there : entries scope with
    | none =>
        rw [there] at loaded
        cases loaded
    | some state =>
        rw [there] at loaded
        exact loaded
  · exact loaded

/-- What is loaded stays loaded while it is fetched again. -/
theorem Entries.isSome_invalidate {scope : Nat} {entries : Entries Data}
    (loaded : (entries.data scope).isSome = true) (other : Nat) :
    ((entries.invalidate other).data scope).isSome = true := by
  refine Entries.isSome_updateWhere loaded _ fun state hasData => ?_
  rw [Entries.Alike.refetching_data]
  exact hasData

/-- A change leaves loaded what is. -/
theorem map_isSome {change : Data → Data} {value : Option Data} (loaded : value.isSome = true) :
    (value.map change).isSome = true := by
  rw [Option.isSome_map, loaded]

/-- No change empties the summaries. -/
theorem Change.summaries_isSome {dashboardId : DashboardId} {caches : Caches}
    (loaded : (caches.summaries.data dashboardId).isSome = true) (today : Nat)
    (change : Change) :
    ((change.apply today caches).summaries.data dashboardId).isSome = true := by
  cases change with
  | created list => exact Entries.isSome_updateWhere loaded _ fun _ _ => rfl
  | renamed _ _ | removed _ => exact Entries.isSome_updateWhere loaded _ fun _ => map_isSome
  | restored id dashboardId response =>
      exact Entries.isSome_updateWhere loaded _ fun _ => map_isSome
  | itemAdded listId item =>
      rw [Change.apply, Caches.addListItem, Caches.patchAgendaFromListDetail_summaries]
      exact Entries.isSome_updateWhere loaded _ fun _ => map_isSome
  | itemUpdated listId itemId item =>
      rw [Change.apply, Caches.updateListItem, Caches.patchAgendaFromListDetail_summaries]
      exact loaded
  | itemDeleted listId itemId => exact Entries.isSome_updateWhere loaded _ fun _ => map_isSome
  | itemsReordered listId orderedIds => exact loaded
  | listsReordered dashboardId orderedIds =>
      exact Entries.isSome_updateWhere (Entries.isSome_ensure loaded _) _ fun _ => map_isSome
  | itemsRolledBack listId previous conflict =>
      cases previous <;> cases conflict <;> exact loaded
  | listsRolledBack other previous conflict =>
      have restored : ((caches.rollBackLists other previous false).summaries.data
          dashboardId).isSome = true := by
        cases previous with
        | none => exact loaded
        | some lists => exact Entries.isSome_updateWhere loaded _ fun _ _ => rfl
      cases conflict with
      | false => exact restored
      | true => exact Entries.isSome_invalidate restored _
  | itemFrame listId itemId values =>
      rw [Change.apply, Caches.onItemUpdated]
      dsimp only
      split_ifs <;> exact loaded
  | itemOrderFrame listId itemIds =>
      rw [Change.apply, Caches.onItemReordered]
      dsimp only
      split_ifs <;> exact loaded
  | orderFrame dashboardId listIds =>
      rw [Change.apply, Caches.onReordered]
      dsimp only
      split_ifs
      · exact Entries.isSome_updateWhere
          (Entries.isSome_ensure (Entries.isSome_ensure loaded _) _) _ fun _ => map_isSome
      · exact Entries.isSome_invalidate (Entries.isSome_ensure loaded _) _
  | deletedFrame id => exact Entries.isSome_updateWhere loaded _ fun _ => map_isSome
  | otherFrame dashboardId listId =>
      cases dashboardId with
      | none => exact loaded
      | some id => exact Entries.isSome_invalidate loaded id
  | detailFetched listId detail => exact loaded
  | detailFailed listId error => exact loaded
  | summariesFetched dashboardId lists =>
      exact Entries.isSome_updateWhere loaded _ fun _ _ => rfl
  | summariesFailed dashboardId error =>
      exact Entries.isSome_updateWhere loaded _ fun _ hasData => hasData

/-- Summaries that are loaded stay so. -/
theorem Caches.run_summaries_isSome {dashboardId : DashboardId} {caches : Caches}
    (loaded : (caches.summaries.data dashboardId).isSome = true) (today : Nat)
    (changes : List Change) :
    ((caches.run today changes).summaries.data dashboardId).isSome = true := by
  induction changes generalizing caches with
  | nil => exact loaded
  | cons change rest ih => exact ih (change.summaries_isSome loaded today)

/-! ## The failure -/

variable {caches : Caches}

/-- The caches after a reorder of a list's items, other changes and its failure. -/
def Caches.failItems (today : Nat) (listId : ListId) (orderedIds : List ItemId)
    (changes : List Change) (caches : Caches) : Caches :=
  ((caches.reorderListItems listId orderedIds).run today changes).rollBackItems listId
    (caches.previousItems listId) false

/-- The caches after a reorder of a dashboard's lists, other changes and its failure. -/
def Caches.failLists (today : Nat) (dashboardId : DashboardId) (orderedIds : List ListId)
    (changes : List Change) (caches : Caches) : Caches :=
  ((caches.reorderLists dashboardId orderedIds).run today changes).rollBackLists dashboardId
    (caches.previousLists dashboardId) false

/-- What is loaded has its entry. -/
theorem Entries.ensure_of_data {scope : Nat} {entries : Entries Data} {value : Data}
    (cached : entries.data scope = some value) : entries.ensure scope = entries := by
  obtain ⟨state, here, -⟩ := Option.bind_eq_some_iff.mp cached
  rw [Entries.ensure, here]
  exact Function.update_eq_self_iff.mpr here.symm

/-- The rollback puts the saved items where there are items. -/
theorem Caches.rollBackItems_items (listId : ListId) (saved : List ListItem) (caches : Caches) :
    (caches.rollBackItems listId (some saved) false).items listId =
      (caches.items listId).map fun _ => saved := by
  change (((caches.details.updateWhere _ _).data listId).map ListDetail.items) = _
  rw [Entries.data_updateWhere, Caches.items, Entries.data]
  cases caches.details listId with
  | none => rfl
  | some state =>
      obtain ⟨data, loading, error⟩ := state
      cases data <;> simp

/-- Lists that are put back are those that were saved. -/
theorem Caches.rollBackLists_data {dashboardId : DashboardId} {caches : Caches}
    (loaded : (caches.summaries.data dashboardId).isSome = true) (saved : List ListSummary) :
    (caches.rollBackLists dashboardId (some saved) false).summaries.data dashboardId =
      some saved := by
  obtain ⟨lists, cached⟩ := Option.isSome_iff_exists.mp loaded
  obtain ⟨state, here, -⟩ := Option.bind_eq_some_iff.mp cached
  change (caches.summaries.updateWhere _ _).data dashboardId = _
  rw [Entries.data_updateWhere, here]
  simp

/-- Caches that are alike have the items of a list up to their order. -/
theorem Caches.Alike.items {caches others : Caches} (alike : caches.Alike others)
    (listId : ListId) : Option.Rel List.Perm (caches.items listId) (others.items listId) := by
  have here := alike.details.data listId
  rw [Caches.items, Caches.items]
  generalize caches.details.data listId = detail at here ⊢
  generalize others.details.data listId = detail' at here ⊢
  cases here with
  | some holds => exact .some holds
  | none => exact .none

/-- **A failed reorder of items** leaves what the other changes alone would have left, in
some order, exactly when these leave the items as they were. -/
theorem failItems_iff {listId : ListId} {saved : List ListItem}
    (cached : caches.items listId = some saved) (today : Nat) (orderedIds : List ItemId)
    (changes : List Change) :
    Option.Rel List.Perm ((caches.failItems today listId orderedIds changes).items listId)
        ((caches.run today changes).items listId) ↔
      ∀ items, (caches.run today changes).items listId = some items → items.Perm saved := by
  obtain ⟨detail, loaded, rfl⟩ := Option.map_eq_some_iff.mp cached
  have ensured := Entries.ensure_of_data loaded
  have previous : caches.previousItems listId = some detail.items := by
    rw [Caches.previousItems, ensured, loaded, Option.map_some]
  have reordered := Caches.Alike.reorderListItems_self caches listId orderedIds
  rw [ensured] at reordered
  have related := ((reordered.symm.run today changes).items listId)
  rw [Caches.failItems, previous, Caches.rollBackItems_items]
  generalize ((caches.reorderListItems listId orderedIds).run today changes).items listId = later
    at related ⊢
  generalize (caches.run today changes).items listId = alone at related ⊢
  cases related with
  | none => exact iff_of_true .none nofun
  | some _ =>
      constructor
      · intro undone items same
        cases same
        cases undone with
        | some perm => exact perm.symm
      · intro unchanged
        exact .some (unchanged _ rfl).symm

/-- **A failed reorder of lists** likewise. -/
theorem failLists_iff {dashboardId : DashboardId} {saved : List ListSummary}
    (cached : caches.summaries.data dashboardId = some saved) (today : Nat)
    (orderedIds : List ListId) (changes : List Change) :
    Option.Rel List.Perm
        ((caches.failLists today dashboardId orderedIds changes).summaries.data dashboardId)
        ((caches.run today changes).summaries.data dashboardId) ↔
      ∀ lists, (caches.run today changes).summaries.data dashboardId = some lists →
        lists.Perm saved := by
  have ensured := Entries.ensure_of_data cached
  have previous : caches.previousLists dashboardId = some saved := by
    rw [Caches.previousLists, ensured, cached]
  have loaded := caches.run_summaries_isSome (Option.isSome_of_eq_some cached) today changes
  have reorderedLoaded : ((caches.reorderLists dashboardId orderedIds).summaries.data
      dashboardId).isSome = true :=
    Change.summaries_isSome (Option.isSome_of_eq_some cached) today (.listsReordered _ orderedIds)
  have rolledBack : (caches.failLists today dashboardId orderedIds changes).summaries.data
      dashboardId = some saved := by
    rw [Caches.failLists, previous]
    exact Caches.rollBackLists_data
      (Caches.run_summaries_isSome reorderedLoaded today changes) saved
  rw [rolledBack]
  obtain ⟨alone, here⟩ := Option.isSome_iff_exists.mp loaded
  rw [here]
  constructor
  · intro undone lists same
    cases same
    cases undone with
    | some perm => exact perm.symm
  · intro unchanged
    exact .some (unchanged _ rfl).symm

/-- **A failed reorder undoes only itself** exactly when the other changes undo themselves. -/
theorem failedReorder_iff (today : Nat) (changes : List Change) (caches : Caches) :
    (∀ listId orderedIds saved, caches.items listId = some saved →
      (Option.Rel List.Perm ((caches.failItems today listId orderedIds changes).items listId)
          ((caches.run today changes).items listId) ↔
        ∀ items, (caches.run today changes).items listId = some items → items.Perm saved)) ∧
    ∀ dashboardId orderedIds saved, caches.summaries.data dashboardId = some saved →
      (Option.Rel List.Perm
          ((caches.failLists today dashboardId orderedIds changes).summaries.data dashboardId)
          ((caches.run today changes).summaries.data dashboardId) ↔
        ∀ lists, (caches.run today changes).summaries.data dashboardId = some lists →
          lists.Perm saved) :=
  ⟨fun _ orderedIds _ cached => failItems_iff cached today orderedIds changes,
    fun _ orderedIds _ cached => failLists_iff cached today orderedIds changes⟩

/-! ## A deletion meanwhile -/

def milk : ListItem := ⟨1, (ListItemCreate.ofText "milk").values⟩

def bread : ListItem := ⟨2, (ListItemCreate.ofText "bread").values⟩

def groceries : ListSummary := ⟨7, 3, "Groceries", .grocery, 0, 5, 10, 10, 2⟩

/-- Both caches hold the list with its two items. -/
def groceryCaches : Caches where
  summaries := Function.update (fun _ => none) 3 (some ⟨some [groceries], false, none⟩)
  details := Function.update (fun _ => none) 7
    (some ⟨some { groceries with items := [milk, bread] }, false, none⟩)
  reminders := fun _ => none

/-- The list is fetched and unchanged while the reorder is on its way. -/
theorem failedReorder_refetch :
    Option.Rel List.Perm ((groceryCaches.failItems 0 7 [2, 1]
        [.detailFetched 7 { groceries with items := [milk, bread] }]).items 7)
      ((groceryCaches.run 0 [.detailFetched 7 { groceries with items := [milk, bread] }]).items 7) ∧
    Option.Rel List.Perm ((groceryCaches.failLists 0 3 [7] [.itemDeleted 8 4]).summaries.data 3)
      ((groceryCaches.run 0 [.itemDeleted 8 4]).summaries.data 3) := by
  constructor
  · apply ((failedReorder_iff 0 [.detailFetched 7 { groceries with items := [milk, bread] }]
      groceryCaches).1 7 [2, 1] [milk, bread] rfl).mpr
    rintro items ⟨⟩
    exact .refl _
  · apply ((failedReorder_iff 0 [.itemDeleted 8 4] groceryCaches).2 3 [7] [groceries] rfl).mpr
    rintro lists ⟨⟩
    exact .refl _

/-- An item that was deleted meanwhile comes back. -/
theorem failedReorder_resurrects : ¬ ∀ caches today listId orderedIds changes,
    (Caches.items listId caches).isSome = true →
      Option.Rel List.Perm ((caches.failItems today listId orderedIds changes).items listId)
        ((caches.run today changes).items listId) := by
  intro undoes
  have undone := undoes groceryCaches 0 7 [2, 1] [.itemDeleted 7 1] rfl
  have failed : (groceryCaches.failItems 0 7 [2, 1] [.itemDeleted 7 1]).items 7 =
    some [milk, bread] := rfl
  have alone : (groceryCaches.run 0 [.itemDeleted 7 1]).items 7 = some [bread] := rfl
  rw [failed, alone] at undone
  cases undone with
  | some perm => cases perm.length_eq

end FrontDashboard.Lists.Page
