import FrontDashboard.Lists.Items
import FrontDashboard.Query.ScopedQuery

/-! # The list cache of the page

`listDetailQuery` and what list mutations and stream frames do to it. The
summaries and the agenda keep caches of their own and change nothing here; the
agenda's look at the list touches its entry.
-/

namespace FrontDashboard.Lists

open Query

/-- `ListDetail`: the items of a list and how many it says there are. -/
structure ListDetail where
  itemCount : Nat
  items : List ListItem

abbrev ListCache := Cache ListId ListId ListDetail String

abbrev ListEntry := Entry ListId ListDetail String

/-- `listDetailQuery`. -/
def listDetailQuery : Options ListId ListId String where
  getKey := id
  fallbackError := "Failed to load list."
  maxCachedScopes := 32

namespace ListDetail

/-- The items in a given order, where it is an order of these items. -/
def ordered (orderedIds : List ItemId) (detail : ListDetail) : ListDetail :=
  { detail with items := (orderByIds detail.items orderedIds).getD detail.items }

/-- The frame's values merged into its item. -/
def merged (itemId : ItemId) (values : ListItemUpdate) (detail : ListDetail) : ListDetail :=
  { detail with items := detail.items.map fun item =>
      if item.id = itemId then item.patch values else item }

def appended (item : ListItem) (detail : ListDetail) : ListDetail :=
  { itemCount := detail.itemCount + 1, items := detail.items ++ [item] }

/-- An item replaced by the one of a response. -/
def replaced (itemId : ItemId) (item : ListItem) (detail : ListDetail) : ListDetail :=
  { detail with items := detail.items.map fun current =>
      if current.id = itemId then item else current }

def without (itemId : ItemId) (detail : ListDetail) : ListDetail :=
  { itemCount := detail.itemCount - 1
    items := detail.items.filter fun item => item.id ≠ itemId }

end ListDetail

namespace ListCache

/-- The updater of `patchListDetailById`, for changes that yield a detail. -/
def patchUpdater (change : ListDetail → ListDetail) : Updater ListId ListDetail String where
  update := fun state _ =>
    match state.data with
    | none => state
    | some detail => ⟨some (change detail), false, state.error⟩
  onData := fun _ data => data.map change
  update_data := by
    intro state _
    cases loaded : state.data with
    | none => exact loaded
    | some detail => rfl
  keeps_error := by
    intro state _ failed
    cases state.data with
    | none => exact failed
    | some detail => exact failed
  empties_with_error := by
    rintro ⟨data, loading, error⟩ _ loaded
    cases data with
    | none => cases loaded
    | some detail => exact .inl rfl

/-- `patchListDetailById`. -/
def patchListDetailById (list : ListId) (change : ListDetail → ListDetail)
    (cache : ListCache) : ListCache :=
  cache.updateWhere (fun scope => scope == list) (patchUpdater change)

/-- `getState({ listId }).data`, in a cache that has ensured the entry. -/
def dataOf (list : ListId) (cache : ListCache) : Option ListDetail :=
  (cache.entries.get list).bind fun entry => entry.state.data

/-- `invalidateWhere((scope) => scope.listId === listId)`. -/
def invalidateList (list : ListId) (cache : ListCache) : ListCache :=
  cache.invalidateWhere listDetailQuery (fun scope => scope == list) true none

/-- The frames that patch: with no data, or with data they do not fit, the list is
fetched again. -/
def patchOrInvalidate (list : ListId) (fits : ListDetail → Bool)
    (change : ListDetail → ListDetail) (cache : ListCache) : ListCache :=
  let looked : ListCache := cache.ensureEntry listDetailQuery list
  match looked.dataOf list with
  | none => looked.invalidateList list
  | some detail =>
      if fits detail then looked.patchListDetailById list change
      else (looked.patchListDetailById list id).invalidateList list

/-- The order is one of the items that are cached. -/
def takesOrder (list : ListId) (orderedIds : List ItemId) (cache : ListCache) : Bool :=
  (dataOf list (cache.ensureEntry listDetailQuery list)).any fun detail =>
    (orderByIds detail.items orderedIds).isSome

/-! ## Frames -/

/-- `list.item.checked` and `list.item.updated`. -/
def onItemUpdated (list : ListId) (itemId : ItemId) (values : ListItemUpdate)
    (cache : ListCache) : ListCache :=
  cache.patchOrInvalidate list (fun detail => detail.items.any fun item => item.id = itemId)
    (.merged itemId values)

/-- `list.item.reordered`. -/
def onItemReordered (list : ListId) (body : ItemReorder) (cache : ListCache) : ListCache :=
  cache.patchOrInvalidate list (fun detail => (orderByIds detail.items body.itemIds).isSome)
    (.ordered body.itemIds)

/-! ## The page's own mutations -/

/-- The fulfilled branch of `addListItem`, with the agenda's look at the list. -/
def onItemAdded (list : ListId) (item : ListItem) (cache : ListCache) : ListCache :=
  (cache.patchListDetailById list (.appended item)).ensureEntry listDetailQuery list

/-- The fulfilled branch of `updateListItem`. -/
def onItemResponse (list : ListId) (itemId : ItemId) (item : ListItem) (cache : ListCache) :
    ListCache :=
  (cache.patchListDetailById list (.replaced itemId item)).ensureEntry listDetailQuery list

/-- The fulfilled branch of `deleteListItem`. -/
def onItemDeleted (list : ListId) (itemId : ItemId) (cache : ListCache) : ListCache :=
  cache.patchListDetailById list (.without itemId)

/-- `reorderListItems` up to its request. -/
def reorderOptimistically (list : ListId) (orderedIds : List ItemId) (cache : ListCache) :
    ListCache :=
  ListCache.patchListDetailById list (.ordered orderedIds) (cache.ensureEntry listDetailQuery list)

/-- `previous` of `reorderListItems`. -/
def previousItems (list : ListId) (cache : ListCache) : Option (List ListItem) :=
  (dataOf list (cache.ensureEntry listDetailQuery list)).map ListDetail.items

/-- The rejected branch of `reorderListItems`. -/
def rollBack (list : ListId) (previous : Option (List ListItem)) (conflict : Bool)
    (cache : ListCache) : ListCache :=
  let restored : ListCache :=
    match previous with
    | none => cache
    | some items => cache.patchListDetailById list fun detail => { detail with items := items }
  if conflict then restored.invalidateList list else restored

end ListCache

end FrontDashboard.Lists
