import FrontDashboard.Library.Reorder
import Mathlib.Data.List.Sort

/-! # The items of a list

The rows of `list_items` under the requests that write them, and the pure
helpers with which the page reorders and patches its copy.
-/

namespace FrontDashboard.Lists

abbrev ListId := Nat

abbrev ItemId := Nat

inductive ItemPriority
  | low
  | medium
  | high
  deriving DecidableEq

/-- The columns a member can edit: `PATCHABLE_ITEM_FIELDS`. -/
inductive Field
  | text
  | checked
  | dueDate
  | priority
  | category
  | assignedTo
  deriving DecidableEq

/-- What a column holds. A date is a day number and a user an id. -/
abbrev Field.Value : Field → Type
  | .text => String
  | .checked => Bool
  | .dueDate => Option Nat
  | .priority => Option ItemPriority
  | .category => Option String
  | .assignedTo => Option Nat

instance : (field : Field) → DecidableEq field.Value
  | .text => inferInstanceAs (DecidableEq String)
  | .checked => inferInstanceAs (DecidableEq Bool)
  | .dueDate => inferInstanceAs (DecidableEq (Option Nat))
  | .priority => inferInstanceAs (DecidableEq (Option ItemPriority))
  | .category => inferInstanceAs (DecidableEq (Option String))
  | .assignedTo => inferInstanceAs (DecidableEq (Option Nat))

abbrev Values := (field : Field) → field.Value

/-- `ListItem`. -/
@[ext] structure ListItem where
  id : ItemId
  values : Values

/-- `ListItemCreate`. -/
structure ListItemCreate where
  text : String
  dueDate : Option Nat
  priority : Option ItemPriority
  category : Option String
  assignedTo : Option Nat

/-- The columns of a new item, which is unchecked. -/
def ListItemCreate.values (body : ListItemCreate) : Values
  | .text => body.text
  | .checked => false
  | .dueDate => body.dueDate
  | .priority => body.priority
  | .category => body.category
  | .assignedTo => body.assignedTo

/-- The body `apiCreateItem` sends. -/
def ListItemCreate.ofText (text : String) : ListItemCreate := ⟨text, none, none, none, none⟩

/-- `ListItemUpdate`: the fields of the body that are set, of which there is one. -/
structure ListItemUpdate where
  set : (field : Field) → Option field.Value
  nonempty : ∃ field, (set field).isSome = true

/-- `ItemReorder`. -/
structure ItemReorder where
  itemIds : List ItemId
  nodup : itemIds.Nodup
  nonempty : itemIds ≠ []
  atMost : itemIds.length ≤ 1000

/-- The validation of a submitted order. -/
def ItemReorder.validate (itemIds : List ItemId) : Option ItemReorder :=
  if valid : itemIds.Nodup ∧ itemIds ≠ [] ∧ itemIds.length ≤ 1000 then
    some ⟨itemIds, valid.1, valid.2.1, valid.2.2⟩
  else none

theorem ItemReorder.of_validate {itemIds : List ItemId} {body : ItemReorder}
    (valid : validate itemIds = some body) : itemIds = body.itemIds := by
  rw [validate] at valid
  split_ifs at valid
  cases valid
  rfl

/-- A row of `list_items`. -/
structure Row where
  item : ListItem
  sortOrder : Nat
  createdAt : Nat

abbrev ids (items : List ListItem) : List ItemId := items.map ListItem.id

/-- What `get_list` lists, from rows in its order. -/
abbrev shown (rows : List Row) : List ListItem := rows.map Row.item

/-! ## The requests on the rows of one list

Rows are kept in the order `get_list` reads them: by `sort_order`, then by
`created_at`.
-/

/-- `(max_order or -1) + 1`: a largest order of 0 counts as none. -/
def nextOrder (rows : List Row) : Nat :=
  match (rows.map Row.sortOrder).max? with
  | some (order + 1) => order + 2
  | _ => 0

/-- The row sorts strictly before the other. -/
def Row.Before (row other : Row) : Prop :=
  row.sortOrder < other.sortOrder ∨
    row.sortOrder = other.sortOrder ∧ row.createdAt < other.createdAt

instance : DecidableRel Row.Before := fun row other =>
  inferInstanceAs (Decidable (row.sortOrder < other.sortOrder ∨
    row.sortOrder = other.sortOrder ∧ row.createdAt < other.createdAt))

/-- `create_item`. The row's `created_at` is the start of the transaction, which may
come before that of one committed earlier. -/
def createItem (item : ListItem) (startedAt : Nat) (rows : List Row) : List Row :=
  rows.orderedInsert Row.Before ⟨item, nextOrder rows, startedAt⟩

/-- The attributes set on an item as the handler loaded it. One set to what it holds
already is left out of the `UPDATE`. -/
def ListItem.write (body : ListItemUpdate) (loaded : Values) (item : ListItem) : ListItem :=
  { item with values := fun field =>
      match body.set field with
      | some value => if value = loaded field then item.values field else value
      | none => item.values field }

/-- `update_item`. -/
def updateItem (target : ItemId) (body : ListItemUpdate) (loaded : Values) (rows : List Row) :
    List Row :=
  rows.map fun row =>
    if row.item.id = target then { row with item := row.item.write body loaded } else row

/-- `delete_item`. -/
def deleteItem (target : ItemId) (rows : List Row) : List Row :=
  rows.filter fun row => row.item.id ≠ target

/-- The rows in a submitted order, renumbered. -/
def renumber (rows : List Row) (itemIds : List ItemId) : List Row :=
  itemIds.zipIdx.filterMap fun (itemId, position) =>
    (rows.find? fun row => row.item.id = itemId).map fun row => { row with sortOrder := position }

/-- `reorder_items`: the submitted ids have to be those of the list. -/
def reorderItems (body : ItemReorder) (rows : List Row) : Option (List Row) :=
  if (∀ itemId ∈ body.itemIds, itemId ∈ ids (shown rows)) ∧
      ∀ itemId ∈ ids (shown rows), itemId ∈ body.itemIds then
    some (renumber rows body.itemIds)
  else none

/-! ## The page's copy -/

/-- `orderByIds`. Of items with one id `byId.get(id)` is the last. -/
def orderByIds (items : List ListItem) (orderedIds : List ItemId) : Option (List ListItem) :=
  Reorder.byKeys ListItem.id items orderedIds

/-- `{ ...item, ...pickPatchableItemFields(values) }`. -/
def ListItem.patch (body : ListItemUpdate) (item : ListItem) : ListItem :=
  { item with values := fun field => (body.set field).getD (item.values field) }

end FrontDashboard.Lists
