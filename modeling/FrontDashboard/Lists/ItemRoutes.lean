import Mathlib.Algebra.Group.Nat.Defs
import FrontDashboard.Access.Paths
import FrontDashboard.Calendar.Routes
import FrontDashboard.Lists.Items

/-! # The routes of a list's items

`create_item`, `update_item`, `delete_item` and `reorder_items` on the table of one
list's items, and the order in which `get_list` reads it. The table itself is in no
order. A refused request leaves it as it is.
-/

namespace FrontDashboard.Lists

open Access (canEdit)
open Calendar (HttpError internalError thousands unprocessable)
open FrontDashboard.Membership (EffectiveRole)

structure ItemSettings where
  quotaItemsPerUser : Nat
  quotaItemsPerList : Nat

/-- The member who calls, as `load_dashboard_access` finds them, and the items they
created in all lists. -/
structure ItemCaller where
  role : EffectiveRole
  itemCount : Nat

def editorAccessRequired : HttpError := ⟨403, "Editor access required"⟩

def itemNotFound : HttpError := ⟨404, "Item not found"⟩

def listChanged : HttpError := ⟨409, "List changed, please retry"⟩

/-- `limit_message`, where deleting makes room at once. -/
def limitMessage (noun : String) (cap : Nat) : String :=
  "You have reached the limit of " ++ thousands cap ++ " " ++ noun ++
    ". Delete some to make room."

/-- The largest `Integer` of the database. -/
def maxInteger : Nat := 2 ^ 31 - 1

/-- A request, with the id and the `created_at` of the row that a creation inserts. -/
inductive ItemRequest
  | create (caller : ItemCaller) (body : ListItemCreate) (id : ItemId) (createdAt : Nat)
  | update (caller : ItemCaller) (target : ItemId) (body : ListItemUpdate)
  | delete (caller : ItemCaller) (target : ItemId)
  | reorder (caller : ItemCaller) (body : ItemReorder)

variable (settings : ItemSettings)

/-- The rows after a request, or its refusal. -/
def serveItem : ItemRequest → List Row → Except HttpError (List Row)
  | .create caller body id createdAt, rows =>
      if ¬ canEdit caller.role then .error editorAccessRequired
      else if settings.quotaItemsPerUser ≤ caller.itemCount then
        .error (unprocessable (limitMessage "list items" settings.quotaItemsPerUser))
      else if settings.quotaItemsPerList ≤ rows.length then
        .error (unprocessable (limitMessage "items on this list" settings.quotaItemsPerList))
      else if maxInteger < nextOrder rows ∨ id ∈ ids (shown rows) then .error internalError
      else .ok (⟨⟨id, body.values⟩, nextOrder rows, createdAt⟩ :: rows)
  | .update caller target body, rows =>
      match rows.find? fun row => row.item.id = target with
      | none => .error itemNotFound
      | some row =>
          if ¬ canEdit caller.role then .error editorAccessRequired
          else .ok (updateItem target body row.item.values rows)
  | .delete caller target, rows =>
      if ¬ canEdit caller.role then .error editorAccessRequired
      else if target ∉ ids (shown rows) then .error itemNotFound
      else .ok (deleteItem target rows)
  | .reorder caller body, rows =>
      if ¬ canEdit caller.role then .error editorAccessRequired
      else match reorderItems body rows with
        | none => .error listChanged
        | some renumbered => .ok renumbered

/-- The requests of a sequence that are accepted, and the rows they leave. -/
def serveItems : List ItemRequest → List Row → List ItemRequest × List Row
  | [], rows => ([], rows)
  | request :: rest, rows =>
      match serveItem settings request rows with
      | .error _ => serveItems rest rows
      | .ok next => (request :: (serveItems rest next).1, (serveItems rest next).2)

/-- What `get_list` may answer: the items, ordered by `sort_order` and `created_at`. -/
def GetList (rows : List Row) (items : List ListItem) : Prop :=
  ∃ answer, OrderedBy Row.Before rows answer ∧ items = shown answer

/-- The `created_at` of the item a request creates. -/
def ItemRequest.createdAt? : ItemRequest → Option Nat
  | .create _ _ _ createdAt => some createdAt
  | _ => none

/-- The `created_at` of the items that a list of requests creates. -/
abbrev createdTimes (requests : List ItemRequest) : List Nat :=
  requests.filterMap ItemRequest.createdAt?

/-- What the accepted requests do. -/
inductive Served (rows : List Row) : ItemRequest → List Row → Prop
  | created {caller : ItemCaller} {body : ListItemCreate} {id : ItemId} {createdAt : Nat}
      (fresh : id ∉ ids (shown rows)) :
      Served rows (.create caller body id createdAt)
        (⟨⟨id, body.values⟩, nextOrder rows, createdAt⟩ :: rows)
  | updated {caller : ItemCaller} {target : ItemId} {body : ListItemUpdate} {row : Row}
      (found : (rows.find? fun row => row.item.id = target) = some row) :
      Served rows (.update caller target body) (updateItem target body row.item.values rows)
  | deleted {caller : ItemCaller} {target : ItemId} :
      Served rows (.delete caller target) (deleteItem target rows)
  | reordered {caller : ItemCaller} {body : ItemReorder}
      (present : ∀ itemId ∈ body.itemIds, itemId ∈ ids (shown rows))
      (whole : ∀ itemId ∈ ids (shown rows), itemId ∈ body.itemIds) :
      Served rows (.reorder caller body) (renumber rows body.itemIds)

theorem Served.of_ok {settings : ItemSettings} {request : ItemRequest} {rows next : List Row}
    (ok : serveItem settings request rows = .ok next) : Served rows request next := by
  cases request with
  | create caller body id createdAt =>
      rw [serveItem] at ok
      split_ifs at ok with _ _ _ refused
      cases ok
      exact .created fun taken => refused (.inr taken)
  | update caller target body =>
      rw [serveItem] at ok
      split at ok
      next => cases ok
      next row found =>
        split_ifs at ok
        cases ok
        exact .updated found
  | delete caller target =>
      rw [serveItem] at ok
      split_ifs at ok
      cases ok
      exact .deleted
  | reorder caller body =>
      rw [serveItem, reorderItems] at ok
      split_ifs at ok with _ same
      cases ok
      exact .reordered same.1 same.2

/-! ## The order of the rows -/

theorem Row.Before.asymm (row other : Row) (before : row.Before other) : ¬ other.Before row := by
  unfold Row.Before at *
  omega

theorem Row.Before.between (row middle other : Row) (before : row.Before other) :
    row.Before middle ∨ middle.Before other := by
  unfold Row.Before at *
  omega

/-- `get_list` has an answer whatever the rows. -/
theorem getList_insertionSort (rows : List Row) :
    GetList rows (shown (rows.insertionSort Row.Before)) :=
  ⟨_, OrderedBy.insertionSort Row.Before.asymm Row.Before.between rows, rfl⟩

/-- No row has a larger `sort_order` than the next one, and one as large only when both
are 0. -/
theorem le_nextOrder {rows : List Row} {row : Row} (member : row ∈ rows) :
    row.sortOrder ≤ nextOrder rows := by
  have listed : row.sortOrder ∈ rows.map Row.sortOrder := List.mem_map_of_mem member
  unfold nextOrder
  cases found : (rows.map Row.sortOrder).max? with
  | none =>
      rw [List.max?_eq_none_iff] at found
      rw [found] at listed
      cases listed
  | some order =>
      have bound := (List.max?_eq_some_iff.mp found).2 _ listed
      cases order with
      | zero => exact bound
      | succ order =>
          dsimp only
          omega

theorem nextOrder_congr {rows others : List Row} (same : rows.Perm others) :
    nextOrder rows = nextOrder others := by
  have maxima : (rows.map Row.sortOrder).max? = (others.map Row.sortOrder).max? := by
    have orders := same.map Row.sortOrder
    apply Option.ext
    intro order
    rw [List.max?_eq_some_iff, List.max?_eq_some_iff, orders.mem_iff]
    simp only [orders.mem_iff]
  unfold nextOrder
  rw [maxima]

/-- **A new item comes last.** A row numbered as `create_item` does, and created after
those there are, is after each of them. -/
theorem before_created {rows : List Row} {row : Row} (member : row ∈ rows) {createdAt : Nat}
    (later : row.createdAt < createdAt) (item : ListItem) :
    row.Before ⟨item, nextOrder rows, createdAt⟩ := by
  have bound := le_nextOrder member
  unfold Row.Before
  dsimp only
  omega

end FrontDashboard.Lists
