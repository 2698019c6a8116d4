import FrontDashboard.Library.Keyset
import FrontDashboard.Library.Timestamp
import FrontDashboard.Library.Uuid
import Mathlib.Data.Prod.Lex
import Mathlib.Order.BooleanAlgebra.Basic

/-! # The routes of the notifications

A page lists the unread notifications of a user before the read ones, each newest first,
and hands on the place of its last row as a text.
-/

namespace FrontDashboard.Notifications

abbrev UserId := Nat

/-- The columns of `notifications` that the routes read. -/
structure Notification where
  id : Uuid
  userId : UserId
  readAt : Option Timestamp
  createdAt : Timestamp
  deriving DecidableEq

def Notification.unread (notification : Notification) : Bool := notification.readAt.isNone

abbrev Position := Timestamp ×ₗ Nat

def Notification.position (notification : Notification) : Position :=
  toLex (notification.createdAt, notification.id.number)

structure Table where
  rows : List Notification
  distinct : (rows.map Notification.id).Nodup

structure Failure where
  statusCode : Nat
  detail : String
  deriving DecidableEq

def pageLimit : Nat := 50

/-! ## The cursor -/

def encodeCursor (notification : Notification) : String :=
  String.ofList ((if notification.unread then 'u' else 'r') :: '|' ::
    (notification.createdAt.isoformat ++ '|' :: notification.id.text.toList))

structure Cursor where
  inUnreadSection : Bool
  createdAt : Timestamp
  id : Uuid

def invalidCursor : Failure := ⟨422, "Invalid cursor"⟩

def decodeCursor (cursor : String) : Except Failure Cursor :=
  match cursor.toList.splitOn '|' with
  | [sectionRaw, createdAtRaw, idRaw] =>
      if sectionRaw = ['u'] ∨ sectionRaw = ['r'] then
        match Timestamp.fromisoformat createdAtRaw, Uuid.read (String.ofList idRaw) with
        | some createdAt, some id => .ok ⟨decide (sectionRaw = ['u']), createdAt, id⟩
        | _, _ => .error invalidCursor
      else .error invalidCursor
  | _ => .error invalidCursor

def Cursor.position (cursor : Cursor) : Position := toLex (cursor.createdAt, cursor.id.number)

/-- The condition that a cursor adds to the query. -/
def Cursor.admits (cursor : Cursor) (row : Notification) : Bool :=
  if cursor.inUnreadSection then
    (row.unread && decide (row.position < cursor.position)) || !row.unread
  else !row.unread && decide (row.position < cursor.position)

/-! ## The page -/

/-- The keys of the order: the section, then the time, then the id. -/
abbrev Place := Bool ×ₗ Position

def Notification.place (notification : Notification) : Place :=
  toLex (notification.unread, notification.position)

structure NotificationPageResponse where
  items : List Notification
  nextCursor : Option String
  deriving DecidableEq

def Table.select (table : Table) (keeps : Notification → Bool) : List Notification :=
  ((table.rows.filter keeps).insertionSort fun first second => second.place ≤ first.place).take
    (pageLimit + 1)

def answer (rows : List Notification) : NotificationPageResponse where
  items := rows.take pageLimit
  nextCursor :=
    if pageLimit < rows.length then (rows.take pageLimit).getLast?.map encodeCursor else none

def listNotifications (user : UserId) (cursor : Option String) (table : Table) :
    Except Failure NotificationPageResponse :=
  match cursor with
  | none => .ok (answer (table.select fun row => decide (row.userId = user)))
  | some cursor => do
      let cursor ← decodeCursor cursor
      pure (answer (table.select fun row => decide (row.userId = user) && cursor.admits row))

/-! ## The writes -/

/-- An update of `read_at` that is executed and not yet committed. -/
structure ReadWrite where
  ids : List Uuid
  readAt : Timestamp
  deriving DecidableEq

def Notification.marked (write : ReadWrite) (row : Notification) : Notification :=
  if row.id ∈ write.ids then { row with readAt := some write.readAt } else row

@[simp] theorem Notification.marked_id (write : ReadWrite) (row : Notification) :
    (row.marked write).id = row.id := by
  unfold marked
  split <;> rfl

@[simp] theorem Notification.marked_userId (write : ReadWrite) (row : Notification) :
    (row.marked write).userId = row.userId := by
  unfold marked
  split <;> rfl

def Table.commit (table : Table) (write : ReadWrite) : Table where
  rows := table.rows.map (Notification.marked write)
  distinct := by
    rw [List.map_map, show Notification.id ∘ Notification.marked write = Notification.id from
      funext (Notification.marked_id write)]
    exact table.distinct

/-- The row a request marks, with the update it leaves to be committed unless it was read. -/
def markRead (id : Uuid) (user : UserId) (now : Timestamp) (table : Table) :
    Except Failure (Option ReadWrite) :=
  match table.rows.find? fun row => row.id = id && row.userId = user with
  | none => .error ⟨404, "Notification not found"⟩
  | some row => .ok (if row.readAt = none then some ⟨[id], now⟩ else none)

def markAllRead (user : UserId) (now : Timestamp) (table : Table) : ReadWrite where
  ids := (table.rows.filter fun row => row.userId = user && row.unread).map Notification.id
  readAt := now

/-- The primary key refuses a second row of an id. -/
def Table.insert (table : Table) (row : Notification) : Option Table :=
  if fresh : row.id ∉ table.rows.map Notification.id then
    some { rows := row :: table.rows, distinct := List.nodup_cons.mpr ⟨fresh, table.distinct⟩ }
  else none

def Table.delete (table : Table) (ids : List Uuid) : Table where
  rows := table.rows.filter fun row => row.id ∉ ids
  distinct := table.distinct.sublist (List.filter_sublist.map Notification.id)

end FrontDashboard.Notifications
