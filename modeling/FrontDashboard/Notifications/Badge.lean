import FrontDashboard.Library.TransitionSystem
import FrontDashboard.Notifications.Routes

/-! # The unread badge

The notifications store of a tab as the requests of the badge meet: notifications are
announced on the stream, notifications are marked as read one by one or all at once, and the
count and the pages of the list are loaded. The server runs what it is sent, in any order, and
replies, failures and announcements arrive in any order.
-/

namespace FrontDashboard.Notifications

/-! ## The notifications store -/

/-- What the store holds of the notifications, and where the next older page starts. -/
structure Store where
  notifications : List Notification
  nextCursor : Option String
  unreadCount : Nat
  loaded : Bool
  loadFailed : Bool
  hasMore : Bool
  loadingMore : Bool
  deriving DecidableEq

namespace Store

/-- `load`, where its page has come. -/
def load (store : Store) (page : NotificationPageResponse) : Store :=
  { store with
    nextCursor := page.nextCursor
    notifications := page.items
    loaded := true
    loadFailed := false
    hasMore := page.nextCursor.isSome }

/-- `load`, where it has failed. -/
def failLoad (store : Store) : Store := { store with loadFailed := !store.loaded }

/-- `loadMore`, where its page has come: what is listed stays as it is. -/
def loadMore (store : Store) (page : NotificationPageResponse) : Store :=
  { store with
    nextCursor := page.nextCursor
    notifications := store.notifications ++
      page.items.filter fun row => row.id ∉ store.notifications.map Notification.id
    hasMore := page.nextCursor.isSome
    loadingMore := false }

/-- `loadMore`, where it has failed. -/
def failLoadMore (store : Store) : Store := { store with loadingMore := false }

/-- `markRead`, where its answer has come. -/
def markRead (store : Store) (id : Uuid) (updated : Notification) : Store :=
  let current := store.notifications.find? fun row => row.id = id
  let becameRead := current.any Notification.unread && !updated.unread
  { store with
    notifications := store.notifications.map fun row => if row.id = id then updated else row
    unreadCount := if becameRead then store.unreadCount - 1 else store.unreadCount }

/-- `markAllRead`, where its answer has come. -/
def markAllRead (store : Store) (now : Timestamp) : Store :=
  { store with
    notifications := store.notifications.map fun row =>
      if row.readAt = none then { row with readAt := some now } else row
    unreadCount := 0 }

/-- A notification that the stream announces goes on top, if it is not listed. -/
def addFromSse (store : Store) (row : Notification) : Store :=
  if row.id ∈ store.notifications.map Notification.id then store
  else
    { store with
      notifications := row :: store.notifications
      unreadCount := if row.readAt = none then store.unreadCount + 1 else store.unreadCount }

/-- The ids of the list of the tab. -/
def ids (store : Store) : List Uuid := store.notifications.map Notification.id

end Store

/-! ## The server -/

/-- The ids of a user's unread notifications. -/
def Table.unreadIds (user : UserId) (table : Table) : List Uuid :=
  (table.rows.filter fun row => row.userId = user && row.unread).map Notification.id

/-- The ids of all of a user's notifications. -/
def Table.idsOf (user : UserId) (table : Table) : List Uuid :=
  (table.rows.filter fun row => decide (row.userId = user)).map Notification.id

/-- `unread_count`. -/
def unreadCount (user : UserId) (table : Table) : Nat := (table.unreadIds user).length

/-- What a mark is answered with: the notification that was marked, or nothing. Beside the
empty reply stand the ids that it is about. -/
inductive MarkReply
  | notification (updated : Notification)
  | noContent (covered : List Uuid)

/-- The ids that are read once the mark is committed. -/
def MarkReply.covers : MarkReply → List Uuid
  | .notification updated => [updated.id]
  | .noContent covered => covered

/-- What a tab asks to be marked. -/
inductive MarkRequest
  | markRead (id : Uuid)
  | markAllRead

/-- `mark_read` or `mark_all_read`, up to the commit. -/
def executeMark (user : UserId) (now : Timestamp) (table : Table) :
    MarkRequest → Except Failure (MarkReply × Option ReadWrite)
  | .markRead id => do
      let write ← markRead id user now table
      match table.rows.find? fun row => row.id = id && row.userId = user with
      | none => .error ⟨404, "Notification not found"⟩
      | some row => .ok (.notification (write.elim row fun write => row.marked write), write)
  | .markAllRead => .ok (.noContent (table.idsOf user), some (markAllRead user now table))

/-! ## What is under way -/

/-- How far a request has come: it is served in two steps, the second of them the commit. -/
inductive MarkProgress
  | sent
  | executed (reply : MarkReply) (write : Option ReadWrite)
  | committed (reply : MarkReply)
  | refused

/-- A request under way. -/
structure Marking where
  request : MarkRequest
  progress : MarkProgress

/-- The promise of `loadUnreadCount`: asked, or answered with the count of these. -/
inductive Counting
  | asked
  | answered (unread : List Uuid)

/-- The promises of `load` and `loadMore`. -/
inductive Paging
  | first
  | more
  deriving DecidableEq

/-- A page that was asked for, and its answer once the server has read it. -/
structure PageLoad where
  cursor : Option String
  answer : Option (Except Failure NotificationPageResponse)
  deriving DecidableEq

/-- The server, the stream, the tab with its requests, and whether the last count that came to
an end was loaded. `told` are the notifications that were there at the start or have been
announced since, `reported` those that were read at the start or that a reply has since
reported as read. -/
structure Inbox where
  table : Table
  frames : List Notification
  store : Store
  marks : List Marking
  counting : Option Counting
  pages : Paging → Option PageLoad
  counted : Bool
  told : List Uuid
  reported : List Uuid

/-- What happens: on the server, to a request or to a load. -/
inductive Event
  | created (row : Notification)
  | announced (index : Nat)
  | mark (request : MarkRequest)
  | executed (index : Nat) (now : Timestamp)
  | committed (index : Nat)
  | marked (index : Nat) (now : Timestamp)
  | markFailed (index : Nat)
  | loadUnreadCount
  | countRead
  | countLoaded
  | countFailed
  | load (paging : Paging)
  | pageRead (paging : Paging)
  | pageLoaded (paging : Paging)
  | pageFailed (paging : Paging)

namespace Inbox

variable (user : UserId)

/-- A request that has come further. -/
def advance (inbox : Inbox) (index : Nat) (request : MarkRequest) (progress : MarkProgress) :
    Inbox :=
  { inbox with marks := inbox.marks.set index ⟨request, progress⟩ }

/-- A load that begins, is answered or ends. -/
def setPage (inbox : Inbox) (paging : Paging) (load : Option PageLoad) : Inbox :=
  { inbox with pages := fun other => if other = paging then load else inbox.pages other }

/-- A new notification is unread, and is announced to its user. -/
def create (inbox : Inbox) (row : Notification) : Option Inbox :=
  if row.userId = user ∧ row.readAt = none then
    (inbox.table.insert row).map fun table =>
      { inbox with table, frames := inbox.frames ++ [row] }
  else none

/-- A frame arrives. -/
def announce (inbox : Inbox) (index : Nat) (row : Notification) : Inbox :=
  { inbox with
    frames := inbox.frames.eraseIdx index
    store := inbox.store.addFromSse row
    told := row.id :: inbox.told }

/-- The server serves a mark, up to the commit. -/
def execute (inbox : Inbox) (index : Nat) (request : MarkRequest) (now : Timestamp) : Inbox :=
  match executeMark user now inbox.table request with
  | .error _ => inbox.advance index request .refused
  | .ok (reply, write) => inbox.advance index request (.executed reply write)

/-- The server commits a mark. -/
def commit (inbox : Inbox) (index : Nat) (request : MarkRequest) (reply : MarkReply)
    (write : Option ReadWrite) : Inbox :=
  { inbox.advance index request (.committed reply) with
    table := write.elim inbox.table inbox.table.commit }

/-- The answer of a mark arrives. -/
def answerMark (inbox : Inbox) (index : Nat) (reply : MarkReply) (now : Timestamp) : Inbox :=
  { inbox with
    store := match reply with
      | .notification updated => inbox.store.markRead updated.id updated
      | .noContent _ => inbox.store.markAllRead now
    marks := inbox.marks.eraseIdx index
    reported := reply.covers ++ inbox.reported }

/-- `loadUnreadCount`, where the count has come. -/
def takeCount (inbox : Inbox) (unread : List Uuid) : Inbox :=
  { inbox with
    store := { inbox.store with unreadCount := unread.length }, counting := none, counted := true }

/-- A page that is asked for: the first, or the one after the last that came. -/
def askPage (inbox : Inbox) (paging : Paging) : Option Inbox :=
  match inbox.pages paging, paging with
  | some _, _ => none
  | none, .first => some (inbox.setPage .first (some ⟨none, none⟩))
  | none, .more =>
      inbox.store.nextCursor.map fun cursor =>
        { inbox.setPage .more (some ⟨some cursor, none⟩) with
          store := { inbox.store with loadingMore := true } }

/-- A page arrives. -/
def takePage (inbox : Inbox) (paging : Paging) (page : NotificationPageResponse) : Inbox :=
  { inbox.setPage paging none with
    store := match paging with
      | .first => inbox.store.load page
      | .more => inbox.store.loadMore page }

/-- The load of a page fails. -/
def failPage (inbox : Inbox) (paging : Paging) : Inbox :=
  { inbox.setPage paging none with
    store := match paging with
      | .first => inbox.store.failLoad
      | .more => inbox.store.failLoadMore }

/-- One event, where it can happen. -/
def step (inbox : Inbox) (event : Event) : Option Inbox :=
  match event with
  | .created row => inbox.create user row
  | .announced index => inbox.frames[index]?.map fun row => inbox.announce index row
  | .mark request => some { inbox with marks := inbox.marks ++ [⟨request, .sent⟩] }
  | .executed index now =>
      match inbox.marks[index]? with
      | some ⟨request, .sent⟩ => some (inbox.execute user index request now)
      | _ => none
  | .committed index =>
      match inbox.marks[index]? with
      | some ⟨request, .executed reply write⟩ => some (inbox.commit index request reply write)
      | _ => none
  | .marked index now =>
      match inbox.marks[index]? with
      | some ⟨_, .committed reply⟩ => some (inbox.answerMark index reply now)
      | _ => none
  | .markFailed index =>
      inbox.marks[index]?.map fun _ => { inbox with marks := inbox.marks.eraseIdx index }
  | .loadUnreadCount =>
      match inbox.counting with
      | none => some { inbox with counting := some .asked }
      | some _ => none
  | .countRead =>
      match inbox.counting with
      | some .asked => some { inbox with counting := some (.answered (inbox.table.unreadIds user)) }
      | _ => none
  | .countLoaded =>
      match inbox.counting with
      | some (.answered unread) => some (inbox.takeCount unread)
      | _ => none
  | .countFailed =>
      match inbox.counting with
      | some _ => some { inbox with counting := none, counted := false }
      | none => none
  | .load paging => inbox.askPage paging
  | .pageRead paging =>
      match inbox.pages paging with
      | some ⟨cursor, none⟩ =>
          some (inbox.setPage paging
            (some ⟨cursor, some (listNotifications user cursor inbox.table)⟩))
      | _ => none
  | .pageLoaded paging =>
      match inbox.pages paging with
      | some ⟨_, some (.ok page)⟩ => some (inbox.takePage paging page)
      | _ => none
  | .pageFailed paging => (inbox.pages paging).map fun _ => inbox.failPage paging

/-- Nothing is in flight. -/
structure Idle (inbox : Inbox) : Prop where
  frames : inbox.frames = []
  marks : inbox.marks = []
  counting : inbox.counting = none
  pages : ∀ paging, inbox.pages paging = none

end Inbox

/-- A tab that has just been opened. -/
structure Opened (user : UserId) (inbox : Inbox) : Prop where
  idle : inbox.Idle
  notifications : inbox.store.notifications = []
  counted : inbox.counted = false
  told : inbox.told = inbox.table.idsOf user
  reported : inbox.reported =
    (inbox.table.rows.filter fun row => !row.unread).map Notification.id

/-- One tab of a user, beside the server. -/
def badge (user : UserId) : TransitionSystem Inbox Event where
  Initial := Opened user
  step := Inbox.step user

/-- An id by its last digit. -/
def uuidOf (last : Fin 16) : Uuid := ⟨List.replicate 31 0 ++ [last], by simp⟩

end FrontDashboard.Notifications
