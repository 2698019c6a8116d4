import FrontDashboard.Notifications.Badge

/-! # A walk through the notifications

A tab loads the first page and then, one after the other, the pages that the cursors of the
server name. Meanwhile notifications are announced and marked, here and on other devices, some
are deleted, and a resync may ask for the first page again, whatever else is under way.
-/

namespace FrontDashboard.Notifications

/-! ## Pages of notifications are pages by place

The cursor is read back as the place it was written for, its condition is that a row's
place lies below that place, and the order of the query is that of the places. So a page
of notifications is a page of a keyset walk.
-/

open Keyset

/-! ## The cursor -/

theorem bar_not_mem_decimal (width value : Nat) : '|' ∉ Timestamp.decimal width value := by
  induction width generalizing value with
  | zero => simp [Timestamp.decimal]
  | succ width ih =>
      have plain : ∀ digit < 10, '|' ≠ Nat.digitChar digit := by decide
      have last := plain (value % 10) (Nat.mod_lt _ (by decide))
      simp [Timestamp.decimal, ih, last]

theorem bar_not_mem_isoformat (timestamp : Timestamp) : '|' ∉ timestamp.isoformat := by
  unfold Timestamp.isoformat Timestamp.formatted
  split <;> simp [bar_not_mem_decimal]

theorem bar_not_mem_text (id : Uuid) : '|' ∉ id.text.toList := by
  rw [Uuid.text, String.toList_ofList]
  intro member
  rcases Uuid.mem_hyphenated member with hyphen | digit
  · exact absurd hyphen (by decide)
  · obtain ⟨digit, _, same⟩ := List.mem_map.mp digit
    have plain : ∀ digit : Fin 16, Uuid.hexChar digit ≠ '|' := by decide
    exact plain digit same

/-- **A cursor is read back** as it was written. -/
theorem decodeCursor_encodeCursor (row : Notification) :
    decodeCursor (encodeCursor row) = .ok ⟨row.unread, row.createdAt, row.id⟩ := by
  have parts : (encodeCursor row).toList.splitOn '|' =
      [[if row.unread then 'u' else 'r'], row.createdAt.isoformat, row.id.text.toList] := by
    have letter : '|' ∉ [if row.unread then 'u' else 'r'] := by split <;> decide
    rw [encodeCursor, String.toList_ofList, ← List.singleton_append,
      List.splitOn_append_cons_self_of_not_mem letter,
      List.splitOn_append_cons_self_of_not_mem (bar_not_mem_isoformat _),
      List.splitOn_eq_singleton (bar_not_mem_text _)]
  have section_ok : [if row.unread then 'u' else 'r'] = ['u'] ∨
      [if row.unread then 'u' else 'r'] = ['r'] := by
    split <;> simp
  have unread : decide ([if row.unread then 'u' else 'r'] = ['u']) = row.unread := by
    cases row.unread <;> rfl
  rw [decodeCursor, parts]
  simp only [section_ok, if_true, Timestamp.fromisoformat_isoformat, String.ofList_toList,
    Uuid.read_text, unread]

def Cursor.place (cursor : Cursor) : Place := toLex (cursor.inUnreadSection, cursor.position)

/-- **The condition of a cursor** is that the row's place lies below that of the cursor. -/
theorem admits_eq (cursor : Cursor) (row : Notification) :
    cursor.admits row = decide (row.place < cursor.place) := by
  rw [Bool.eq_iff_iff, decide_eq_true_iff, Notification.place, Cursor.place, Cursor.admits,
    Prod.Lex.toLex_lt_toLex]
  cases cursor.inUnreadSection <;> cases row.unread <;> simp

/-- The place that a cursor of the server stands for. -/
def placeOf (cursor : String) : Option Place := (decodeCursor cursor).toOption.map Cursor.place

@[simp] theorem placeOf_encodeCursor (row : Notification) :
    placeOf (encodeCursor row) = some row.place := by
  rw [placeOf, decodeCursor_encodeCursor]
  rfl

/-- The cursor is one that the server writes. -/
def Issued (cursor : String) : Prop := ∃ row, encodeCursor row = cursor

/-! ## The page -/

/-- The rows a user's page is chosen from. -/
def Table.rowsOf (table : Table) (user : UserId) : List Notification :=
  table.rows.filter fun row => decide (row.userId = user)

theorem position_injective {first second : Notification}
    (same : first.position = second.position) : first.id = second.id :=
  Uuid.number_injective (congrArg Prod.snd same)

/-- Rows that their ids tell apart have a place each. -/
theorem rowsOf_distinct (table : Table) (user : UserId) :
    ((table.rowsOf user).map Notification.place).Nodup := by
  have ids : ((table.rowsOf user).map Notification.id).Nodup :=
    table.distinct.sublist (List.filter_sublist.map Notification.id)
  apply List.pairwise_map.mpr
  refine (List.pairwise_map.mp ids).imp ?_
  intro first second apart same
  exact apart (position_injective (congrArg Prod.snd same))

theorem mem_rowsOf {table : Table} {user : UserId} {row : Notification} :
    row ∈ table.rowsOf user ↔ row ∈ table.rows ∧ row.userId = user := by
  rw [Table.rowsOf, List.mem_filter, decide_eq_true_iff]

theorem select_eq_found (table : Table) (user : UserId) (bound : Option Place)
    {keeps : Notification → Bool}
    (condition : ∀ row, keeps row =
      (decide (row.userId = user) && below Notification.place bound row)) :
    table.select keeps = found Notification.place pageLimit bound (table.rowsOf user) := by
  rw [Table.select, found, listing, Table.rowsOf, List.filter_filter, funext condition]
  simp only [Bool.and_comm]

theorem answer_nextCursor (rows : List Notification) :
    (answer rows).nextCursor.bind placeOf = next Notification.place pageLimit rows ∧
      ∀ cursor ∈ (answer rows).nextCursor, Issued cursor := by
  simp only [answer, next, page]
  split
  · cases (rows.take pageLimit).getLast? with
    | none => simp
    | some last =>
        refine ⟨placeOf_encodeCursor last, ?_⟩
        intro cursor answered
        exact ⟨last, Option.some.inj answered⟩
  · simp

/-- **A page of notifications** is a page by place. -/
theorem listNotifications_eq_answer {cursor : Option String}
    (issued : ∀ text ∈ cursor, Issued text) (user : UserId) (table : Table) :
    listNotifications user cursor table = .ok (answer
      (found Notification.place pageLimit (cursor.bind placeOf) (table.rowsOf user))) := by
  cases cursor with
  | none =>
      rw [listNotifications, select_eq_found table user none]
      · rfl
      · intro row
        exact (Bool.and_true _).symm
  | some text =>
      obtain ⟨row, rfl⟩ := issued text rfl
      rw [listNotifications, decodeCursor_encodeCursor]
      change Except.ok _ = _
      rw [Option.bind_some, placeOf_encodeCursor, select_eq_found table user (some row.place)]
      intro other
      rw [admits_eq]
      rfl

/-! ## The walk -/

/-- A tab and the walk it is on. `pages` are those that its list is made of, from its first one
on, and `passed` tells whether a first page has come since the next one was asked for. -/
structure Walk where
  inbox : Inbox
  pages : Option (List NotificationPageResponse)
  passed : Bool

/-- The steps of the tab, the marks of other devices, and deletions. -/
inductive Action
  | event (event : Event)
  | markedElsewhere (write : ReadWrite)
  | deleted (ids : List Uuid)

namespace Walk

/-- The walk with other rows on the server. -/
def setTable (walk : Walk) (table : Table) : Walk :=
  { walk with inbox := { walk.inbox with table } }

/-- The page that is about to be taken in. -/
def landing (walk : Walk) (paging : Paging) : List NotificationPageResponse :=
  match walk.inbox.pages paging with
  | some ⟨_, some (.ok page)⟩ => [page]
  | _ => []

/-- The walk after a step of the tab. A first page begins the list anew. -/
def follow (walk : Walk) (event : Event) (inbox : Inbox) : Walk :=
  match event with
  | .load .more => { walk with inbox, passed := false }
  | .pageLoaded .first => ⟨inbox, some (walk.landing .first), true⟩
  | .pageLoaded .more => { walk with inbox, pages := walk.pages.map (· ++ walk.landing .more) }
  | _ => { walk with inbox }

/-- A step of the tab, or of the server behind its back. -/
def step (user : UserId) (walk : Walk) : Action → Option Walk
  | .event event => (walk.inbox.step user event).map (walk.follow event)
  | .markedElsewhere write => some (walk.setTable (walk.inbox.table.commit write))
  | .deleted ids => some (walk.setTable (walk.inbox.table.delete ids))

/-- A first page has just been asked for, whatever else is under way. -/
def Begins (walk : Walk) : Prop := walk.inbox.pages .first = some ⟨none, none⟩

instance : DecidablePred Begins := fun walk =>
  inferInstanceAs (Decidable (walk.inbox.pages .first = some ⟨none, none⟩))

/-- The tab as a new walk begins, of which no page has come. -/
def anew (walk : Walk) : Walk := { walk with pages := none }

/-- A first page has come, and the last page that came names no other one. -/
def Ended (walk : Walk) : Prop :=
  walk.pages.isSome ∧ walk.inbox.store.nextCursor = none

end Walk

/-- A tab from when it is opened on. -/
def tab (user : UserId) : TransitionSystem Walk Action where
  Initial walk := Opened user walk.inbox ∧ walk.inbox.store.nextCursor = none ∧
    walk.pages = none ∧ walk.passed = false
  step := Walk.step user

/-- The runs of a walk that begins in one state. -/
def walking (user : UserId) (start : Walk) : TransitionSystem Walk Action where
  Initial walk := walk = start.anew
  step := Walk.step user

/-- The notifications that a step deletes. -/
def Action.deletedIds : Action → List Uuid
  | .deleted ids => ids
  | _ => []

/-- The step deletes the notification. -/
def Action.Deletes (action : Action) (id : Uuid) : Prop := id ∈ action.deletedIds

instance (action : Action) (id : Uuid) : Decidable (action.Deletes id) :=
  inferInstanceAs (Decidable (id ∈ action.deletedIds))

/-- The step takes in a first page. -/
def Action.Restarts : Action → Prop
  | .event (.pageLoaded .first) => True
  | _ => False

/-- **Pages land in turn**: no page that was asked for by a cursor is taken in once a first page
has come since. -/
def Admits (walk : Walk) : Action → Prop
  | .event (.pageLoaded .more) => walk.passed = false
  | _ => True

instance (walk : Walk) (action : Action) : Decidable (Admits walk action) := by
  unfold Admits
  split <;> infer_instance

end FrontDashboard.Notifications
