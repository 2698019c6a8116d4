import FrontDashboard.Library.Outcomes
import FrontDashboard.Library.Places
import FrontDashboard.Notifications.Badge

/-! # The unread badge converges

A tab is told of notifications and that notifications were read. As long as each absolute
answer, a count or a page, agrees with what the tab has been told when it is taken in, and each
mark is heard after the notifications it is about, the count is that of the notifications told
of and not reported as read; once nothing is in flight these are the unread ones of the server.
-/

namespace FrontDashboard.Notifications

open Outcomes

variable {user : UserId} {table after : Table} {inbox next : Inbox} {index : Nat}
  {row : Notification} {request : MarkRequest} {reply : MarkReply} {write : Option ReadWrite}
  {ids : List Uuid} {now : Timestamp} {paging : Paging} {mark : Marking}

/-! ## The rows -/

/-- The ids of a user are those of his rows. -/
theorem mem_idsOf {id : Uuid} :
    id ∈ table.idsOf user ↔ ∃ row ∈ table.rows, row.userId = user ∧ row.id = id := by
  simp [Table.idsOf, and_assoc]

/-- The unread ids are those of his rows that are unread. -/
theorem mem_unreadIds {id : Uuid} : id ∈ table.unreadIds user ↔
    ∃ row ∈ table.rows, (row.userId = user ∧ row.unread = true) ∧ row.id = id := by
  simp [Table.unreadIds, and_assoc]

/-- Each unread id is there once. -/
theorem unreadIds_nodup (user : UserId) (table : Table) : (table.unreadIds user).Nodup :=
  table.distinct.sublist (List.filter_sublist.map _)

/-- Ids of a user are not repeated. -/
theorem idsOf_nodup (user : UserId) (table : Table) : (table.idsOf user).Nodup :=
  table.distinct.sublist (List.filter_sublist.map _)

/-- A row is known by its id. -/
theorem eq_of_id {first second : Notification} (one : first ∈ table.rows)
    (other : second ∈ table.rows) (same : first.id = second.id) : first = second :=
  List.inj_on_of_nodup_map table.distinct one other same

/-- A row that is inserted has a new id and comes first. -/
theorem insert_eq_some (inserted : table.insert row = some after) :
    row.id ∉ table.rows.map Notification.id ∧ after.rows = row :: table.rows := by
  unfold Table.insert at inserted
  split at inserted
  next fresh =>
    cases inserted
    exact ⟨fresh, rfl⟩
  next => cases inserted

/-- A mark leaves the ids. -/
theorem idsOf_commit (write : ReadWrite) : (table.commit write).idsOf user = table.idsOf user := by
  have same : ((fun row : Notification => decide (row.userId = user)) ∘
      Notification.marked write) = fun row => decide (row.userId = user) := by
    funext row
    simp
  unfold Table.idsOf Table.commit
  dsimp only
  rw [List.filter_map, same, List.map_map]
  exact List.map_congr_left fun row _ => Notification.marked_id write row

/-! ## What is read -/

/-- The notifications are there, and read or about to be. -/
def Reads (table : Table) (write : Option ReadWrite) (ids : List Uuid) : Prop :=
  ∀ id ∈ ids, ∃ row ∈ table.rows, row.id = id ∧ (row.unread = false ∨ ∃ w ∈ write, id ∈ w.ids)

/-- What is read stays read. -/
theorem unread_marked_of_read (write : ReadWrite) (read : row.unread = false) :
    (row.marked write).unread = false := by
  unfold Notification.marked
  split
  · rfl
  · exact read

/-- What a mark names is read. -/
theorem unread_marked_of_mem {write : ReadWrite} (member : row.id ∈ write.ids) :
    (row.marked write).unread = false := by
  rw [Notification.marked, if_pos member]
  rfl

/-- What is to be read is so beside a new row. -/
theorem Reads.insert (reads : Reads table write ids) (inserted : table.insert row = some after) :
    Reads after write ids := by
  intro id member
  obtain ⟨old, present, same, read⟩ := reads id member
  refine ⟨old, ?_, same, read⟩
  rw [(insert_eq_some inserted).2]
  exact List.mem_cons_of_mem _ present

/-- What is to be read is so after another mark. -/
theorem Reads.commit (reads : Reads table write ids) (other : ReadWrite) :
    Reads (table.commit other) write ids := by
  intro id member
  obtain ⟨row, present, same, read⟩ := reads id member
  refine ⟨row.marked other, List.mem_map_of_mem present, ?_, ?_⟩
  · rw [Notification.marked_id, same]
  · exact read.imp_left (unread_marked_of_read other)

/-- **A commit** makes what it was about to read read. -/
theorem Reads.done (reads : Reads table write ids) :
    Reads (write.elim table table.commit) none ids := by
  intro id member
  obtain ⟨row, present, same, read⟩ := reads id member
  cases write with
  | none =>
      rcases read with read | ⟨_, none_, _⟩
      · exact ⟨row, present, same, .inl read⟩
      · cases none_
  | some write =>
      refine ⟨row.marked write, List.mem_map_of_mem present, ?_, .inl ?_⟩
      · rw [Notification.marked_id, same]
      · rcases read with read | ⟨_, given, among⟩
        · exact unread_marked_of_read write read
        · cases given
          exact unread_marked_of_mem (same ▸ among)

/-- Two lists that are to be read are so together. -/
theorem Reads.append {more : List Uuid} (reads : Reads table write ids)
    (others : Reads table write more) : Reads table write (ids ++ more) := by
  intro id member
  rcases List.mem_append.mp member with one | other
  · exact reads id one
  · exact others id other

/-! ## Marks -/

/-- A reply that carries a notification carries it as read. -/
def MarkReply.Read : MarkReply → Prop
  | .notification updated => updated.unread = false
  | .noContent _ => True

/-- The reply is true of the table once the mark is committed. -/
def Marking.Sound (table : Table) (mark : Marking) : Prop :=
  match mark.progress with
  | .sent => True
  | .executed reply write => reply.Read ∧ Reads table write reply.covers ∧
      ∀ w ∈ write, ∀ id ∈ w.ids, id ∈ reply.covers
  | .committed reply => reply.Read ∧ Reads table none reply.covers
  | .refused => True

/-- A mark is sound beside a new row. -/
theorem Marking.Sound.insert (sound : mark.Sound table)
    (inserted : table.insert row = some after) : mark.Sound after := by
  unfold Marking.Sound at sound ⊢
  split
  · trivial
  next executed =>
    rw [executed] at sound
    exact ⟨sound.1, sound.2.1.insert inserted, sound.2.2⟩
  next committed =>
    rw [committed] at sound
    exact ⟨sound.1, sound.2.insert inserted⟩
  · trivial

/-- A mark is sound after another mark. -/
theorem Marking.Sound.commit (sound : mark.Sound table) (other : ReadWrite) :
    mark.Sound (table.commit other) := by
  unfold Marking.Sound at sound ⊢
  split
  · trivial
  next executed =>
    rw [executed] at sound
    exact ⟨sound.1, sound.2.1.commit other, sound.2.2⟩
  next committed =>
    rw [committed] at sound
    exact ⟨sound.1, sound.2.commit other⟩
  · trivial

/-- Marking one finds its row, and writes only when it is unread. -/
theorem markRead_eq_ok {id : Uuid} (ran : markRead id user now table = .ok write) :
    ∃ row, (table.rows.find? fun row => row.id = id && row.userId = user) = some row ∧
      write = if row.readAt = none then some ⟨[id], now⟩ else none := by
  unfold markRead at ran
  split at ran
  · cases ran
  next row found => exact ⟨row, found, (Except.ok.inj ran).symm⟩

/-- **A mark that was executed** is sound. -/
theorem executeMark_sound (ran : executeMark user now table request = .ok (reply, write)) :
    Marking.Sound table ⟨request, .executed reply write⟩ := by
  cases request with
  | markRead id =>
      obtain ⟨write, marked, ran⟩ := bind_eq_ok.mp ran
      obtain ⟨row, found, rfl⟩ := markRead_eq_ok marked
      rw [found] at ran
      cases ran
      have fits : row.id = id ∧ row.userId = user := by simpa using List.find?_some found
      have present := List.mem_of_find?_eq_some found
      by_cases unread : row.readAt = none
      · rw [if_pos unread]
        refine ⟨unread_marked_of_mem (by simp [fits.1]), ?_, ?_⟩
        · intro other member
          have same : other = id := by
            simpa [MarkReply.covers, fits.1] using member
          subst same
          exact ⟨row, present, fits.1, .inr ⟨_, rfl, List.mem_singleton.mpr rfl⟩⟩
        · intro w given other member
          cases given
          simpa [MarkReply.covers, fits.1] using member
      · have read : row.unread = false := by
          unfold Notification.unread
          rw [Option.isNone_eq_false_iff]
          exact Option.isSome_iff_ne_none.mpr unread
        rw [if_neg unread]
        refine ⟨read, ?_, nofun⟩
        intro other member
        have same : other = row.id := List.mem_singleton.mp member
        exact ⟨row, present, same.symm, .inl read⟩
  | markAllRead =>
      cases ran
      refine ⟨trivial, ?_, ?_⟩
      · intro id member
        obtain ⟨row, present, owned, same⟩ := mem_idsOf.mp member
        refine ⟨row, present, same, ?_⟩
        cases read : row.unread with
        | false => exact .inl rfl
        | true =>
            refine .inr ⟨_, rfl, ?_⟩
            exact mem_unreadIds.mpr ⟨row, present, ⟨owned, read⟩, same⟩
      · intro w given id member
        cases given
        obtain ⟨row, present, ⟨owned, _⟩, same⟩ := mem_unreadIds.mp member
        exact mem_idsOf.mpr ⟨row, present, owned, same⟩

/-! ## What the tab has been told -/

/-- The notifications told of and not reported as read. -/
def Inbox.unreadTold (inbox : Inbox) : List Uuid :=
  inbox.told.filter fun id => id ∉ inbox.reported

/-- Told as unread is what was told of and not reported as read. -/
theorem mem_unreadTold {id : Uuid} :
    id ∈ inbox.unreadTold ↔ id ∈ inbox.told ∧ id ∉ inbox.reported := by
  simp [Inbox.unreadTold]

/-- The row agrees with what the tab has been told. -/
def Inbox.Agrees (inbox : Inbox) (row : Notification) : Prop :=
  row.id ∈ inbox.told ∧ (row.unread = true ↔ row.id ∉ inbox.reported)

instance (inbox : Inbox) (row : Notification) : Decidable (inbox.Agrees row) :=
  inferInstanceAs (Decidable (_ ∧ _))

def Marking.isCommitted (mark : Marking) : Bool :=
  match mark.progress with
  | .committed _ => true
  | _ => false

/-- What the store takes the reply for is what it says: a notification that is counted is in
the list, and a reply to all is about all that the tab counts or lists. -/
def Marking.Fits (inbox : Inbox) (mark : Marking) : Prop :=
  match mark.progress with
  | .committed (.notification updated) =>
      inbox.counted = true → updated.id ∈ inbox.unreadTold → updated.id ∈ inbox.store.ids
  | .committed (.noContent covered) => ∀ id ∈ inbox.unreadTold,
      inbox.counted = true ∨ id ∈ inbox.store.ids → id ∈ covered
  | _ => True

instance (inbox : Inbox) (mark : Marking) : Decidable (mark.Fits inbox) := by
  unfold Marking.Fits
  split <;> infer_instance

/-- The ids of the count that is answered. -/
def Inbox.countAnswer (inbox : Inbox) : Option (List Uuid) :=
  match inbox.counting with
  | some (.answered unread) => some unread
  | _ => none

/-- The rows of the page that is answered. -/
def Inbox.pageAnswer (inbox : Inbox) (paging : Paging) : List Notification :=
  match inbox.pages paging with
  | some ⟨_, some (.ok page)⟩ => page.items
  | _ => []

/-- A notification is announced before it is reported as read, a reply to a mark is taken for
what it says, a mark that the server committed does not fail, and a count or a page is taken in
when it agrees with what the tab has been told. -/
def Matches (inbox : Inbox) : Event → Prop
  | .announced index => ∀ row ∈ inbox.frames[index]?, row.id ∉ inbox.reported
  | .marked index _ => ∀ mark ∈ inbox.marks[index]?, mark.Fits inbox
  | .markFailed index => ∀ mark ∈ inbox.marks[index]?, mark.isCommitted = false
  | .countLoaded => ∀ unread ∈ inbox.countAnswer,
      (∀ id ∈ unread, id ∈ inbox.unreadTold) ∧ ∀ id ∈ inbox.unreadTold, id ∈ unread
  | .pageLoaded paging => ∀ row ∈ inbox.pageAnswer paging, inbox.Agrees row
  | _ => True

instance (inbox : Inbox) (event : Event) : Decidable (Matches inbox event) := by
  cases event <;> unfold Matches <;> infer_instance

/-- What is read has been reported, or is about to be. -/
def Heard (user : UserId) (table : Table) (marks : List Marking) (reported : List Uuid) : Prop :=
  ∀ row ∈ table.rows, row.userId = user → row.unread = false → row.id ∈ reported ∨
    ∃ mark ∈ marks, ∃ reply, mark.progress = .committed reply ∧ row.id ∈ reply.covers

structure Tracked (user : UserId) (inbox : Inbox) : Prop where
  distinct : (inbox.told ++ inbox.frames.map Notification.id).Nodup
  rows : ∀ id, id ∈ inbox.told ++ inbox.frames.map Notification.id ↔ id ∈ inbox.table.idsOf user
  unread : ∀ row ∈ inbox.frames, row.readAt = none
  reported : Reads inbox.table none inbox.reported
  marks : ∀ mark ∈ inbox.marks, mark.Sound inbox.table
  heard : Heard user inbox.table inbox.marks inbox.reported
  counting : ∀ unread ∈ inbox.countAnswer, unread.Nodup
  listed : ∀ row ∈ inbox.store.notifications, inbox.Agrees row
  count : inbox.counted = true → inbox.store.unreadCount = inbox.unreadTold.length

/-- The page is told of a notification once. -/
theorem Tracked.told_nodup (tracked : Tracked user inbox) : inbox.told.Nodup :=
  (List.nodup_append.mp tracked.distinct).1

/-- So none counts twice. -/
theorem Tracked.unreadTold_nodup (tracked : Tracked user inbox) : inbox.unreadTold.Nodup :=
  tracked.told_nodup.filter _

/-! ## The server's steps -/

/-- A notification that is created is told of. -/
theorem Tracked.create (tracked : Tracked user inbox)
    (moved : inbox.create user row = some next) : Tracked user next := by
  unfold Inbox.create at moved
  split at moved
  next isNew =>
    obtain ⟨table, inserted, rfl⟩ := Option.map_eq_some_iff.mp moved
    obtain ⟨fresh, rows⟩ := insert_eq_some inserted
    have ids : ∀ id, id ∈ table.idsOf user ↔ id = row.id ∨ id ∈ inbox.table.idsOf user := by
      intro id
      rw [mem_idsOf, mem_idsOf, rows]
      simp [isNew.1, eq_comm]
    have absent : row.id ∉ inbox.table.idsOf user := by
      intro member
      obtain ⟨other, present, _, same⟩ := mem_idsOf.mp member
      exact fresh (List.mem_map.mpr ⟨other, present, same⟩)
    refine ⟨?_, ?_, ?_, tracked.reported.insert inserted, ?_, ?_, tracked.counting,
      tracked.listed, tracked.count⟩
    · rw [List.map_append, ← List.append_assoc, List.map_singleton, ← List.concat_eq_append]
      apply List.Nodup.concat _ tracked.distinct
      rw [tracked.rows]
      exact absent
    · intro id
      rw [List.map_append, ← List.append_assoc, List.mem_append, tracked.rows, ids]
      simp [or_comm]
    · intro other member
      rcases List.mem_append.mp member with old | new
      · exact tracked.unread other old
      · rw [List.mem_singleton.mp new]
        exact isNew.2
    · exact fun mark member => (tracked.marks mark member).insert inserted
    · intro other present owned read
      rw [rows] at present
      rcases List.mem_cons.mp present with rfl | old
      · rw [Notification.unread, isNew.2] at read
        cases read
      · exact tracked.heard other old owned read
  next => cases moved

/-- What was reported stays so while no committed mark is dropped. -/
theorem Heard.keep {marks kept : List Marking} {reported : List Uuid}
    (heard : Heard user table marks reported)
    (keeps : ∀ mark ∈ marks, mark.isCommitted = true → mark ∈ kept) :
    Heard user table kept reported := by
  intro row present owned read
  refine (heard row present owned read).imp_right ?_
  intro ⟨mark, among, reply, committed, covered⟩
  have isCommitted : mark.isCommitted = true := by
    rw [Marking.isCommitted, committed]
  exact ⟨mark, keeps mark among isCommitted, reply, committed, covered⟩

/-- A mark that is not committed may change. -/
theorem Heard.set {marks : List Marking} {reported : List Uuid} {changed : Marking}
    (heard : Heard user table marks reported) (found : marks[index]? = some mark)
    (open_ : mark.isCommitted = false) : Heard user table (marks.set index changed) reported := by
  apply heard.keep
  intro other among committed
  rcases Places.eq_or_mem_set changed found among with rfl | stays
  · exact absurd committed (Bool.eq_false_iff.mp open_)
  · exact stays

/-- A mark that is not committed may go. -/
theorem Heard.eraseIdx {marks : List Marking} {reported : List Uuid}
    (heard : Heard user table marks reported) (found : marks[index]? = some mark)
    (open_ : mark.isCommitted = false) : Heard user table (marks.eraseIdx index) reported := by
  apply heard.keep
  intro other among committed
  rcases Places.eq_or_mem_eraseIdx found among with rfl | stays
  · exact absurd committed (Bool.eq_false_iff.mp open_)
  · exact stays

/-- A mark that is not committed may go on. -/
theorem Tracked.advance {progress : MarkProgress} (tracked : Tracked user inbox)
    (found : inbox.marks[index]? = some mark) (open_ : mark.isCommitted = false)
    (sound : Marking.Sound inbox.table ⟨request, progress⟩) :
    Tracked user (inbox.advance index request progress) := by
  refine { tracked with marks := ?_, heard := tracked.heard.set found open_ }
  intro other member
  rcases List.mem_or_eq_of_mem_set member with old | rfl
  · exact tracked.marks other old
  · exact sound

/-- A mark that is not committed may be executed. -/
theorem Tracked.execute (tracked : Tracked user inbox)
    (found : inbox.marks[index]? = some ⟨request, .sent⟩) :
    Tracked user (inbox.execute user index request now) := by
  unfold Inbox.execute
  split
  · exact tracked.advance found rfl trivial
  next ran => exact tracked.advance found rfl (executeMark_sound ran)

/-- **A commit** is about to be reported. -/
theorem Tracked.commit (tracked : Tracked user inbox)
    (found : inbox.marks[index]? = some ⟨request, .executed reply write⟩) :
    Tracked user (inbox.commit index request reply write) := by
  obtain ⟨read, reads, covers⟩ := tracked.marks _ (List.mem_of_getElem? found)
  have done := reads.done
  have inside := (List.getElem?_eq_some_iff.mp found).1
  cases write with
  | none =>
      exact tracked.advance found rfl ⟨read, done⟩
  | some write =>
      refine ⟨tracked.distinct, ?_, tracked.unread, tracked.reported.commit write, ?_, ?_,
        tracked.counting, tracked.listed, tracked.count⟩
      · intro id
        change _ ↔ id ∈ (inbox.table.commit write).idsOf user
        rw [idsOf_commit]
        exact tracked.rows id
      · intro other member
        rcases List.mem_or_eq_of_mem_set member with old | rfl
        · exact (tracked.marks other old).commit write
        · exact ⟨read, done⟩
      · intro marked present owned isRead
        obtain ⟨row, before, rfl⟩ := List.mem_map.mp present
        rw [Notification.marked_id]
        by_cases written : row.id ∈ write.ids
        · refine .inr ⟨_, List.mem_set inside _, reply, rfl, covers write rfl row.id written⟩
        · rw [Notification.marked, if_neg written] at isRead owned
          exact tracked.heard.set found rfl row before owned isRead

/-! ## What the tab hears -/

/-- **An announcement** adds one to what is unread. -/
theorem Tracked.announce (tracked : Tracked user inbox) (found : inbox.frames[index]? = some row)
    (first : row.id ∉ inbox.reported) : Tracked user (inbox.announce index row) := by
  have present := List.mem_of_getElem? found
  have isNew := tracked.unread row present
  have around : (inbox.told ++ inbox.frames.map Notification.id).Perm
      (row.id :: inbox.told ++ (inbox.frames.eraseIdx index).map Notification.id) := by
    have split := Places.eq_around found
    rw [List.eraseIdx_eq_take_drop_succ]
    conv_lhs => rw [split]
    simp only [List.map_append, List.map_cons, ← List.append_assoc, List.cons_append]
    exact List.perm_middle
  have untold : row.id ∉ inbox.told := by
    intro member
    exact List.disjoint_of_nodup_append tracked.distinct member (List.mem_map_of_mem present)
  have unlisted : row.id ∉ inbox.store.notifications.map Notification.id := by
    intro member
    obtain ⟨other, among, same⟩ := List.mem_map.mp member
    exact untold (same ▸ (tracked.listed other among).1)
  have store : (inbox.announce index row).store = { inbox.store with
      notifications := row :: inbox.store.notifications
      unreadCount := inbox.store.unreadCount + 1 } := by
    change inbox.store.addFromSse row = _
    rw [Store.addFromSse, if_neg unlisted, if_pos isNew]
  refine ⟨around.nodup tracked.distinct, ?_, ?_, tracked.reported, tracked.marks, tracked.heard,
    tracked.counting, ?_, ?_⟩
  · intro id
    exact around.symm.mem_iff.trans (tracked.rows id)
  · exact fun other member => tracked.unread other (List.mem_of_mem_eraseIdx member)
  · rw [store]
    intro other member
    rcases List.mem_cons.mp member with rfl | old
    · refine ⟨List.mem_cons_self, ?_⟩
      rw [Notification.unread, isNew]
      exact ⟨fun _ => first, fun _ => rfl⟩
    · obtain ⟨told, agrees⟩ := tracked.listed other old
      exact ⟨List.mem_cons_of_mem _ told, agrees⟩
  · intro counted
    rw [store]
    have more : (inbox.announce index row).unreadTold = row.id :: inbox.unreadTold := by
      unfold Inbox.unreadTold Inbox.announce
      simp [first]
    rw [more, List.length_cons, ← tracked.count counted]

/-- An answer takes what it covers from the unread. -/
theorem unreadTold_answerMark : (inbox.answerMark index reply now).unreadTold =
    inbox.unreadTold.filter fun id => id ∉ reply.covers := by
  unfold Inbox.unreadTold Inbox.answerMark
  rw [List.filter_filter]
  simp

/-- The ids that are left once one has been reported. -/
theorem length_filter_ne {ids : List Uuid} (distinct : ids.Nodup) (id : Uuid) :
    (ids.filter fun other => other ∉ [id]).length =
      if id ∈ ids then ids.length - 1 else ids.length := by
  have same : (ids.filter fun other => other ∉ [id]) = ids.erase id := by
    rw [distinct.erase_eq_filter]
    apply List.filter_congr
    intro other _
    rw [Bool.eq_iff_iff]
    simp
  rw [same, List.length_erase]

/-- **A reply to one** takes one from what is unread, where the notification was. -/
theorem Tracked.count_markRead {updated : Notification} (tracked : Tracked user inbox)
    (read : updated.unread = false) (counted : inbox.counted = true)
    (fits : updated.id ∈ inbox.unreadTold → updated.id ∈ inbox.store.ids) :
    (inbox.store.markRead updated.id updated).unreadCount =
      (inbox.unreadTold.filter fun id => id ∉ [updated.id]).length := by
  rw [length_filter_ne tracked.unreadTold_nodup, ← tracked.count counted]
  unfold Store.markRead
  have became : ((inbox.store.notifications.find? fun row => row.id = updated.id).any
      Notification.unread && !updated.unread) = decide (updated.id ∈ inbox.unreadTold) := by
    rw [read, Bool.not_false, Bool.and_true, Bool.eq_iff_iff, decide_eq_true_iff]
    cases found : inbox.store.notifications.find? fun row => row.id = updated.id with
    | none =>
        constructor
        · intro nothing
          cases nothing
        · intro member
          obtain ⟨row, listed, same⟩ := List.mem_map.mp (fits member)
          have absent := List.find?_eq_none.mp found row listed
          simp [same] at absent
    | some row =>
        have same : row.id = updated.id := by simpa using List.find?_some found
        obtain ⟨told, agrees⟩ := tracked.listed row (List.mem_of_find?_eq_some found)
        rw [Option.any_some, agrees, mem_unreadTold, ← same]
        exact ⟨fun open_ => ⟨told, open_⟩, fun both => both.2⟩
  simp only [became, decide_eq_true_iff]

/-- The rows listed agree after the answer to one mark. -/
theorem Tracked.listed_markRead {updated : Notification} (tracked : Tracked user inbox)
    (read : updated.unread = false) :
    ∀ row ∈ (inbox.store.markRead updated.id updated).notifications,
      (inbox.answerMark index (.notification updated) now).Agrees row := by
  intro row member
  obtain ⟨old, listed, rfl⟩ := List.mem_map.mp member
  obtain ⟨told, agrees⟩ := tracked.listed old listed
  split
  next same =>
    refine ⟨same ▸ told, ?_⟩
    rw [read]
    exact ⟨nofun, fun absent => absurd (List.mem_cons_self) absent⟩
  next other =>
    refine ⟨told, ?_⟩
    rw [agrees]
    simp [Inbox.answerMark, MarkReply.covers, other]

/-- The rows listed agree after the answer to a mark of all. -/
theorem Tracked.listed_markAllRead {covered : List Uuid} (tracked : Tracked user inbox)
    (fits : ∀ id ∈ inbox.unreadTold, id ∈ inbox.store.ids → id ∈ covered) :
    ∀ row ∈ (inbox.store.markAllRead now).notifications,
      (inbox.answerMark index (.noContent covered) now).Agrees row := by
  intro row member
  obtain ⟨old, listed, rfl⟩ := List.mem_map.mp member
  obtain ⟨told, agrees⟩ := tracked.listed old listed
  have reported : old.id ∈ covered ++ inbox.reported := by
    by_cases before : old.id ∈ inbox.reported
    · exact List.mem_append_right _ before
    · have unread := mem_unreadTold.mpr ⟨told, before⟩
      exact List.mem_append_left _ (fits old.id unread (List.mem_map_of_mem listed))
  split
  next => exact ⟨told, nofun, fun absent => absurd reported absent⟩
  next isRead =>
    refine ⟨told, ?_, fun absent => absurd reported absent⟩
    intro unread
    exact absurd (Option.isNone_iff_eq_none.mp unread) isRead

/-- **A reply to a mark** is what the tab takes it for. -/
theorem Tracked.answerMark (tracked : Tracked user inbox)
    (found : inbox.marks[index]? = some ⟨request, .committed reply⟩)
    (fits : Marking.Fits inbox ⟨request, .committed reply⟩) :
    Tracked user (inbox.answerMark index reply now) := by
  obtain ⟨read, reads⟩ := tracked.marks _ (List.mem_of_getElem? found)
  have heard : Heard user inbox.table (inbox.marks.eraseIdx index)
      (reply.covers ++ inbox.reported) := by
    intro row present owned isRead
    rcases tracked.heard row present owned isRead with
      before | ⟨mark, among, other, committed, covered⟩
    · exact .inl (List.mem_append_right _ before)
    · rcases Places.eq_or_mem_eraseIdx found among with rfl | stays
      · cases committed
        exact .inl (List.mem_append_left _ covered)
      · exact .inr ⟨mark, stays, other, committed, covered⟩
  refine ⟨tracked.distinct, tracked.rows, tracked.unread, reads.append tracked.reported, ?_, heard,
    tracked.counting, ?_, ?_⟩
  · exact fun mark member => tracked.marks mark (List.mem_of_mem_eraseIdx member)
  · cases reply with
    | notification updated => exact tracked.listed_markRead read
    | noContent covered =>
        exact tracked.listed_markAllRead fun id unread listed => fits id unread (.inr listed)
  · intro counted
    rw [unreadTold_answerMark]
    cases reply with
    | notification updated => exact tracked.count_markRead read counted (fits counted)
    | noContent covered =>
        have nothing : (inbox.unreadTold.filter fun id => id ∉ covered) = [] := by
          rw [List.filter_eq_nil_iff]
          intro id unread
          simp [fits id unread (.inl counted)]
        rw [MarkReply.covers, nothing]
        rfl

/-! ## Counts and pages -/

/-- A count that is the number of the unread is taken. -/
theorem Tracked.takeCount (tracked : Tracked user inbox) (distinct : ids.Nodup)
    (within : ∀ id ∈ ids, id ∈ inbox.unreadTold) (all : ∀ id ∈ inbox.unreadTold, id ∈ ids) :
    Tracked user (inbox.takeCount ids) := by
  refine { tracked with counting := nofun, count := ?_ }
  intro _
  exact (distinct.subperm within).antisymm (tracked.unreadTold_nodup.subperm all) |>.length_eq

/-- **A page that agrees** with what the tab has been told may be taken in. -/
theorem Tracked.takePage {page : NotificationPageResponse} (tracked : Tracked user inbox)
    (agrees : ∀ row ∈ page.items, inbox.Agrees row) :
    Tracked user (inbox.takePage paging page) := by
  cases paging with
  | first => exact { tracked with listed := agrees }
  | more =>
      refine { tracked with listed := ?_ }
      intro row member
      rcases List.mem_append.mp member with old | new
      · exact tracked.listed row old
      · exact agrees row (List.mem_of_mem_filter new)

/-! ## Runs -/

/-- A page begins with what it is told. -/
theorem tracked_of_opened (opened : Opened user inbox) : Tracked user inbox := by
  have told : inbox.told ++ inbox.frames.map Notification.id = inbox.table.idsOf user := by
    rw [opened.idle.frames, List.map_nil, List.append_nil, opened.told]
  refine ⟨?_, ?_, ?_, ?_, ?_, ?_, ?_, ?_, ?_⟩
  · rw [told]
    exact idsOf_nodup user inbox.table
  · intro id
    rw [told]
  · rw [opened.idle.frames]
    exact nofun
  · rw [opened.reported]
    intro id member
    obtain ⟨row, present, same⟩ := List.mem_map.mp member
    obtain ⟨among, read⟩ := List.mem_filter.mp present
    exact ⟨row, among, same, .inl (by simpa using read)⟩
  · rw [opened.idle.marks]
    exact nofun
  · intro row present _ read
    rw [opened.reported]
    exact .inl (List.mem_map_of_mem (List.mem_filter.mpr ⟨present, by simp [read]⟩))
  · rw [Inbox.countAnswer, opened.idle.counting]
    exact nofun
  · rw [opened.notifications]
    exact nofun
  · rw [opened.counted]
    exact nofun

/-- **Every step that matches** keeps the tab on track. -/
theorem Tracked.step {event : Event} (tracked : Tracked user inbox) (fits : Matches inbox event)
    (moved : inbox.step user event = some next) : Tracked user next := by
  cases event with
  | created row => exact tracked.create moved
  | announced index =>
      obtain ⟨row, found, rfl⟩ := Option.map_eq_some_iff.mp moved
      exact tracked.announce found (fits row found)
  | mark request =>
      cases moved
      refine { tracked with marks := ?_, heard := ?_ }
      · intro mark member
        rcases List.mem_append.mp member with old | new
        · exact tracked.marks mark old
        · rw [List.mem_singleton.mp new]
          trivial
      · exact tracked.heard.keep fun mark among _ => List.mem_append_left _ among
  | executed index now =>
      dsimp only [Inbox.step] at moved
      split at moved
      next request found =>
        cases moved
        exact tracked.execute found
      next => cases moved
  | committed index =>
      dsimp only [Inbox.step] at moved
      split at moved
      next request reply write found =>
        cases moved
        exact tracked.commit found
      next => cases moved
  | marked index now =>
      dsimp only [Inbox.step] at moved
      split at moved
      next request reply found =>
        cases moved
        exact tracked.answerMark found (fits _ found)
      next => cases moved
  | markFailed index =>
      obtain ⟨mark, found, rfl⟩ := Option.map_eq_some_iff.mp moved
      refine { tracked with marks := ?_, heard := tracked.heard.eraseIdx found (fits mark found) }
      exact fun other member => tracked.marks other (List.mem_of_mem_eraseIdx member)
  | loadUnreadCount =>
      dsimp only [Inbox.step] at moved
      split at moved
      next =>
        cases moved
        exact { tracked with counting := nofun }
      next => cases moved
  | countRead =>
      dsimp only [Inbox.step] at moved
      split at moved
      next =>
        cases moved
        refine { tracked with counting := ?_ }
        intro unread answered
        cases answered
        exact unreadIds_nodup user inbox.table
      next => cases moved
  | countLoaded =>
      dsimp only [Inbox.step] at moved
      split at moved
      next unread answered =>
        cases moved
        have given : unread ∈ inbox.countAnswer := by rw [Inbox.countAnswer, answered]; rfl
        obtain ⟨within, all⟩ := fits unread given
        exact tracked.takeCount (tracked.counting unread given) within all
      next => cases moved
  | countFailed =>
      dsimp only [Inbox.step] at moved
      split at moved
      next =>
        cases moved
        exact { tracked with counting := nofun, count := nofun }
      next => cases moved
  | load paging =>
      dsimp only [Inbox.step] at moved
      unfold Inbox.askPage at moved
      split at moved
      · cases moved
      · cases moved
        exact { tracked with }
      · obtain ⟨cursor, _, rfl⟩ := Option.map_eq_some_iff.mp moved
        exact { tracked with }
  | pageRead paging =>
      dsimp only [Inbox.step] at moved
      split at moved
      next =>
        cases moved
        exact { tracked with }
      next => cases moved
  | pageLoaded paging =>
      dsimp only [Inbox.step] at moved
      split at moved
      next cursor page answered =>
        cases moved
        apply tracked.takePage
        have given : inbox.pageAnswer paging = page.items := by rw [Inbox.pageAnswer, answered]
        intro row member
        rw [← given] at member
        exact fits row member
      next => cases moved
  | pageFailed paging =>
      obtain ⟨_, _, rfl⟩ := Option.map_eq_some_iff.mp moved
      cases paging <;> exact { tracked with }

/-- **In every run** the page tracks what it was told of. -/
theorem tracked_of_reached (reached : (badge user).ReachedWithin Matches inbox) :
    Tracked user inbox := by
  refine reached.invariant ?_ ?_
  · exact fun _ opened => tracked_of_opened opened
  · exact fun _ _ _ tracked fits moved => tracked.step fits moved

/-- **Once nothing is in flight** and the last count was loaded, the count and the flags of the
list are the server's. -/
def Converged (user : UserId) (inbox : Inbox) : Prop :=
  inbox.Idle → inbox.counted = true →
    inbox.store.unreadCount = unreadCount user inbox.table ∧
      ∀ listed ∈ inbox.store.notifications, ∃ row ∈ inbox.table.rows,
        row.userId = user ∧ row.id = listed.id ∧ row.unread = listed.unread

/-- **The badge converges** in every run whose absolute answers agree with what the tab has been
told. -/
theorem badge_converges (reached : (badge user).ReachedWithin Matches inbox) :
    Converged user inbox := by
  intro idle counted
  have tracked := tracked_of_reached reached
  have told : ∀ id, id ∈ inbox.told ↔ id ∈ inbox.table.idsOf user := by
    intro id
    have rows := tracked.rows id
    rw [idle.frames, List.map_nil, List.append_nil] at rows
    exact rows
  have read : ∀ row ∈ inbox.table.rows, row.userId = user →
      (row.unread = true ↔ row.id ∉ inbox.reported) := by
    intro row present owned
    constructor
    · intro unread before
      obtain ⟨other, among, same, isRead | ⟨_, nothing, _⟩⟩ := tracked.reported row.id before
      · rw [eq_of_id among present same, unread] at isRead
        cases isRead
      · cases nothing
    · intro absent
      by_contra isRead
      rcases tracked.heard row present owned (Bool.eq_false_of_not_eq_true isRead) with
        before | ⟨mark, among, _⟩
      · exact absent before
      · rw [idle.marks] at among
        cases among
  constructor
  · rw [tracked.count counted, unreadCount]
    refine List.Perm.length_eq ?_
    rw [List.perm_ext_iff_of_nodup tracked.unreadTold_nodup (unreadIds_nodup user inbox.table)]
    intro id
    rw [mem_unreadTold, told, mem_idsOf, mem_unreadIds]
    constructor
    · intro ⟨⟨row, present, owned, same⟩, absent⟩
      exact ⟨row, present, ⟨owned, (read row present owned).mpr (same ▸ absent)⟩, same⟩
    · intro ⟨row, present, ⟨owned, unread⟩, same⟩
      exact ⟨⟨row, present, owned, same⟩, same ▸ (read row present owned).mp unread⟩
  · intro listed member
    obtain ⟨among, agrees⟩ := tracked.listed listed member
    obtain ⟨row, present, owned, same⟩ := mem_idsOf.mp ((told listed.id).mp among)
    refine ⟨row, present, owned, same, ?_⟩
    rw [Bool.eq_iff_iff, agrees, read row present owned, same]

/-! ## An announcement and a count -/

def blank : Inbox where
  table := ⟨[], .nil⟩
  frames := []
  store := ⟨[], none, 0, false, false, false, false⟩
  marks := []
  counting := none
  pages := fun _ => none
  counted := false
  told := []
  reported := []

theorem blank_opened : (badge 7).Initial blank :=
  ⟨⟨rfl, rfl, rfl, fun _ => rfl⟩, rfl, rfl, rfl, rfl⟩

def Inbox.isIdle (inbox : Inbox) : Bool :=
  inbox.frames.isEmpty && inbox.marks.isEmpty && inbox.counting.isNone &&
    (inbox.pages .first).isNone && (inbox.pages .more).isNone

/-- The test of idleness is right. -/
theorem idle_of_isIdle (quiet : inbox.isIdle = true) : inbox.Idle := by
  simp only [Inbox.isIdle, Bool.and_eq_true, List.isEmpty_iff, Option.isNone_iff_eq_none] at quiet
  obtain ⟨⟨⟨⟨frames, marks⟩, counting⟩, first⟩, more⟩ := quiet
  refine ⟨frames, marks, counting, ?_⟩
  intro paging
  cases paging with
  | first => exact first
  | more => exact more

/-- Two notifications, the count, and one of them marked as read. -/
theorem badge_converges_in_turn : ∃ inbox : Inbox, inbox.Idle ∧ inbox.counted = true ∧
    inbox.store.unreadCount = 1 ∧ Converged 7 inbox := by
  obtain ⟨inbox, reached, shape⟩ := TransitionSystem.exists_reachedWithin_of_run Matches
    blank_opened
    [.created ⟨uuidOf 1, 7, none, 0⟩, .created ⟨uuidOf 2, 7, none, 1⟩, .announced 0, .announced 0,
      .loadUnreadCount, .countRead, .countLoaded, .mark (.markRead (uuidOf 2)), .executed 0 5,
      .committed 0, .marked 0 6]
    (fun inbox => inbox.isIdle && inbox.counted && decide (inbox.store.unreadCount = 1))
    (by decide +kernel)
  simp only [Bool.and_eq_true, decide_eq_true_iff] at shape
  exact ⟨inbox, idle_of_isIdle shape.1.1, shape.1.2, shape.2, badge_converges reached⟩

/-- A count that the notification is part of is taken in before its announcement: it counts
twice. -/
theorem badge_counts_twice :
    ¬ ∀ inbox, (badge 7).Reachable inbox → Converged 7 inbox := by
  intro converged
  obtain ⟨inbox, reached, shape⟩ := TransitionSystem.exists_reachable_of_run blank_opened
    [.created ⟨uuidOf 1, 7, none, 0⟩, .loadUnreadCount, .countRead, .countLoaded, .announced 0]
    (fun inbox => inbox.isIdle && inbox.counted &&
      !decide (inbox.store.unreadCount = unreadCount 7 inbox.table)) (by decide +kernel)
  simp only [Bool.and_eq_true, Bool.not_eq_true', decide_eq_false_iff_not] at shape
  exact shape.2 (converged inbox reached (idle_of_isIdle shape.1.1) shape.1.2).1

end FrontDashboard.Notifications
