import FrontDashboard.Notifications.Walk

/-! # The walk is complete

A notification only comes down in the order: from the unread section into the read one.
So as long as no page has shown it, it is ahead of where the walk stands. A page that was asked
for before the list began anew leaves out what lies between.
-/

namespace FrontDashboard.Notifications

open Keyset

variable {user : UserId} {walk next : Walk} {action : Action} {id : Uuid} {paging : Paging}
  {inbox : Inbox}

/-! ## What a step can do -/

/-- The notification comes down at most. -/
def Table.Keeps (user : UserId) (id : Uuid) (table after : Table) : Prop :=
  ∀ row ∈ table.rowsOf user, row.id = id →
    ∃ lower ∈ after.rowsOf user, lower.id = id ∧ lower.place ≤ row.place

theorem Table.keeps_refl (table : Table) : table.Keeps user id table :=
  fun row present same => ⟨row, present, same, le_rfl⟩

/-- When a row is added, the others stay. -/
theorem keeps_insert {table after : Table} {row : Notification}
    (inserted : table.insert row = some after) : table.Keeps user id after := by
  unfold Table.insert at inserted
  split at inserted
  next fresh =>
    cases inserted
    intro other present same
    obtain ⟨listed, owned⟩ := mem_rowsOf.mp present
    exact ⟨other, mem_rowsOf.mpr ⟨List.mem_cons_of_mem _ listed, owned⟩, same, le_rfl⟩
  next => cases inserted

/-- When others are deleted, this one stays. -/
theorem keeps_delete (table : Table) {ids : List Uuid} (spared : id ∉ ids) :
    table.Keeps user id (table.delete ids) := by
  intro row present same
  obtain ⟨listed, owned⟩ := mem_rowsOf.mp present
  have stays : row ∈ (table.delete ids).rows := by
    refine List.mem_filter.mpr ⟨listed, ?_⟩
    rw [same]
    exact decide_eq_true spared
  exact ⟨row, mem_rowsOf.mpr ⟨stays, owned⟩, same, le_rfl⟩

/-- A notification that is marked as read goes to the read section. -/
theorem place_marked (write : ReadWrite) (row : Notification) :
    (row.marked write).place ≤ row.place := by
  unfold Notification.marked
  split
  · refine Prod.Lex.toLex_le_toLex'.mpr ⟨?_, fun _ => le_rfl⟩
    exact Bool.false_le _
  · exact le_rfl

/-- A mark moves a notification down at most. -/
theorem keeps_commit (table : Table) (write : ReadWrite) :
    table.Keeps user id (table.commit write) := by
  intro row present same
  obtain ⟨listed, owned⟩ := mem_rowsOf.mp present
  have marked : row.marked write ∈ (table.commit write).rows := List.mem_map_of_mem listed
  refine ⟨row.marked write, mem_rowsOf.mpr ⟨marked, ?_⟩, ?_, place_marked write row⟩
  · rw [Notification.marked_userId, owned]
  · rw [Notification.marked_id, same]

/-- A change of rows that leaves their ids leaves the ids of the store. -/
theorem ids_map {store : Store} {change : Notification → Notification}
    (keeps : ∀ row, (change row).id = row.id) :
    (store.notifications.map change).map Notification.id = store.ids := by
  rw [List.map_map]
  exact List.map_congr_left fun row _ => keeps row

/-- A mark leaves the ids of the store. -/
theorem ids_markRead (store : Store) (updated : Notification) :
    (store.markRead updated.id updated).ids = store.ids := by
  apply ids_map
  intro row
  split
  · next same => exact same.symm
  · rfl

theorem ids_markAllRead (store : Store) (now : Timestamp) :
    (store.markAllRead now).ids = store.ids := by
  apply ids_map
  intro row
  split <;> rfl

/-- Nothing of the walk moves but the rows. -/
structure Rests (walk next : Walk) : Prop where
  nextCursor : next.inbox.store.nextCursor = walk.inbox.store.nextCursor
  pages : next.pages = walk.pages
  listed : ∀ id ∈ walk.inbox.store.ids, id ∈ next.inbox.store.ids
  distinct : walk.inbox.store.ids.Nodup → next.inbox.store.ids.Nodup

/-- One fetch alone goes on. -/
structure Fetches (walk next : Walk) (paging : Paging) (load : Option PageLoad) : Prop extends
    Rests walk next where
  table : next.inbox.table = walk.inbox.table
  slot : next.inbox.pages = (walk.inbox.setPage paging load).pages

/-- The cursor that a page is asked for with. -/
def Walk.asks (walk : Walk) : Paging → Option String
  | .first => none
  | .more => walk.inbox.store.nextCursor

/-- What a step does to a walk. -/
inductive Moves (user : UserId) (walk : Walk) (action : Action) (next : Walk) : Prop
  | quiet : Rests walk next → next.inbox.pages = walk.inbox.pages → next.passed = walk.passed →
      (∀ id, ¬ action.Deletes id → walk.inbox.table.Keeps user id next.inbox.table) →
        Moves user walk action next
  | asks (paging : Paging) : Fetches walk next paging (some ⟨walk.asks paging, none⟩) →
      (paging = .more → walk.inbox.store.nextCursor ≠ none) →
        next.passed = (if paging = .more then false else walk.passed) →
          walk.inbox.pages paging = none → Moves user walk action next
  | serves (paging : Paging) (cursor : Option String) :
      walk.inbox.pages paging = some ⟨cursor, none⟩ →
        Fetches walk next paging
          (some ⟨cursor, some (listNotifications user cursor walk.inbox.table)⟩) →
        next.passed = walk.passed → Moves user walk action next
  | takes (paging : Paging) (cursor : Option String) (page : NotificationPageResponse) :
      walk.inbox.pages paging = some ⟨cursor, some (.ok page)⟩ →
        action = .event (.pageLoaded paging) →
          next = walk.follow (.pageLoaded paging) (walk.inbox.takePage paging page) →
            Moves user walk action next
  | fails (paging : Paging) : Fetches walk next paging none → next.passed = walk.passed →
      Moves user walk action next

/-- The list is as it was. -/
theorem Rests.of_ids (pages : next.pages = walk.pages)
    (nextCursor : next.inbox.store.nextCursor = walk.inbox.store.nextCursor)
    (same : next.inbox.store.ids = walk.inbox.store.ids) : Rests walk next :=
  ⟨nextCursor, pages, fun _ listed => same ▸ listed, fun once => same ▸ once⟩

/-- The same table keeps everything. -/
theorem Table.keeps_of_eq {table after : Table} (same : after = table) :
    table.Keeps user id after := by
  subst same
  exact after.keeps_refl

/-- What is announced goes on top of the list, or is listed. -/
theorem addFromSse_cases (store : Store) (row : Notification) :
    (store.addFromSse row).nextCursor = store.nextCursor ∧
      ((store.addFromSse row).ids = store.ids ∨
        row.id ∉ store.ids ∧ (store.addFromSse row).ids = row.id :: store.ids) := by
  unfold Store.addFromSse
  split
  next => exact ⟨rfl, .inl rfl⟩
  next fresh => exact ⟨rfl, .inr ⟨fresh, rfl⟩⟩

/-- A mark that is answered changes no id of the list. -/
theorem ids_answerMark (inbox : Inbox) (index : Nat) (reply : MarkReply) (now : Timestamp) :
    (inbox.answerMark index reply now).store.ids = inbox.store.ids := by
  cases reply with
  | notification updated => exact ids_markRead inbox.store updated
  | noContent covered => exact ids_markAllRead inbox.store now

/-- A mark that is executed leaves the store. -/
theorem execute_eq (inbox : Inbox) (index : Nat) (request : MarkRequest) (now : Timestamp) :
    (inbox.execute user index request now).table = inbox.table ∧
      (inbox.execute user index request now).store = inbox.store ∧
      (inbox.execute user index request now).pages = inbox.pages := by
  unfold Inbox.execute
  split <;> exact ⟨rfl, rfl, rfl⟩

/-- A page that is asked for. -/
theorem moves_of_load (asked : walk.inbox.askPage paging = some inbox) :
    Moves user walk (.event (.load paging)) (walk.follow (.load paging) inbox) := by
  unfold Inbox.askPage at asked
  split at asked
  next => cases asked
  next idle =>
    cases asked
    exact .asks .first ⟨.of_ids rfl rfl rfl, rfl, rfl⟩ (fun more => by cases more) rfl idle
  next idle =>
    obtain ⟨cursor, goes, rfl⟩ := Option.map_eq_some_iff.mp asked
    refine .asks .more ⟨.of_ids rfl rfl rfl, rfl, ?_⟩ (fun _ none => ?_) rfl idle
    · rw [Walk.asks, goes]
      rfl
    · rw [none] at goes
      cases goes

/-- **Each step** of the system is a move of the walk. -/
theorem moves_of_step (moved : walk.step user action = some next) :
    Moves user walk action next := by
  have same : ∀ id, ¬ action.Deletes id → walk.inbox.table.Keeps user id walk.inbox.table :=
    fun _ _ => walk.inbox.table.keeps_refl
  cases action with
  | markedElsewhere write =>
      cases moved
      exact .quiet (.of_ids rfl rfl rfl) rfl rfl fun _ _ => keeps_commit _ write
  | deleted ids =>
      cases moved
      exact .quiet (.of_ids rfl rfl rfl) rfl rfl fun _ spared => keeps_delete _ spared
  | event event =>
      obtain ⟨inbox, stepped, rfl⟩ := Option.map_eq_some_iff.mp moved
      cases event with
      | created row =>
          obtain ⟨-, stepped⟩ := Option.ite_none_right_eq_some.mp stepped
          obtain ⟨table, inserted, rfl⟩ := Option.map_eq_some_iff.mp stepped
          exact .quiet (.of_ids rfl rfl rfl) rfl rfl fun _ _ => keeps_insert inserted
      | announced index =>
          obtain ⟨row, -, rfl⟩ := Option.map_eq_some_iff.mp stepped
          obtain ⟨goes, listed | ⟨fresh, grown⟩⟩ := addFromSse_cases walk.inbox.store row
          · exact .quiet (.of_ids rfl goes listed) rfl rfl same
          · refine .quiet ⟨goes, rfl, fun id listed => ?_, fun once => ?_⟩ rfl rfl same
            · exact grown ▸ List.mem_cons_of_mem _ listed
            · exact grown ▸ List.nodup_cons.mpr ⟨fresh, once⟩
      | mark request =>
          cases stepped
          exact .quiet (.of_ids rfl rfl rfl) rfl rfl same
      | executed index now =>
          simp only [Inbox.step] at stepped
          split at stepped
          next request found =>
            cases stepped
            obtain ⟨table, store, pages⟩ := @execute_eq user walk.inbox index request now
            refine .quiet (.of_ids rfl ?_ ?_) pages rfl fun _ _ => Table.keeps_of_eq table
            · exact congrArg Store.nextCursor store
            · exact congrArg Store.ids store
          next => cases stepped
      | committed index =>
          simp only [Inbox.step] at stepped
          split at stepped
          next request reply write found =>
            cases stepped
            refine .quiet (.of_ids rfl rfl rfl) rfl rfl fun _ _ => ?_
            cases write with
            | none => exact walk.inbox.table.keeps_refl
            | some write => exact keeps_commit _ write
          next => cases stepped
      | marked index now =>
          simp only [Inbox.step] at stepped
          split at stepped
          next request reply found =>
            cases stepped
            refine .quiet (.of_ids rfl ?_ (ids_answerMark _ _ _ _)) rfl rfl same
            cases reply <;> rfl
          next => cases stepped
      | markFailed index =>
          obtain ⟨_, -, rfl⟩ := Option.map_eq_some_iff.mp stepped
          exact .quiet (.of_ids rfl rfl rfl) rfl rfl same
      | loadUnreadCount | countRead | countLoaded | countFailed =>
          simp only [Inbox.step] at stepped
          split at stepped <;> cases stepped
          exact .quiet (.of_ids rfl rfl rfl) rfl rfl same
      | load paging => exact moves_of_load stepped
      | pageRead paging =>
          simp only [Inbox.step] at stepped
          split at stepped
          next cursor found =>
            cases stepped
            exact .serves paging cursor found ⟨.of_ids rfl rfl rfl, rfl, rfl⟩ rfl
          next => cases stepped
      | pageLoaded paging =>
          simp only [Inbox.step] at stepped
          split at stepped
          next cursor page found =>
            cases stepped
            exact .takes paging cursor page found rfl rfl
          next => cases stepped
      | pageFailed paging =>
          obtain ⟨load, -, rfl⟩ := Option.map_eq_some_iff.mp stepped
          refine .fails paging ⟨.of_ids rfl ?_ ?_, rfl, rfl⟩ rfl
          · cases paging <;> rfl
          · cases paging <;> rfl

/-! ## Where the walk stands -/

/-- Below the last page that came. -/
def Walk.stand (walk : Walk) : Stand Place :=
  Stand.left (walk.inbox.store.nextCursor.bind placeOf)

/-- A page that is answered to a cursor leaves the walk lower than that. -/
structure Lowers (cursor : Option String) (page : NotificationPageResponse) : Prop where
  issued : ∀ text ∈ page.nextCursor, Issued text
  lower : Stand.left (page.nextCursor.bind placeOf) < Stand.asked (cursor.bind placeOf)
  distinct : (page.items.map Notification.id).Nodup

/-- **The server** answers its own cursors with pages that lie lower. -/
theorem lowers_of_issued {cursor : Option String} (issued : ∀ text ∈ cursor, Issued text)
    (user : UserId) (table : Table) :
    ∃ page, listNotifications user cursor table = .ok page ∧ Lowers cursor page := by
  refine ⟨_, listNotifications_eq_answer issued user table, ?_⟩
  obtain ⟨goes, written⟩ := answer_nextCursor
    (found Notification.place pageLimit (cursor.bind placeOf) (table.rowsOf user))
  refine ⟨written, ?_, ?_⟩
  · rw [goes]
    exact left_lt_asked
  · exact page_nodup (table.distinct.sublist (List.filter_sublist.map Notification.id))

/-- What is asked for with a cursor begins where the last page ended. -/
theorem asked_eq_left {text : String} (issued : Issued text) :
    Stand.asked ((some text).bind placeOf) = Stand.left ((some text).bind placeOf) := by
  obtain ⟨row, rfl⟩ := issued
  rw [Option.bind_some, placeOf_encodeCursor]
  rfl

/-- **What holds of every tab**: its cursors are the server's, its answers are pages, its list has
each notification once, and the next page is asked for where the list ends, unless a first page
has come since. -/
structure Sound (walk : Walk) : Prop where
  issued : ∀ text ∈ walk.inbox.store.nextCursor, Issued text
  first : ∀ load ∈ walk.inbox.pages .first, load.cursor = none
  more : ∀ load ∈ walk.inbox.pages .more, ∃ text, load.cursor = some text ∧ Issued text
  answered : ∀ paging, ∀ load ∈ walk.inbox.pages paging, ∀ result ∈ load.answer,
    ∃ page, result = .ok page ∧ Lowers load.cursor page
  distinct : walk.inbox.store.ids.Nodup
  inTurn : ∀ load ∈ walk.inbox.pages .more, walk.passed = false →
    walk.inbox.store.nextCursor = load.cursor

/-- A page is asked for with a cursor that was issued. -/
theorem Sound.of_cursor (sound : Sound walk) {load : PageLoad}
    (asked : walk.inbox.pages paging = some load) : ∀ text ∈ load.cursor, Issued text := by
  intro text given
  cases paging with
  | first =>
      rw [sound.first load asked] at given
      cases given
  | more =>
      obtain ⟨other, same, issued⟩ := sound.more load asked
      rw [same] at given
      cases given
      exact issued

/-- The slot of a fetch, and those beside it. -/
theorem Fetches.slot_eq {load : Option PageLoad} (fetches : Fetches walk next paging load)
    (other : Paging) :
    next.inbox.pages other = if other = paging then load else walk.inbox.pages other := by
  rw [fetches.slot]
  rfl

/-- A fetch that goes on with a sound load keeps the tab sound. -/
theorem sound_of_fetches {load : Option PageLoad} (sound : Sound walk)
    (fetches : Fetches walk next paging load)
    (first : paging = .first → ∀ one ∈ load, one.cursor = none)
    (more : paging = .more → ∀ one ∈ load, ∃ text, one.cursor = some text ∧ Issued text)
    (answered : ∀ one ∈ load, ∀ result ∈ one.answer, ∃ page, result = .ok page ∧
      Lowers one.cursor page)
    (inTurn : paging = .more → ∀ one ∈ load, next.passed = false →
      walk.inbox.store.nextCursor = one.cursor)
    (passed : paging = .first → next.passed = walk.passed) : Sound next := by
  have slot := fetches.slot_eq
  constructor
  case issued =>
    rw [fetches.nextCursor]
    exact sound.issued
  case first =>
    rw [slot .first]
    split
    next same => exact first same.symm
    next => exact sound.first
  case more =>
    rw [slot .more]
    split
    next same => exact more same.symm
    next => exact sound.more
  case answered =>
    intro other
    rw [slot other]
    split
    next => exact answered
    next => exact sound.answered other
  case distinct => exact fetches.distinct sound.distinct
  case inTurn =>
    rw [slot .more, fetches.nextCursor]
    split
    next same => exact inTurn same.symm
    next other =>
      cases paging with
      | first =>
          rw [passed rfl]
          exact sound.inTurn
      | more => exact absurd rfl other

/-- A page that lands brings its cursor. -/
theorem takePage_nextCursor (inbox : Inbox) (paging : Paging) (page : NotificationPageResponse) :
    (inbox.takePage paging page).store.nextCursor = page.nextCursor := by
  cases paging <;> rfl

/-- A further page appends the rows that are not there yet. -/
theorem ids_loadMore (store : Store) (page : NotificationPageResponse) :
    (store.loadMore page).ids = store.ids ++
      (page.items.filter fun row => row.id ∉ store.ids).map Notification.id :=
  List.map_append

/-- What a page shows is listed once it is taken in. -/
theorem mem_ids_takePage (inbox : Inbox) (paging : Paging) {page : NotificationPageResponse}
    (shown : id ∈ page.items.map Notification.id) :
    id ∈ (inbox.takePage paging page).store.ids := by
  cases paging with
  | first => exact shown
  | more =>
      change id ∈ (inbox.store.loadMore page).ids
      rw [ids_loadMore]
      by_cases known : id ∈ inbox.store.ids
      · exact List.mem_append_left _ known
      · obtain ⟨row, present, rfl⟩ := List.mem_map.mp shown
        exact List.mem_append_right _
          (List.mem_map_of_mem (List.mem_filter.mpr ⟨present, decide_eq_true known⟩))

/-- A page that is taken in leaves each notification listed once. -/
theorem ids_takePage_nodup {inbox : Inbox} {page : NotificationPageResponse}
    (before : inbox.store.ids.Nodup) (distinct : (page.items.map Notification.id).Nodup) :
    (inbox.takePage paging page).store.ids.Nodup := by
  cases paging with
  | first => exact distinct
  | more =>
      change (inbox.store.loadMore page).ids.Nodup
      rw [ids_loadMore]
      refine List.nodup_append.mpr ⟨before, distinct.sublist (List.filter_sublist.map _), ?_⟩
      intro listed known other fresh same
      obtain ⟨row, kept, rfl⟩ := List.mem_map.mp fresh
      exact of_decide_eq_true (List.mem_filter.mp kept).2 (same ▸ known)

/-- Following a page leaves the inbox. -/
theorem follow_inbox (walk : Walk) (event : Event) (inbox : Inbox) :
    (walk.follow event inbox).inbox = inbox := by
  unfold Walk.follow
  split <;> rfl

/-- The slot of a page that is taken in is free. -/
theorem takePage_pages (inbox : Inbox) (paging other : Paging) (page : NotificationPageResponse) :
    (inbox.takePage paging page).pages other = if other = paging then none else inbox.pages other :=
  rfl

/-- **The tab stays sound.** -/
theorem sound_of_moves (sound : Sound walk) (moves : Moves user walk action next) :
    Sound next := by
  cases moves with
  | quiet rests slots passed keeps =>
      constructor
      case issued => rw [rests.nextCursor]; exact sound.issued
      case first => rw [slots]; exact sound.first
      case more => rw [slots]; exact sound.more
      case answered => rw [slots]; exact sound.answered
      case distinct => exact rests.distinct sound.distinct
      case inTurn => rw [slots, passed, rests.nextCursor]; exact sound.inTurn
  | asks paging fetches goes passed idle =>
      refine sound_of_fetches sound fetches ?_ ?_ ?_ ?_ ?_
      · rintro rfl _ ⟨⟩
        rfl
      · rintro rfl _ ⟨⟩
        obtain ⟨text, given⟩ := Option.ne_none_iff_exists'.mp (goes rfl)
        exact ⟨text, given, sound.issued text given⟩
      · rintro _ ⟨⟩ result ⟨⟩
      · rintro rfl _ ⟨⟩ _
        rfl
      · rintro rfl
        exact passed
  | serves paging cursor asked fetches passed =>
      refine sound_of_fetches sound fetches ?_ ?_ ?_ ?_ fun _ => passed
      · rintro rfl _ ⟨⟩
        exact sound.first ⟨cursor, none⟩ asked
      · rintro rfl _ ⟨⟩
        exact sound.more ⟨cursor, none⟩ asked
      · rintro _ ⟨⟩ result ⟨⟩
        exact lowers_of_issued (sound.of_cursor asked) user walk.inbox.table
      · rintro rfl _ ⟨⟩ turn
        exact sound.inTurn ⟨cursor, none⟩ asked (passed ▸ turn)
  | takes paging cursor page answered _ same =>
      obtain ⟨_, result, lowers⟩ := sound.answered paging _ answered _ rfl
      cases result
      subst same
      have slot := takePage_pages walk.inbox paging
      constructor
      case issued =>
        rw [follow_inbox, takePage_nextCursor]
        exact lowers.issued
      case first =>
        rw [follow_inbox, slot .first page]
        split
        next => rintro _ ⟨⟩
        next => exact sound.first
      case more =>
        rw [follow_inbox, slot .more page]
        split
        next => rintro _ ⟨⟩
        next => exact sound.more
      case answered =>
        intro other
        rw [follow_inbox, slot other page]
        split
        next => rintro _ ⟨⟩
        next => exact sound.answered other
      case distinct =>
        rw [follow_inbox]
        exact ids_takePage_nodup sound.distinct lowers.distinct
      case inTurn =>
        rw [follow_inbox, slot .more page]
        cases paging with
        | first => exact fun load _ turn => by cases turn
        | more => rintro _ ⟨⟩
  | fails paging fetches passed =>
      refine sound_of_fetches sound fetches ?_ ?_ ?_ ?_ fun _ => passed
      · rintro _ _ ⟨⟩
      · rintro _ _ ⟨⟩
      · rintro _ ⟨⟩
      · rintro _ _ ⟨⟩

/-- A tab opens sound. -/
theorem sound_of_opened (opened : (tab user).Initial walk) : Sound walk := by
  obtain ⟨opened, fresh, -, -⟩ := opened
  have idle := opened.idle.pages
  constructor
  case issued => rw [fresh]; rintro _ ⟨⟩
  case first => rw [idle]; rintro _ ⟨⟩
  case more => rw [idle]; rintro _ ⟨⟩
  case answered => intro paging; rw [idle]; rintro _ ⟨⟩
  case distinct => rw [Store.ids, opened.notifications]; exact List.nodup_nil
  case inTurn => rw [idle]; rintro _ ⟨⟩

/-- **The walk** never goes up before a first page comes anew, and down with every page that it
takes in. -/
theorem stand_of_moves (sound : Sound walk) (moves : Moves user walk action next)
    (admits : Admits walk action) (continues : ¬ action.Restarts) :
    next.stand ≤ walk.stand ∧ (next.pages = walk.pages ∨ next.stand < walk.stand) := by
  have still : ∀ {other : Walk}, Rests walk other → other.stand = walk.stand := fun rests => by
    rw [Walk.stand, Walk.stand, rests.nextCursor]
  cases moves with
  | quiet rests => exact ⟨(still rests).le, .inl rests.pages⟩
  | asks _ fetches | serves _ _ _ fetches | fails _ fetches =>
      exact ⟨(still fetches.toRests).le, .inl fetches.pages⟩
  | takes paging cursor page answered acts same =>
      subst acts same
      cases paging with
      | first => exact absurd trivial continues
      | more =>
          obtain ⟨_, result, lowers⟩ := sound.answered .more _ answered _ rfl
          cases result
          obtain ⟨text, asked, issued⟩ := sound.more _ answered
          have turn := sound.inTurn _ answered admits
          have lower : (walk.follow (.pageLoaded .more) (walk.inbox.takePage .more page)).stand <
              walk.stand := by
            have below := lowers.lower
            dsimp only at asked turn
            rw [asked, asked_eq_left issued, ← asked, ← turn] at below
            exact below
          exact ⟨lower.le, .inr lower⟩

/-! ## Every notification is shown or ahead -/

/-- A page of the walk has shown the notification, and it is listed. -/
def Shown (id : Uuid) (walk : Walk) : Prop :=
  (∃ pages ∈ walk.pages, ∃ page ∈ pages, id ∈ page.items.map Notification.id) ∧
    id ∈ walk.inbox.store.ids

/-- The user's notification is to come below a place. -/
def ToCome (user : UserId) (id : Uuid) (stand : Stand Place) (table : Table) : Prop :=
  ∃ row ∈ table.rowsOf user, row.id = id ∧ Ahead Notification.place stand row

/-- A page shows the notification, or leaves it to come. -/
def Reaches (user : UserId) (id : Uuid) (page : NotificationPageResponse) (table : Table) : Prop :=
  id ∈ page.items.map Notification.id ∨
    ToCome user id (Stand.left (page.nextCursor.bind placeOf)) table

/-- **The notification is accounted for**: it is there, a first page that is under way reaches it,
and on a walk it is shown or to come, as it is from a next page that was asked for in turn. -/
structure Accounted (user : UserId) (id : Uuid) (walk : Walk) : Prop where
  present : ∃ row ∈ walk.inbox.table.rowsOf user, row.id = id
  first : ∀ load ∈ walk.inbox.pages .first, ∀ page, load.answer = some (.ok page) →
    Reaches user id page walk.inbox.table
  walked : walk.pages.isSome → Shown id walk ∨ ToCome user id walk.stand walk.inbox.table
  more : walk.pages.isSome → walk.passed = false → ∀ load ∈ walk.inbox.pages .more,
    ∀ page, load.answer = some (.ok page) → Shown id walk ∨ Reaches user id page walk.inbox.table

/-- A row is still to come while the table keeps it. -/
theorem ToCome.keep {stand : Stand Place} {table after : Table}
    (toCome : ToCome user id stand table) (keeps : table.Keeps user id after) :
    ToCome user id stand after := by
  obtain ⟨row, present, same, ahead⟩ := toCome
  obtain ⟨lower, stays, sameId, below⟩ := keeps row present same
  exact ⟨lower, stays, sameId, ahead.of_le below⟩

/-- A page still reaches the row while the table keeps it. -/
theorem Reaches.keep {page : NotificationPageResponse} {table after : Table}
    (reaches : Reaches user id page table) (keeps : table.Keeps user id after) :
    Reaches user id page after :=
  reaches.imp_right fun toCome => toCome.keep keeps

/-- A row that is shown stays so. -/
theorem Shown.keep (shown : Shown id walk) (rests : Rests walk next) : Shown id next := by
  rw [Shown, rests.pages]
  exact ⟨shown.1, rests.listed id shown.2⟩

/-- **A page reaches** a notification that is ahead of its cursor. -/
theorem reaches_of_served {cursor : Option String} {table : Table}
    {page : NotificationPageResponse} (issued : ∀ text ∈ cursor, Issued text)
    (served : listNotifications user cursor table = .ok page)
    (toCome : ToCome user id (Stand.asked (cursor.bind placeOf)) table) :
    Reaches user id page table := by
  rw [listNotifications_eq_answer issued] at served
  cases served
  obtain ⟨row, present, rfl, ahead⟩ := toCome
  rcases mem_page_or_ahead (show 0 < pageLimit by decide) (rowsOf_distinct table user) present
    ahead with onPage | below
  · exact .inl (List.mem_map_of_mem onPage)
  · refine .inr ?_
    rw [(answer_nextCursor _).1]
    exact ⟨row, present, rfl, below⟩

/-- Where the rows stay and one fetch goes on, that fetch alone has to be accounted for. -/
theorem Accounted.fetch {load : Option PageLoad} (accounted : Accounted user id walk)
    (fetches : Fetches walk next paging load)
    (first : paging = .first → ∀ one ∈ load, ∀ page, one.answer = some (.ok page) →
      Reaches user id page walk.inbox.table)
    (more : paging = .more → walk.pages.isSome → next.passed = false → ∀ one ∈ load, ∀ page,
      one.answer = some (.ok page) → Shown id walk ∨ Reaches user id page walk.inbox.table)
    (passed : paging = .first → next.passed = walk.passed) : Accounted user id next := by
  have slot := fetches.slot_eq
  constructor
  case present =>
    rw [fetches.table]
    exact accounted.present
  case first =>
    rw [fetches.table, slot .first]
    split
    next same => exact first same.symm
    next => exact accounted.first
  case walked =>
    rw [fetches.pages, fetches.table, Walk.stand, fetches.nextCursor]
    exact fun begun => (accounted.walked begun).imp_left fun shown => shown.keep fetches.toRests
  case more =>
    rw [fetches.pages, fetches.table, slot .more]
    intro begun turn one holds page answered
    have reached : Shown id walk ∨ Reaches user id page walk.inbox.table := by
      split at holds
      next same => exact more same.symm begun turn one holds page answered
      next other =>
        have still : next.passed = walk.passed := by
          cases paging with
          | first => exact passed rfl
          | more => exact absurd rfl other
        exact accounted.more begun (still ▸ turn) one holds page answered
    exact reached.imp_left fun shown => shown.keep fetches.toRests

/-- **A step** that does not delete the notification, and takes in no page out of turn, accounts
for it. -/
theorem accounted_of_moves (sound : Sound walk) (accounted : Accounted user id walk)
    (moves : Moves user walk action next) (admits : Admits walk action)
    (spared : ¬ action.Deletes id) : Accounted user id next := by
  cases moves with
  | quiet rests slots passed keeps =>
      have keeps := keeps id spared
      constructor
      case present =>
        obtain ⟨row, present, same⟩ := accounted.present
        obtain ⟨lower, stays, sameId, _⟩ := keeps row present same
        exact ⟨lower, stays, sameId⟩
      case first =>
        rw [slots]
        exact fun load asked page answered => (accounted.first load asked page answered).keep keeps
      case walked =>
        rw [rests.pages, Walk.stand, rests.nextCursor]
        exact fun begun => (accounted.walked begun).imp (·.keep rests) (·.keep keeps)
      case more =>
        rw [rests.pages, slots, passed]
        exact fun begun turn load asked page answered =>
          (accounted.more begun turn load asked page answered).imp (·.keep rests) (·.keep keeps)
  | asks paging fetches goes passed idle =>
      refine accounted.fetch fetches ?_ ?_ fun first => ?_
      · rintro rfl _ ⟨⟩ page ⟨⟩
      · rintro rfl _ _ _ ⟨⟩ page ⟨⟩
      · rw [passed, first]
        rfl
  | serves paging cursor asked fetches passed =>
      refine accounted.fetch fetches ?_ ?_ fun _ => passed
      · rintro rfl _ ⟨⟩ page answered
        obtain ⟨row, present, same⟩ := accounted.present
        have top : cursor = none := sound.first ⟨cursor, none⟩ asked
        subst top
        refine reaches_of_served (fun _ none => by cases none) (Option.some.inj answered) ?_
        exact ⟨row, present, same, ahead_asked.mpr rfl⟩
      · rintro rfl begun turn _ ⟨⟩ page answered
        refine (accounted.walked begun).imp_right fun toCome => ?_
        obtain ⟨text, given, issued⟩ := sound.more ⟨cursor, none⟩ asked
        have stands := sound.inTurn ⟨cursor, none⟩ asked (passed ▸ turn)
        dsimp only at given stands
        subst given
        refine reaches_of_served (sound.of_cursor asked) (Option.some.inj answered) ?_
        rw [asked_eq_left issued, ← stands]
        exact toCome
  | takes paging cursor page answered acts same =>
      subst acts same
      have table : (walk.inbox.takePage paging page).table = walk.inbox.table := rfl
      have reached : walk.pages.isSome ∨ paging = .first →
          Shown id (walk.follow (.pageLoaded paging) (walk.inbox.takePage paging page)) ∨
            ToCome user id (Stand.left (page.nextCursor.bind placeOf)) walk.inbox.table := by
        intro begun
        have landed : walk.landing paging = [page] := by
          rw [Walk.landing, answered]
        cases paging with
        | first =>
            refine (accounted.first _ answered page rfl).imp_left fun onPage => ⟨?_, onPage⟩
            exact ⟨_, rfl, page, landed ▸ List.mem_cons_self, onPage⟩
        | more =>
            have begun := begun.resolve_right fun impossible => by cases impossible
            obtain ⟨earlier, taken⟩ := Option.isSome_iff_exists.mp begun
            have grown : (walk.follow (.pageLoaded .more) (walk.inbox.takePage .more page)).pages =
                some (earlier ++ [page]) := by
              rw [Walk.follow, taken, landed]
              rfl
            rcases accounted.more begun admits _ answered page rfl with shown | onPage | toCome
            · obtain ⟨⟨pages, among, other, member, shows⟩, listed⟩ := shown
              cases taken.symm.trans among
              refine .inl ⟨⟨_, grown, other, List.mem_append_left _ member, shows⟩, ?_⟩
              change id ∈ (walk.inbox.store.loadMore page).ids
              rw [ids_loadMore]
              exact List.mem_append_left _ listed
            · refine .inl ⟨⟨_, grown, page, ?_, onPage⟩, mem_ids_takePage walk.inbox .more onPage⟩
              exact List.mem_append_right _ List.mem_cons_self
            · exact .inr toCome
      have slot := takePage_pages walk.inbox paging
      constructor
      case present =>
        rw [follow_inbox]
        exact accounted.present
      case first =>
        rw [follow_inbox, slot .first page]
        split
        next => rintro _ ⟨⟩
        next => exact accounted.first
      case walked =>
        intro begun
        rw [Walk.stand, follow_inbox, takePage_nextCursor]
        refine reached ?_
        cases paging with
        | first => exact .inr rfl
        | more => exact .inl (by simpa [Walk.follow] using begun)
      case more =>
        rw [follow_inbox, slot .more page]
        cases paging with
        | first => exact fun _ turn => by cases turn
        | more => rintro _ _ _ ⟨⟩
  | fails paging fetches passed =>
      refine accounted.fetch fetches ?_ ?_ fun _ => passed
      · rintro _ _ ⟨⟩
      · rintro _ _ _ _ ⟨⟩

/-- A walk that has ended has nothing to come. -/
theorem shown_of_ended (accounted : Accounted user id walk) (ended : walk.Ended) :
    Shown id walk := by
  refine (accounted.walked ended.1).resolve_right ?_
  rintro ⟨row, _, _, ahead⟩
  rw [Walk.stand, ended.2] at ahead
  exact not_lt_bot ahead

/-! ## Runs -/

variable {start : Walk}

/-- **In every run** the walk is sound. -/
theorem sound_of_reachable (reached : (tab user).Reachable walk) : Sound walk := by
  refine reached.invariant (fun _ => sound_of_opened) ?_
  intro walk action next sound _ moved
  exact sound_of_moves sound (moves_of_step moved)

/-- A walk that is begun anew is sound. -/
theorem Sound.anew (sound : Sound walk) : Sound walk.anew :=
  ⟨sound.issued, sound.first, sound.more, sound.answered, sound.distinct, sound.inTurn⟩

/-- A walk that goes on is sound. -/
theorem sound_of_walking {guard : Walk → Action → Prop} (sound : Sound start)
    (reached : (walking user start).ReachedWithin guard walk) : Sound walk := by
  refine reached.invariant ?_ ?_
  · rintro _ rfl
    exact sound.anew
  · intro walk action next sound _ moved
    exact sound_of_moves sound (moves_of_step moved)

/-- In the beginning every row is to come. -/
theorem accounted_of_begins {row : Notification} (begins : walk.Begins)
    (present : row ∈ walk.inbox.table.rowsOf user) : Accounted user row.id walk.anew := by
  have asks : walk.anew.inbox.pages .first = some ⟨none, none⟩ := begins
  constructor
  case present => exact ⟨row, present, rfl⟩
  case first =>
    rw [asks]
    rintro _ ⟨⟩ page ⟨⟩
  case walked => exact fun begun => by cases begun
  case more => exact fun begun => by cases begun

/-- A step that takes pages in turn and spares a notification. -/
def Spares (id : Uuid) (walk : Walk) (action : Action) : Prop :=
  Admits walk action ∧ ¬ action.Deletes id

instance (id : Uuid) (walk : Walk) (action : Action) : Decidable (Spares id walk action) :=
  inferInstanceAs (Decidable (_ ∧ _))

/-- A notification that is spared is accounted for when pages are taken in turn. -/
theorem accounted_of_walking (sound : Sound start) (begins : start.Begins) {row : Notification}
    (present : row ∈ start.inbox.table.rowsOf user)
    (reached : (walking user start).ReachedWithin (Spares row.id) walk) :
    Accounted user row.id walk := by
  refine reached.invariant_of (fun walk within => sound_of_walking sound within) ?_ ?_
  · rintro _ rfl
    exact accounted_of_begins begins present
  · intro walk action next sound _ accounted spares moved
    exact accounted_of_moves sound accounted (moves_of_step moved) spares.1 spares.2

/-- **Paging is complete** where pages land in turn. Whatever a tab has done before it asks for a
first page, in every run from there the server accepts each cursor; pages are taken in finitely
often once no first page comes anew; and when no cursor is left, every notification that was there
when the first page was asked for and has not been deleted has been on a page of the walk and is in
the list once. -/
theorem paging_complete (user : UserId) (start : Walk) (opened : (tab user).Reachable start)
    (begins : start.Begins) :
    (∀ walk, (walking user start).Reachable walk → ∀ paging, ∀ load ∈ walk.inbox.pages paging,
      ∀ result ∈ load.answer, ∃ page, result = .ok page) ∧
    (∀ (walks : ℕ → Walk) (actions : ℕ → Action) (begun : ℕ), walks 0 = start.anew →
      (∀ time, Admits (walks time) (actions time) ∧
        (walks time).step user (actions time) = some (walks (time + 1))) →
      (∀ time, begun ≤ time → ¬ (actions time).Restarts) →
        ∃ last, ∀ time, last ≤ time → (walks (time + 1)).pages = (walks time).pages) ∧
    (∀ row ∈ start.inbox.table.rows, row.userId = user → ∀ walk,
      (walking user start).ReachedWithin (Spares row.id) walk → walk.Ended →
        (∃ pages ∈ walk.pages, ∃ page ∈ pages, row.id ∈ page.items.map Notification.id) ∧
          (walk.inbox.store.notifications.map Notification.id).count row.id = 1) := by
  have sound := sound_of_reachable opened
  refine ⟨?_, ?_, ?_⟩
  · intro walk reached paging load asked result answered
    obtain ⟨page, ok, _⟩ :=
      (sound_of_walking sound reached).answered paging load asked result answered
    exact ⟨page, ok⟩
  · intro walks actions begun first moves continues
    have sounds : ∀ time, Sound (walks time) := by
      intro time
      induction time with
      | zero => exact first ▸ sound.anew
      | succ time ih => exact sound_of_moves ih (moves_of_step (moves time).2)
    have falls := fun time => stand_of_moves (sounds (begun + time))
      (moves_of_step (moves (begun + time)).2) (moves (begun + time)).1
      (continues (begun + time) (Nat.le_add_right _ _))
    have antitone : ∀ time, (walks (begun + (time + 1))).stand ≤ (walks (begun + time)).stand :=
      fun time => (falls time).1
    obtain ⟨last, still⟩ :=
      @eventually_still Place _ _ (fun time => (walks (begun + time)).stand) antitone
    refine ⟨begun + last, fun time later => ?_⟩
    obtain ⟨more, rfl⟩ := Nat.exists_eq_add_of_le (Nat.le_of_add_right_le later)
    have after : last ≤ more := Nat.le_of_add_le_add_left later
    refine (falls more).2.resolve_right ?_
    have here := still more after
    have there := still (more + 1) (Nat.le_succ_of_le after)
    change (walks (begun + more + 1)).stand = _ at there

    rw [here, there]
    exact lt_irrefl _
  · intro row present owned walk reached ended
    have accounted := accounted_of_walking sound begins (mem_rowsOf.mpr ⟨present, owned⟩) reached
    obtain ⟨onPage, listed⟩ := shown_of_ended accounted ended
    have once := (sound_of_walking sound reached).distinct
    exact ⟨onPage, List.count_eq_one_of_mem once listed⟩

/-! Fifty-one notifications, and one that comes while the second page is fetched. The list begins
anew above it, and the page that was asked for before leaves out the row between the two. -/

/-- A notification that is told from others by its two last digits. -/
def numbered (sixteens units : Fin 16) : Notification where
  id := ⟨List.replicate 30 0 ++ [sixteens, units], by simp⟩
  userId := 7
  readAt := none
  createdAt := 0

def fiftyOne : List Notification :=
  [numbered 3 2, numbered 3 1, numbered 3 0] ++ (List.finRange 16).reverse.map (numbered 2) ++
    (List.finRange 16).reverse.map (numbered 1) ++ (List.finRange 16).reverse.map (numbered 0)

def openedOn (table : Table) : Walk where
  inbox :=
    { table
      frames := []
      store := ⟨[], none, 0, false, false, false, false⟩
      marks := []
      counting := none
      pages := fun _ => none
      counted := false
      told := table.idsOf 7
      reported := (table.rows.filter fun row => !row.unread).map Notification.id }
  pages := none
  passed := false

theorem tab_initial (table : Table) : (tab 7).Initial (openedOn table) :=
  ⟨⟨⟨rfl, rfl, rfl, fun _ => rfl⟩, rfl, rfl, rfl, rfl⟩, rfl, rfl, rfl⟩

def full : Table where
  rows := fiftyOne
  distinct := by decide +kernel

/-- Up to where the list begins anew: the second page is asked for, and a notification comes. -/
def beginning : List Action :=
  [.event (.load .first), .event (.pageRead .first), .event (.pageLoaded .first),
    .event (.load .more), .event (.created (numbered 3 3)), .event (.load .first)]

/-- The first page of the new list comes before the second one of the old list. -/
def crossing : List Action :=
  [.event (.pageRead .first), .event (.pageLoaded .first), .event (.pageRead .more),
    .event (.pageLoaded .more)]

/-- **A page out of turn** loses a notification: the walk has ended, and it is not in the list. -/
theorem page_out_of_turn_loses : ∃ start walk : Walk, (tab 7).Reachable start ∧ start.Begins ∧
    numbered 0 1 ∈ start.inbox.table.rows ∧
      (walking 7 start).ReachedWithin (fun _ action => ¬ action.Deletes (numbered 0 1).id) walk ∧
        walk.Ended ∧ (numbered 0 1).id ∉ walk.inbox.store.notifications.map Notification.id := by
  have ends : ((tab 7).run (fun _ _ => True) (openedOn full) beginning).any (fun start =>
      decide (start.Begins ∧ numbered 0 1 ∈ start.inbox.table.rows) &&
        ((walking 7 start).run (fun _ action => ¬ action.Deletes (numbered 0 1).id) start.anew
          crossing).any fun walk => decide ((walk.pages.isSome ∧
            walk.inbox.store.nextCursor = none) ∧
              (numbered 0 1).id ∉ walk.inbox.store.notifications.map Notification.id)) = true := by
    decide +kernel
  obtain ⟨start, reached, passes⟩ :=
    TransitionSystem.exists_reachable_of_run (tab_initial full) beginning _ ends
  obtain ⟨begins, ends⟩ := Bool.and_eq_true_iff.mp passes
  obtain ⟨begins, present⟩ := of_decide_eq_true begins
  have initial : (walking 7 start).Initial start.anew := rfl
  obtain ⟨walk, within, lost⟩ :=
    TransitionSystem.exists_reachedWithin_of_run _ initial crossing _ ends
  obtain ⟨ended, lost⟩ := of_decide_eq_true lost
  exact ⟨start, walk, reached, begins, present, within, ended, lost⟩

/-! Two notifications of one moment, the second of which is read while the page is fetched. -/

def tied : Table where
  rows := [numbered 0 1, numbered 0 2]
  distinct := by decide

/-- A row among others of its time, at the end of a page, is shown once. -/
theorem paging_complete_tied : ∃ start walk : Walk, (tab 7).Reachable start ∧
    (walking 7 start).Reachable walk ∧
      (walk.inbox.store.notifications.map Notification.id).count (numbered 0 2).id = 1 ∧
        walk.inbox.store.notifications.length = 2 := by
  have ends : ((tab 7).run (fun _ _ => True) (openedOn tied) [.event (.load .first)]).any
      (fun start => decide (start.Begins ∧ numbered 0 2 ∈ start.inbox.table.rows) &&
        ((walking 7 start).run (Spares (numbered 0 2).id) start.anew
          [.event (.mark (.markRead (numbered 0 2).id)), .event (.executed 0 5),
            .event (.pageRead .first), .event (.committed 0), .event (.pageLoaded .first)]).any
              fun walk => decide ((walk.pages.isSome ∧ walk.inbox.store.nextCursor = none) ∧
                walk.inbox.store.notifications.length = 2)) = true := by
    decide +kernel
  obtain ⟨start, reached, passes⟩ :=
    TransitionSystem.exists_reachable_of_run (tab_initial tied) _ _ ends
  obtain ⟨begins, ends⟩ := Bool.and_eq_true_iff.mp passes
  obtain ⟨begins, present⟩ := of_decide_eq_true begins
  have initial : (walking 7 start).Initial start.anew := rfl
  obtain ⟨walk, within, passes⟩ := TransitionSystem.exists_reachedWithin_of_run _ initial _ _ ends
  obtain ⟨ended, length⟩ := of_decide_eq_true passes
  have complete := (paging_complete 7 start reached begins).2.2 (numbered 0 2) present rfl walk
    within ended
  exact ⟨start, walk, reached, within.reachable, complete.2, length⟩

end FrontDashboard.Notifications
