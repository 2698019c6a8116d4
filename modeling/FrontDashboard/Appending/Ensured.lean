import FrontDashboard.Appending.Moves

/-! # Every route, among the others

The record of an appended row is true to what was read for it: under the lock of the
parent the rows beside the new one are among those read, unless some were moved since.
-/

namespace FrontDashboard.Appending

open ReadCommitted ReadCommitted.Program
open Boards (DashboardId ListId UserId WidgetCreate)
open FrontDashboard.Lists (ItemReorder)
open Lists.Page (appendOrder)
open FrontDashboard.Membership (EffectiveRole Time effectiveRole)

/-- The record of an appended row, as the locks leave it. -/
structure Appended.Recorded (entry : Appended) : Prop where
  drawn : entry.order = appendOrder entry.seen
  among : entry.disturbed = false → entry.others ⊆ entry.seen
  locked : ∀ list, entry.parent = .list list → entry.disturbed = false

def interference : Interference Tables Lock where
  invariant := fun tables => ∀ entry ∈ tables.appended, entry.Recorded
  rely := Undisturbed
  refl := Undisturbed.refl
  trans := fun _ _ _ _ => Undisturbed.trans

/-! ## Commits -/

/-- A write that appends nothing, and that renumbers items under the lock of their list. -/
structure Guard (held : Set Lock) (write : Write) : Prop where
  appends : write.appends = none
  moves : ∀ list, write.moved = some (.list list) → Lock.list list ∈ held

/-- A write that is guarded is so under more locks. -/
theorem Guard.grows (key : Lock) (held : Set Lock) (write : Write) (guarded : Guard held write) :
    Guard (insert key held) write :=
  ⟨guarded.appends, fun list moved => Set.mem_insert_of_mem key (guarded.moves list moved)⟩

/-- A write that renumbers no items needs no lock. -/
theorem Guard.free {held : Set Lock} {write : Write} (appends : write.appends = none)
    (moves : ∀ list, write.moved ≠ some (.list list)) : Guard held write :=
  ⟨appends, fun list moved => absurd moved (moves list)⟩

/-- A write that appends nothing leaves the record. -/
theorem appended_perform (tables : Tables) {write : Write} (nothing : write.appends = none) :
    (tables.perform write).appended = tables.appended := by
  simp only [Tables.perform, nothing]

/-- Writes that are guarded keep the invariant, and what others rely on. -/
theorem commit_guarded (tables : Tables) (pending : List Write) (held : Set Lock)
    (kept : interference.invariant tables) (guarded : ∀ write ∈ pending, Guard held write) :
    interference.invariant (performAll Tables.perform tables pending) ∧
      ∀ others, Disjoint held others →
        interference.rely others tables (performAll Tables.perform tables pending) := by
  induction pending generalizing tables with
  | nil => exact ⟨kept, fun others _ => interference.refl others tables⟩
  | cons write rest ih =>
      obtain ⟨first, later⟩ := List.forall_mem_cons.mp guarded
      have unchanged : interference.invariant (tables.perform write) := by
        change ∀ entry ∈ (tables.perform write).appended, entry.Recorded
        rw [appended_perform tables first.appends]
        exact kept
      obtain ⟨invariant, relied⟩ := ih (tables.perform write) unchanged later
      refine ⟨invariant, fun others apart => ?_⟩
      refine interference.trans _ _ _ _ (undisturbed_perform apart tables ?_ first.moves)
        (relied others apart)
      intro parent order sight appended
      rw [first.appends] at appended
      cases appended

/-- What is undisturbed under some locks is so under fewer. -/
theorem Undisturbed.mono {held fewer : Set Lock} {before after : Tables}
    (undisturbed : Undisturbed held before after) (subset : fewer ⊆ held) :
    Undisturbed fewer before after :=
  ⟨undisturbed.counted, fun list own => undisturbed.fixed list (subset own),
    fun parent own => undisturbed.kept parent (subset own)⟩

/-- The sight was had of the parent while its lock was held, and it is held since. -/
def Standing (parent : Parent) (sight : Sight) (tables : Tables) : Prop :=
  ∃ before : Tables, before.sight parent = sight ∧ Undisturbed {parent.lock} before tables

/-- What was read of a parent stands while its lock is held. -/
theorem Standing.later {parent : Parent} {sight : Sight} {held : Set Lock} {before after : Tables}
    (own : {parent.lock} ⊆ held) (undisturbed : Undisturbed held before after)
    (standing : Standing parent sight before) : Standing parent sight after := by
  obtain ⟨first, same, since⟩ := standing
  exact ⟨first, same, since.trans (undisturbed.mono own)⟩

/-- The write appends a row whose order is drawn from the sight, and moves none. -/
structure Draws (write : Write) (parent : Parent) (sight : Sight) : Prop where
  appends : write.appends = some (parent, appendOrder sight.orders, sight)
  moves : write.moved = none

/-- A row is recorded as undisturbed when its parent has not been renumbered since. -/
theorem record_undisturbed {tables : Tables} {parent : Parent} {order : Nat} {sight : Sight} :
    (tables.record parent order sight).disturbed = false ↔ tables.moves parent = sight.moves := by
  rw [Tables.record, decide_eq_false_iff_not, not_not]

/-- **The commit of an appended row.** -/
theorem commit_drawn {parent : Parent} {sight : Sight} {write : Write}
    (draws : Draws write parent sight) (tables : Tables) (held : Set Lock)
    (own : {parent.lock} ⊆ held) (kept : interference.invariant tables)
    (standing : Standing parent sight tables) :
    interference.invariant (tables.perform write) ∧
      ∀ others, Disjoint held others → interference.rely others tables (tables.perform write) := by
  refine ⟨?_, fun others apart => ?_⟩
  · intro entry member
    obtain ⟨before, rfl, undisturbed⟩ := standing
    have recorded : entry = tables.record parent
        (appendOrder (before.sight parent).orders) (before.sight parent) ∨
          entry ∈ tables.appended := by
      simpa only [Tables.perform, draws.appends, List.mem_cons] using member
    rcases recorded with rfl | earlier
    · refine ⟨rfl, fun still => ?_, fun list same => ?_⟩
      · exact undisturbed.kept parent rfl (record_undisturbed.mp still)
      · obtain rfl : parent = .list list := same
        exact record_undisturbed.mpr (undisturbed.fixed list rfl)
    · exact kept entry earlier
  · refine undisturbed_perform apart tables
      (fun place order seen appended => ?_) fun list moved => ?_
    · rw [draws.appends] at appended
      cases appended
      exact own rfl
    · rw [draws.moves] at moved
      cases moved

/-- What a request has written so far: nothing, or a row that it appends. -/
def Begun (held : Set Lock) (pending : List Write) (tables : Tables) : Prop :=
  pending = [] ∨ ∃ write parent sight, pending = [write] ∧ Draws write parent sight ∧
    {parent.lock} ⊆ held ∧ Standing parent sight tables

abbrev Kept {α : Type} (program : Handler α) (pending : List Write) (held : Set Lock)
    (tables : Tables) : Prop :=
  Ensures Tables.perform interference (fun _ _ => True) (fun _ _ _ _ => True) program pending held
    tables

/-- A program whose writes are guarded keeps what has begun. -/
theorem kept_of_begun {α : Type} {program : Handler α} {held : Set Lock} {pending : List Write}
    {tables : Tables} (guarded : program.Guarded Guard (fun _ _ => True) held)
    (begun : Begun held pending tables) :
    Kept program pending held tables := by
  rcases begun with rfl | ⟨write, parent, sight, rfl, draws, own, standing⟩
  · exact Ensures.of_guarded Guard.grows commit_guarded guarded (List.forall_mem_nil _) tables
  · refine Ensures.of_guarded_after Guard.grows commit_guarded
      (fun held before after holds undisturbed => Standing.later holds undisturbed)
      (fun rows held holds kept good => commit_drawn draws rows held holds kept good)
      guarded own (List.forall_mem_nil _) standing

/-! ## What the routes share -/

section Shared

variable {guard : Set Lock → Write → Prop}

/-- Loading the access takes no lock. -/
theorem loadDashboardAccess_guarded (id : DashboardId) (caller : UserId) (held : Set Lock) :
    (loadDashboardAccess id caller).Guarded guard
      (fun access holds => held ⊆ holds ∧ access.1.id = id) held := by
  refine .query fun tables => ?_
  cases found : tables.dashboard? id with
  | none => trivial
  | some dashboard =>
      have same : dashboard.id = id := by
        have matched := List.find?_some found
        simp only [decide_eq_true_eq] at matched
        exact matched.1
      refine .query fun rows => ?_
      cases effectiveRole dashboard.userId caller (rows.shares dashboard.id) with
      | none => trivial
      | some role => exact ⟨subset_rfl, same⟩

/-- Access may be loaded under the lock of the dashboard. -/
theorem lockDashboardAccess_guarded (id : DashboardId) (caller : UserId) (held : Set Lock) :
    (lockDashboardAccess id caller).Guarded guard
      (fun access holds => {Lock.dashboard id} ⊆ holds ∧ access.1.id = id) held := by
  refine .acquire ((loadDashboardAccess_guarded id caller _).mono fun access holds grown => ?_)
  exact ⟨Set.singleton_subset_iff.mpr (grown.1 (Set.mem_insert _ _)), grown.2⟩

/-- Finding a list takes no lock. -/
theorem getListAccess_guarded (id : ListId) (caller : UserId) (held : Set Lock) :
    (getListAccess id caller).Guarded guard (fun _ holds => held ⊆ holds) held := by
  refine .query fun tables => ?_
  cases tables.list? false id with
  | none => trivial
  | some row =>
      exact (loadDashboardAccess_guarded row.dashboardId caller held).bind
        fun access holds grown => grown.1

/-- A list may be found under its lock. -/
theorem lockListAccess_guarded (id : ListId) (caller : UserId) (held : Set Lock) :
    (lockListAccess id caller).Guarded guard (fun _ holds => {Lock.list id} ⊆ holds) held := by
  refine .acquire ((getListAccess_guarded id caller _).mono fun access holds grown => ?_)
  exact Set.singleton_subset_iff.mpr (grown (Set.mem_insert _ _))

/-- The check of the role writes nothing. -/
theorem assertCanEdit_guarded (role : EffectiveRole) (held : Set Lock) :
    (assertCanEdit role).Guarded guard (fun _ holds => held ⊆ holds) held := by
  unfold assertCanEdit
  split_ifs
  · exact subset_rfl
  · trivial

/-- The check of the quota writes nothing. -/
theorem assertUnderQuota_guarded (count : Tables → Nat) (cap : Nat) (detail : String)
    (held : Set Lock) :
    (assertUnderQuota count cap detail).Guarded guard (fun _ holds => held ⊆ holds) held := by
  refine .query fun tables => ?_
  split_ifs
  · trivial
  · exact subset_rfl

/-- Reading a row again writes nothing. -/
theorem refresh_guarded {α : Type} (read : Tables → Option α) (held : Set Lock) :
    (refresh read).Guarded guard (fun _ _ => True) held := by
  refine .query fun tables => ?_
  cases read tables <;> trivial

end Shared

/-! ## Routes that append nothing -/

/-- A new order of lists writes under the locks of the lists. -/
theorem reorderLists_guarded (caller : UserId) (body : ListReorder) :
    (reorderLists caller body).Guarded Guard (fun _ _ => True) ∅ := by
  unfold reorderLists
  refine (loadDashboardAccess_guarded _ _ _).bind fun access holds _ => ?_
  refine (assertCanEdit_guarded _ _).bind fun _ holds _ => ?_
  refine .query fun tables => ?_
  refine (Guarded.acquireAll _ holds).bind fun _ holds _ => ?_
  refine .query fun tables => ?_
  split_ifs
  · exact .update (fun _ => List.forall_mem_singleton.mpr (.free rfl nofun)) trivial
  · trivial

/-- The items are renumbered under the lock of their list. -/
theorem reorderItems_guarded (caller : UserId) (listId : ListId) (body : ItemReorder) :
    (reorderItems caller listId body).Guarded Guard (fun _ _ => True) ∅ := by
  unfold reorderItems
  refine (lockListAccess_guarded _ _ _).bind fun access holds own => ?_
  refine (assertCanEdit_guarded _ _).bind fun _ later grown => ?_
  refine .query fun tables => ?_
  split_ifs
  · refine (Guarded.acquireAll _ later).bind fun _ last further => ?_
    refine .updateReturning (fun _ => List.forall_mem_singleton.mpr ⟨rfl, ?_⟩) fun rows => ?_
    · rintro list ⟨⟩
      exact further (grown (own rfl))
    · split_ifs <;> trivial
  · trivial

/-- A deletion of an item needs no lock. -/
theorem deleteItem_guarded (caller : UserId) (listId : ListId) (id : ItemId) :
    (deleteItem caller listId id).Guarded Guard (fun _ _ => True) ∅ := by
  unfold deleteItem
  refine (getListAccess_guarded _ _ _).bind fun access holds _ => ?_
  refine (assertCanEdit_guarded _ _).bind fun _ holds _ => ?_
  refine .query fun tables => ?_
  cases (tables.itemsOf listId).find? (·.id = id) with
  | none => trivial
  | some item =>
      exact .acquire (.update (fun _ => List.forall_mem_singleton.mpr (.free rfl nofun)) trivial)

/-- The widgets of a list are removed under the locks of their rows. -/
theorem removeResourceWidgets_guarded (list : ListId) (loaded : Dashboard) (held : Set Lock) :
    (removeResourceWidgets list loaded).Guarded Guard (fun _ _ => True) held := by
  unfold removeResourceWidgets
  refine .query fun tables => ?_
  split_ifs
  · trivial
  · refine (Guarded.acquireAll _ held).bind fun _ holds _ => ?_
    refine .query fun rows _ => ⟨fun write member => ?_, trivial⟩
    rcases List.mem_append.mp member with edited | removed
    · obtain ⟨dashboard, _, rfl⟩ := List.mem_map.mp edited
      exact .free rfl nofun
    · obtain ⟨widget, _, rfl⟩ := List.mem_map.mp removed
      exact .free rfl nofun

/-- A write of a list is committed under any locks. -/
theorem commitList_guarded (id : ListId) (write : Write) (held : Set Lock)
    (guarded : ∀ holds, Guard holds write) :
    (commitList id write).Guarded Guard (fun _ _ => True) held := by
  refine .acquire (.updateReturning (fun _ => List.forall_mem_singleton.mpr (guarded _)) ?_)
  intro rows
  split_ifs <;> trivial

/-- A list is trashed under any locks. -/
theorem deleteList_guarded (caller : UserId) (id : ListId) (moment : Time) :
    (deleteList caller id moment).Guarded Guard (fun _ _ => True) ∅ := by
  unfold deleteList
  refine (getListAccess_guarded _ _ _).bind fun access holds _ => ?_
  refine (assertCanEdit_guarded _ _).bind fun _ holds _ => ?_
  refine (removeResourceWidgets_guarded _ _ _).bind fun _ holds _ => ?_
  exact (commitList_guarded access.1.id (.trashList access.1.id moment) holds fun _ =>
    .free rfl nofun).bind fun _ _ _ => trivial

theorem restoreList_guarded (caller : UserId) (id : ListId) :
    (restoreList caller id).Guarded Guard (fun _ _ => True) ∅ := by
  unfold restoreList
  refine .query fun tables => ?_
  cases tables.list? true id with
  | none => trivial
  | some row =>
      refine (loadDashboardAccess_guarded _ _ _).bind fun access holds _ => ?_
      refine (assertCanEdit_guarded _ _).bind fun _ holds _ => ?_
      refine (commitList_guarded row.id (.restoreList row.id row.dashboardId caller) holds fun _ =>
        .free rfl nofun).bind fun _ holds _ => ?_
      refine .query fun rows => ?_
      exact (refresh_guarded _ holds).bind fun _ _ _ => trivial

/-- What follows a list that `add_widget` has created, or has not. -/
theorem placeWidget_guarded (dashboard : Dashboard) (body : WidgetCreate) (newWidget : Uuid)
    (newList : ListId) (resource : Option ListId) (held : Set Lock) :
    (placeWidget dashboard body newWidget newList resource).Guarded Guard (fun _ _ => True)
      held := by
  unfold placeWidget
  refine .query fun tables => ?_
  split_ifs
  · trivial
  · refine .acquire (.updateReturning (fun _ => List.forall_mem_singleton.mpr (.free rfl nofun)) ?_)
    intro rows
    split_ifs
    · trivial
    · dsimp only
      split
      · trivial
      · refine .update (fun _ => List.forall_mem_singleton.mpr (.free rfl nofun)) ?_
        refine .commitTransaction ((refresh_guarded _ _).bind fun _ holds _ => ?_)
        split
        · trivial
        · exact (refresh_guarded _ holds).bind fun _ _ _ => trivial

/-! ## Routes that append a row -/

/-- What is read now stands. -/
theorem Standing.now (parent : Parent) (tables : Tables) :
    Standing parent (tables.sight parent) tables :=
  ⟨tables, rfl, Undisturbed.refl _ _⟩

/-- What a flush leaves uncommitted. -/
def Flushed {α : Type} (held : Set Lock) (_ : α) (pending : List Write) (holds : Set Lock)
    (tables : Tables) : Prop :=
  held ⊆ holds ∧ Begun holds pending tables

/-- An insert, once the row that it draws has been read under the lock of its parent. -/
theorem insert_ensures {key : Lock} {write : Write} {taken : Tables → Bool} {parent : Parent}
    {sight : Sight} {held : Set Lock} {tables : Tables} (draws : Draws write parent sight)
    (own : {parent.lock} ⊆ held) (standing : Standing parent sight tables) :
    Ensures Tables.perform interference (fun _ _ => True) (Flushed held)
      (do acquire key
          let present ← updateReturning (fun _ => [write]) taken
          if present then raise internalError else pure () : Handler Unit) [] held tables := by
  refine Ensures.acquire fun later relied _ => ?_
  have grown : held ⊆ insert key held := Set.subset_insert _ _
  refine Ensures.updateReturning fun last further _ => ?_
  have good := (standing.later own relied).later (own.trans grown) further
  split_ifs
  · trivial
  · exact ⟨grown, .inr ⟨write, parent, sight, rfl, draws, own.trans grown, good⟩⟩

/-- A list that is written under the lock of its dashboard sorts last. -/
theorem flushList_ensures {row : ListRow} {sight : Sight} {held : Set Lock} {tables : Tables}
    (own : {Lock.dashboard row.dashboardId} ⊆ held)
    (drawn : row.sortOrder = appendOrder sight.orders)
    (standing : Standing (.dashboard row.dashboardId) sight tables) :
    Ensures Tables.perform interference (fun _ _ => True) (Flushed held) (flushList row sight) []
      held tables := by
  have draws : Draws (.insertList row sight) (.dashboard row.dashboardId) sight := by
    refine ⟨?_, rfl⟩
    rw [← drawn]
    rfl
  unfold flushList
  split_ifs
  · trivial
  · exact insert_ensures draws own standing

/-- An item that is written under the lock of its list sorts last. -/
theorem flushItem_ensures {row : ItemRow} {sight : Sight} {held : Set Lock} {tables : Tables}
    (own : {Lock.list row.listId} ⊆ held) (drawn : row.sortOrder = appendOrder sight.orders)
    (standing : Standing (.list row.listId) sight tables) :
    Ensures Tables.perform interference (fun _ _ => True) (Flushed held) (flushItem row sight) []
      held tables := by
  have draws : Draws (.insertItem row sight) (.list row.listId) sight := by
    refine ⟨?_, rfl⟩
    rw [← drawn]
    rfl
  unfold flushItem
  split_ifs
  · trivial
  · exact insert_ensures draws own standing

variable (settings : Settings)

/-- **A list that is created** keeps the invariant. -/
theorem createList_kept (caller : UserId) (dashboardId : DashboardId) (listType : Boards.ListType)
    (id : ListId) (tables : Tables) :
    Kept (createList settings caller dashboardId listType id) [] ∅ tables := by
  unfold createList
  refine Ensures.after_reading (lockDashboardAccess_guarded _ _ _) fun access held _ reached => ?_
  obtain ⟨own, same⟩ := reached
  refine Ensures.after_reading (assertCanEdit_guarded _ _) fun _ held _ grown => ?_
  refine Ensures.after_reading (assertUnderQuota_guarded _ _ _ _) fun _ held _ further => ?_
  refine Ensures.after_reading (assertUnderQuota_guarded _ _ _ _) fun _ held _ last => ?_
  refine Ensures.query fun tables _ _ => ?_
  have locked : {Lock.dashboard access.1.id} ⊆ held := by
    rw [same]
    exact ((own.trans grown).trans further).trans last
  refine Ensures.bind (fun _ pending holds rows flushed => ?_)
    (flushList_ensures locked rfl (Standing.now _ tables))
  refine kept_of_begun ?_ flushed.2
  exact .commitTransaction ((refresh_guarded _ _).bind fun _ _ _ => trivial)

/-- **An item that is created** keeps the invariant. -/
theorem createItem_kept (caller : UserId) (listId : ListId) (id : ItemId) (tables : Tables) :
    Kept (createItem settings caller listId id) [] ∅ tables := by
  unfold createItem
  refine Ensures.after_reading (lockListAccess_guarded _ _ _) fun access held _ own => ?_
  refine Ensures.after_reading (assertCanEdit_guarded _ _) fun _ held _ grown => ?_
  refine Ensures.after_reading (assertUnderQuota_guarded _ _ _ _) fun _ held _ further => ?_
  refine Ensures.after_reading (assertUnderQuota_guarded _ _ _ _) fun _ held _ last => ?_
  refine Ensures.query fun tables _ _ => ?_
  refine Ensures.bind (fun _ pending holds rows flushed => ?_)
    (flushItem_ensures (((own.trans grown).trans further).trans last) rfl (Standing.now _ tables))
  refine kept_of_begun ?_ flushed.2
  exact .commitTransaction ((refresh_guarded _ _).bind fun _ _ _ => trivial)

/-- A list that a widget brings sorts last. -/
theorem bindResource_ensures (caller : UserId) (dashboard : Dashboard) (newList : ListId)
    (body : WidgetCreate) {held : Set Lock} (own : {Lock.dashboard dashboard.id} ⊆ held)
    (tables : Tables) :
    Ensures Tables.perform interference (fun _ _ => True) (Flushed held)
      (bindResource caller dashboard newList body) [] held tables := by
  unfold bindResource
  split
  · split
    · trivial
    · refine Ensures.query fun tables _ _ => ?_
      refine Ensures.bind (fun _ pending holds rows flushed => flushed)
        (flushList_ensures own rfl (Standing.now _ tables))
  · refine Ensures.query fun tables _ _ => ?_
    split
    · trivial
    · exact ⟨subset_rfl, .inl rfl⟩
  · exact ⟨subset_rfl, .inl rfl⟩

/-- **A widget that is added** keeps the invariant. -/
theorem addWidget_kept (caller : UserId) (id : DashboardId) (body : WidgetCreate)
    (newWidget : Uuid) (newList : ListId) (tables : Tables) :
    Kept (addWidget settings caller id body newWidget newList) [] ∅ tables := by
  unfold addWidget
  refine Ensures.after_reading (lockDashboardAccess_guarded _ _ _) fun access held _ reached => ?_
  obtain ⟨own, same⟩ := reached
  refine Ensures.after_reading (assertCanEdit_guarded _ _) fun _ held _ grown => ?_
  refine Ensures.after_reading (assertUnderQuota_guarded _ _ _ _) fun _ held later further => ?_
  have locked : {Lock.dashboard access.1.id} ⊆ held := by
    rw [same]
    exact (own.trans grown).trans further
  refine Ensures.bind (fun resource pending holds rows flushed => ?_)
    (bindResource_ensures caller access.1 newList body locked later)
  exact kept_of_begun (placeWidget_guarded _ _ _ _ _ _) flushed.2

/-- **Every route is ensured.** -/
theorem handler_kept (request : Request) (tables : Tables) :
    Kept (handler settings request) [] ∅ tables := by
  cases request with
  | createList caller dashboard listType id =>
      exact createList_kept settings caller dashboard listType id tables
  | createItem caller list id => exact createItem_kept settings caller list id tables
  | addWidget caller dashboard body newWidget newList =>
      exact addWidget_kept settings caller dashboard body newWidget newList tables
  | reorderLists caller body => exact kept_of_begun (reorderLists_guarded caller body) (.inl rfl)
  | reorderItems caller list body =>
      exact kept_of_begun (reorderItems_guarded caller list body) (.inl rfl)
  | deleteItem caller list id => exact kept_of_begun (deleteItem_guarded caller list id) (.inl rfl)
  | deleteList caller id moment =>
      exact kept_of_begun (deleteList_guarded caller id moment) (.inl rfl)
  | restoreList caller id => exact kept_of_begun (restoreList_guarded caller id) (.inl rfl)

/-- What happens outside leaves the record. -/
theorem appended_happen (tables : Tables) (event : Event) :
    (tables.happen event).appended = tables.appended := by
  cases event <;> rfl

/-- Every request of the service keeps the invariant. -/
theorem verified : Service.Verified (service settings) interference fun _ _ => True where
  initially := by
    intro tables empty entry member
    obtain rfl : tables = _ := empty
    cases member
  handlers := fun _ request tables _ => handler_kept settings request tables
  keeps := by
    intro tables event kept entry member
    exact kept entry (appended_happen tables event ▸ member)
  leaves := fun tables event held => undisturbed_happen held tables event

end FrontDashboard.Appending
