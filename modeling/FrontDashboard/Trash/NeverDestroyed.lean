import FrontDashboard.Trash.Restored

/-! # What was restored is never destroyed

A purge or a sweep removes only rows that are in the trash, and never a row's children
without the row; what a restore brought back is there, with everything it came back with,
until it is trashed again. This holds in every run in which no restore of a row, or of the
dashboard it was found in the trash with, commits between the statement that found it
there and the commit that deletes it or its children, and in which lists and events are
restored under dashboards that are not in the trash by then.
-/

namespace FrontDashboard.Trash

open ReadCommitted
open FrontDashboard.Membership (Failure)

/-! ## Found in the trash, and not restored since -/

/-- A dashboard once in the trash, and not restored since, has been there all along. -/
theorem Grows.dashboard_between {first second third : Tables} (earlier : Grows first second)
    (later : Grows second third) {id : Nat} {before after : DashboardRow}
    (found : first.dashboards.get id = some before)
    (trashed : before.mark.deletedAt.isSome = true)
    (present : third.dashboards.get id = some after)
    (unmoved : after.mark.restores = before.mark.restores) :
    ∃ row, second.dashboards.get id = some row ∧ row.mark = before.mark := by
  obtain ⟨middle, between, growsOn⟩ := later.dashboards id after present
  obtain ⟨origin, start, grows⟩ := earlier.dashboards id middle between
  cases found.symm.trans start
  exact ⟨middle, between, grows.between growsOn unmoved trashed⟩

/-- A child that is in the trash and there later is the same between. -/
theorem Grows.child_between {first second third : Tables} (earlier : Grows first second)
    (later : Grows second third) {kind : Kind} {id : Nat} {before after : ChildRow}
    (found : (first.children kind).get id = some before)
    (trashed : before.mark.deletedAt.isSome = true)
    (present : (third.children kind).get id = some after)
    (unmoved : after.mark.restores = before.mark.restores) :
    ∃ row, (second.children kind).get id = some row ∧ row.mark = before.mark := by
  obtain ⟨middle, between, -, growsOn⟩ := later.children kind id after present
  obtain ⟨origin, start, -, grows⟩ := earlier.children kind id middle between
  cases found.symm.trans start
  exact ⟨middle, between, grows.between growsOn unmoved trashed⟩

/-- What has expired is in the trash. -/
theorem Mark.isSome_of_expired {cutoff : Membership.Time} {mark : Mark}
    (expired : mark.expired cutoff = true) : mark.deletedAt.isSome = true :=
  Option.isSome_of_any expired

/-- The dashboard that is found is there and has expired. -/
theorem expiredDashboard_eq_some {cutoff : Membership.Time} {tables : Tables} {id count : Nat} :
    expiredDashboard cutoff tables id = some count ↔ ∃ row, tables.dashboards.get id = some row ∧
      row.mark.expired cutoff = true ∧ row.mark.restores = count := by
  simp [expiredDashboard, Option.filter_eq_some_iff, and_assoc]

/-- The child that is found is there and has expired. -/
theorem expiredChild_eq_some {cutoff : Membership.Time} {kind : Kind} {tables : Tables}
    {id count : Nat} :
    expiredChild cutoff kind tables id = some count ↔
      ∃ row, (tables.children kind).get id = some row ∧ row.mark.expired cutoff = true ∧
        row.mark.restores = count := by
  simp [expiredChild, Option.filter_eq_some_iff, and_assoc]

/-- Past the cutoff once, and not restored since: past it all along. -/
theorem Grows.expiredDashboard {cutoff : Membership.Time} {first second third : Tables}
    (earlier : Grows first second) (later : Grows second third) {id : Nat} {row : DashboardRow}
    (present : third.dashboards.get id = some row)
    (found : Trash.expiredDashboard cutoff first id = some row.mark.restores) :
    Trash.expiredDashboard cutoff second id = some row.mark.restores := by
  obtain ⟨before, start, expired, count⟩ := expiredDashboard_eq_some.mp found
  obtain ⟨middle, between, same⟩ := earlier.dashboard_between later start
    (Mark.isSome_of_expired expired) present count.symm
  refine expiredDashboard_eq_some.mpr ⟨middle, between, ?_⟩
  rw [same]
  exact ⟨expired, count⟩

/-- A child that is found expired and is there later has not been restored between. -/
theorem Grows.expiredChild {cutoff : Membership.Time} {kind : Kind} {first second third : Tables}
    (earlier : Grows first second) (later : Grows second third) {id : Nat} {row : ChildRow}
    (present : (third.children kind).get id = some row)
    (found : Trash.expiredChild cutoff kind first id = some row.mark.restores) :
    Trash.expiredChild cutoff kind second id = some row.mark.restores := by
  obtain ⟨before, start, expired, count⟩ := expiredChild_eq_some.mp found
  obtain ⟨middle, between, same⟩ := earlier.child_between later start
    (Mark.isSome_of_expired expired) present count.symm
  refine expiredChild_eq_some.mpr ⟨middle, between, ?_⟩
  rw [same]
  exact ⟨expired, count⟩

/-- A dashboard that is found is in the trash. -/
theorem trashed_of_expiredDashboard {cutoff : Membership.Time} {tables : Tables} {id : Nat}
    {row : DashboardRow} (present : tables.dashboards.get id = some row) {count : Nat}
    (found : expiredDashboard cutoff tables id = some count) :
    row.mark.deletedAt.isSome = true := by
  obtain ⟨other, there, expired, -⟩ := expiredDashboard_eq_some.mp found
  cases present.symm.trans there
  exact Mark.isSome_of_expired expired

/-- A child that is found is in the trash. -/
theorem trashed_of_expiredChild {cutoff : Membership.Time} {kind : Kind} {tables : Tables}
    {id : Nat} {row : ChildRow} (present : (tables.children kind).get id = some row) {count : Nat}
    (found : expiredChild cutoff kind tables id = some count) :
    row.mark.deletedAt.isSome = true := by
  obtain ⟨other, there, expired, -⟩ := expiredChild_eq_some.mp found
  cases present.symm.trans there
  exact Mark.isSome_of_expired expired

/-- A dashboard that is undisturbed has not been restored since. -/
theorem own_of_undisturbed {tables : Tables} {seen : Seen}
    (undisturbed : undisturbedDashboard tables seen = true) {row : DashboardRow}
    (present : tables.dashboards.get seen.id = some row) : seen.own = some row.mark.restores := by
  rw [undisturbedDashboard, present, Option.all_some] at undisturbed
  exact of_decide_eq_true undisturbed

/-- Neither an undisturbed child nor its dashboard has been restored since. -/
theorem own_or_parent_of_undisturbed {kind : Kind} {tables : Tables} {seen : Seen}
    (undisturbed : undisturbedChild kind tables seen = true) {row : ChildRow}
    (present : (tables.children kind).get seen.id = some row) :
    seen.own = some row.mark.restores ∨ ∃ dashboard,
      tables.dashboards.get row.dashboardId = some dashboard ∧
        seen.parent = some dashboard.mark.restores := by
  rw [undisturbedChild, present, Option.all_some, Bool.or_eq_true] at undisturbed
  rcases undisturbed with own | above
  · exact .inl (of_decide_eq_true own)
  · obtain ⟨dashboard, there, same⟩ := (Option.any_eq_true _ _).mp above
    exact .inr ⟨dashboard, there, of_decide_eq_true same⟩

/-! ## The statements of the routes -/

/-- The routes' code, started in a given transaction, keeps the property. -/
abbrev Safe {α : Type} (post : α → List Write → Set Ref → Rows → Prop) (program : Handler α)
    (pending : List Write) (held : Set Ref) (rows : Rows) : Prop :=
  Ensures Rows.perform interference Admits post program pending held rows

/-- Taking locks writes nothing. -/
theorem safe_acquireAll (refs : List Ref) {pending : List Write} {held : Set Ref} {rows : Rows}
    (restored : Restored rows) :
    Safe (fun _ after holds later => after = pending ∧ held ⊆ holds ∧ (∀ ref ∈ refs, ref ∈ holds) ∧
      Grows rows.tables later.tables ∧ Restored later) (Program.acquireAll refs) pending held
        rows := by
  induction refs generalizing held rows with
  | nil => exact ⟨rfl, Set.Subset.rfl, List.forall_mem_nil _, .refl _, restored⟩
  | cons ref rest ih =>
      intro locked relied restored
      refine Ensures.mono ?_ (ih restored)
      rintro _ after holds later ⟨same, more, all, grows, kept⟩
      refine ⟨same, (Set.subset_insert _ _).trans more, ?_, relied.1.trans grows, kept⟩
      exact List.forall_mem_cons.mpr ⟨more (Set.mem_insert _ _), all⟩

/-- A deletion of lists or events names rows it has waited for. -/
theorem safe_deleteChildren (kind : Kind) {found : Rows → List Seen}
    {again : Rows → Seen → Option Seen}
    (names : ∀ rows seen kept, again rows seen = some kept → kept.id = seen.id)
    {pending : List Write}
    (finds : ∀ rows, found (performAll Rows.perform rows pending) = found rows)
    (findsAgain : ∀ rows, again (performAll Rows.perform rows pending) = again rows)
    {held : Set Ref} {rows : Rows} :
    Safe (fun _ after holds later => held ⊆ holds ∧ ∃ asked seen,
        Grows rows.tables asked.tables ∧ Grows asked.tables later.tables ∧
        seen = (found asked).filterMap (again later) ∧
        after = pending ++ [.deleteChildren kind seen] ∧ ∀ id ∈ ids seen, .child kind id ∈ holds)
      (deleteChildren kind found again) pending held rows := by
  refine Ensures.query fun asked relied restored => ?_
  refine Ensures.bind ?_ (safe_acquireAll _ restored)
  rintro _ after holds waited ⟨rfl, more, all, grows, -⟩
  intro later relied' _
  refine ⟨more, asked, _, relied.1, grows.trans relied'.1, rfl, ?_, ?_⟩
  · beta_reduce
    rw [finds, findsAgain]
  · intro id named
    obtain ⟨kept, inside, rfl⟩ := List.mem_map.mp named
    obtain ⟨seen, member, same⟩ := List.mem_filterMap.mp inside
    rw [names _ seen kept same]
    apply all
    rw [finds]
    exact List.mem_map_of_mem member

/-- A commit that purges what stayed in the trash is safe. -/
theorem Safe.purge {pending : List Write} {held : Set Ref} {rows : Rows}
    (purges : ∀ later, Grows rows.tables later.tables → Admits later pending →
      Purges later.tables held pending) :
    Safe (fun _ _ _ _ => True) Program.commitTransaction (.remember :: pending) held rows := by
  refine Ensures.commitTransaction fun later relied restored admitted => ?_
  have within : Admits later pending :=
    fun write member => admitted write (List.mem_cons_of_mem _ member)
  have purge := purges later relied.1 within
  have after : Purges (later.perform .remember).tables held pending := purge
  refine ⟨restored.purge purge, fun others apart => ⟨?_, ?_⟩, trivial⟩
  · exact grows_deleted purge.deletes (later.perform .remember)
  · exact fun ref theirs => after.same (Set.disjoint_right.mp apart theirs)

/-- A deletion of dashboards waited for, with nothing left referring to them. -/
theorem safe_deleteDashboards (found : Rows → List Seen) {pending : List Write} {held : Set Ref}
    {rows : Rows}
    (purges : ∀ asked later, Grows rows.tables asked.tables → Grows asked.tables later.tables →
      ∀ seen, seen = found (performAll Rows.perform asked (.remember :: pending)) →
        Admits later (pending ++ [.deleteDashboards seen]) →
          Purges later.tables held (pending ++ [.deleteDashboards seen])) :
    Safe (fun _ _ _ _ => True) (deleteDashboards found) (.remember :: pending) held rows := by
  refine Ensures.updateReturning fun asked relied _ => ?_
  split
  · trivial
  · rw [List.cons_append]
    refine Safe.purge fun later grows admitted => ?_
    exact purges asked later relied.1 grows _ rfl admitted

/-- A commit that restores is safe while the thing is there. -/
theorem safe_commitRestored {ref : Ref} {write : Write} {isThere : Rows → Bool}
    (stays : ∀ before after : Rows, Same before.tables after.tables ref →
      isThere before = true → isThere after = true)
    (keeps : ∀ rows : Rows, Restored rows → isThere rows = true → AdmitsWrite rows.tables write →
      Restored (rows.perform write))
    (grows : ∀ rows : Rows, Grows rows.tables (rows.perform write).tables)
    (same : ∀ (rows : Rows) (other : Ref), other ≠ ref →
      Same rows.tables (rows.perform write).tables other) (rows : Rows) :
    Safe (fun _ _ _ _ => True) (commitRestored ref write isThere) [] ∅ rows := by
  refine Ensures.acquire fun locked _ _ => Ensures.updateReturning fun changed _ _ => ?_
  split
  · trivial
  next found =>
    have there : isThere changed = true := by simpa using found
    refine Ensures.commitTransaction fun later relied restored admitted => ?_
    have holds : ref ∈ insert ref (∅ : Set Ref) := Set.mem_insert _ _
    refine ⟨?_, fun others apart => ⟨grows later, fun other theirs => same later other ?_⟩, trivial⟩
    · apply keeps later restored (stays changed later (relied.2 ref holds) there)
      exact admitted write List.mem_cons_self
    · rintro rfl
      exact Set.disjoint_left.mp apart holds theirs

/-- A dashboard is restored safely. -/
theorem safe_restoreDashboard (caller id : Nat) (rows : Rows) :
    Safe (fun _ _ _ _ => True) (restoreDashboard caller id) [] ∅ rows := by
  refine Ensures.query fun read _ _ => ?_
  split
  next => trivial
  next row _ =>
    refine safe_commitRestored ?_ ?_ ?_ ?_ read
    · intro before after same there
      have same : after.tables.dashboards.get id = before.tables.dashboards.get id := same
      rw [same]
      exact there
    · exact fun rows restored there _ => restored.restoreDashboard there
    · exact fun rows => grows_mapDashboard _ _ fun row => row.mark.grows_restore
    · exact fun rows other different => same_mapDashboard _ _ _ different

/-- Loading the access writes nothing. -/
theorem safe_loadDashboardAccess (dashboardId user : Nat) (rows : Rows) :
    Safe (fun _ pending held later => pending = [] ∧ held = ∅ ∧ Grows rows.tables later.tables)
      (loadDashboardAccess dashboardId user) [] ∅ rows := by
  refine Ensures.query fun read relied _ => ?_
  split
  next => trivial
  next row _ =>
    refine Ensures.query fun listed relied' _ => ?_
    split
    next => trivial
    next => exact ⟨rfl, rfl, relied.1.trans relied'.1⟩

/-- The row answered was in the trash when it was read. -/
theorem safe_loadTrashed (kind : Kind) (caller id : Nat) (rows : Rows) :
    Safe (fun row pending held later => pending = [] ∧ held = ∅ ∧ ∃ read : Rows,
        Grows read.tables later.tables ∧ (read.tables.children kind).get id = some row ∧
        row.mark.deletedAt.isSome = true)
      (loadTrashed kind caller id) [] ∅ rows := by
  refine Ensures.query fun read _ _ => ?_
  split
  next => trivial
  next row found =>
    obtain ⟨present, trashed⟩ := Option.filter_eq_some_iff.mp found
    refine Ensures.bind ?_ (safe_loadDashboardAccess row.dashboardId caller read)
    rintro role pending held later ⟨rfl, rfl, grows⟩
    unfold assertCanEdit
    split
    · exact ⟨rfl, rfl, read, grows, present, trashed⟩
    · trivial

/-- A child is restored safely. -/
theorem safe_restoreChild (kind : Kind) (caller id : Nat) (rows : Rows) :
    Safe (fun _ _ _ _ => True) (restoreChild kind caller id) [] ∅ rows := by
  refine Ensures.bind ?_ (safe_loadTrashed kind caller id rows)
  rintro row pending held read ⟨rfl, rfl, -⟩
  refine safe_commitRestored ?_ ?_ ?_ ?_ read
  · intro before after same there
    have same : (after.tables.children kind).get id = (before.tables.children kind).get id := same
    rw [same]
    exact there
  · exact fun rows restored there admitted => restored.restoreChild caller there admitted
  · exact fun rows => grows_mapChild _ _ _ (fun _ => rfl) fun row => row.mark.grows_restore
  · exact fun rows other different => same_mapChild _ _ _ _ different

/-- Trashing is safe. -/
theorem safe_trash (ref : Ref) (rows : Rows) :
    Safe (fun _ _ _ _ => True) (trash ref) [] ∅ rows := by
  intro locked _ _ changed _ _
  refine Ensures.commitTransaction fun later _ restored _ => ?_
  refine ⟨restored.trash ref changed.now, fun others apart => ?_, trivial⟩
  have free : ∀ other ∈ others, other ≠ ref := by
    rintro other theirs rfl
    exact Set.disjoint_left.mp apart (Set.mem_insert _ _) theirs
  cases ref with
  | dashboard id =>
      exact ⟨grows_mapDashboard _ _ fun row => row.mark.grows_trash _,
        fun other theirs => same_mapDashboard _ _ _ (free other theirs)⟩
  | child kind id =>
      exact ⟨grows_mapChild _ _ _ (fun _ => rfl) fun row => row.mark.grows_trash _,
        fun other theirs => same_mapChild _ _ _ _ (free other theirs)⟩

/-! ## Purges by a user -/

/-- A row read in the trash by itself, and not restored since, is there still. -/
theorem Grows.child_trashed {before after : Tables} (since : Grows before after) {kind : Kind}
    {id : Nat} {row there : ChildRow} (found : (before.children kind).get id = some row)
    (trashed : row.mark.deletedAt.isSome = true)
    (undisturbed : undisturbedChild kind after ⟨id, some row.mark.restores, none⟩ = true)
    (present : (after.children kind).get id = some there) :
    there.mark.deletedAt.isSome = true := by
  rcases own_or_parent_of_undisturbed undisturbed present with own | ⟨_, -, parent⟩
  · obtain ⟨same, again, mark⟩ :=
      since.child_between (.refl after) found trashed present (Option.some.inj own).symm
    cases present.symm.trans again
    rw [mark]
    exact trashed
  · cases parent

/-- A list deleted with its items. -/
theorem purges_list {tables : Tables} {held : Set Ref} {seen : Seen}
    (locked : .child .list seen.id ∈ held)
    (trashed : ∀ row, (tables.children .list).get seen.id = some row →
      row.mark.deletedAt.isSome = true) :
    Purges tables held [.deleteParts .list [seen], .deleteChildren .list [seen]] where
  deletes := by simp [Write.deletes]
  dashboards := by simp [Write.dashboards]
  children := by
    intro write member kind child named
    simp only [List.mem_cons, List.not_mem_nil, or_false] at member
    rcases member with rfl | rfl
    · cases named
    · cases kind with
      | list =>
          cases List.mem_singleton.mp named
          exact ⟨locked, fun row present => .inl (trashed row present)⟩
      | event => cases named
  emptied := by
    intro write member kind child named _ _
    simp only [List.mem_cons, List.not_mem_nil, or_false] at member
    rcases member with rfl | rfl
    · cases kind with
      | list => exact ⟨.deleteChildren .list [seen], by simp, named⟩
      | event => cases named
    · cases named
  stripped := by simp [Write.stripped]

/-- An event deleted with its overrides. -/
theorem purges_event {tables : Tables} {held : Set Ref} {seen : Seen}
    (locked : .child .event seen.id ∈ held)
    (trashed : ∀ row, (tables.children .event).get seen.id = some row →
      row.mark.deletedAt.isSome = true) :
    Purges tables held [.deleteChildren .event [seen]] where
  deletes := by simp [Write.deletes]
  dashboards := by simp [Write.dashboards]
  children := by
    intro write member kind child named
    cases List.mem_singleton.mp member
    cases kind with
    | list => cases named
    | event =>
        cases List.mem_singleton.mp named
        exact ⟨locked, fun row present => .inl (trashed row present)⟩
  emptied := by
    intro write member kind child named _ _
    cases List.mem_singleton.mp member
    cases kind with
    | list => cases named
    | event => exact ⟨_, List.mem_cons_self, named⟩
  stripped := by simp [Write.stripped]

/-- A list is purged safely. -/
theorem safe_purgeTrashedList (caller id : Nat) (rows : Rows) :
    Safe (fun _ _ _ _ => True) (purgeTrashedList caller id) [] ∅ rows := by
  refine Ensures.bind ?_ (safe_loadTrashed .list caller id rows)
  rintro row pending held read ⟨rfl, rfl, start, grown, found, trashed⟩
  intro emptied relied₁ _ locked relied₂ _ deleted relied₃ _
  refine Safe.purge fun later grows admitted => purges_list (Set.mem_insert _ _) fun there => ?_
  have since : Grows start.tables later.tables :=
    grown.trans (relied₁.1.trans (relied₂.1.trans (relied₃.1.trans grows)))
  exact since.child_trashed found trashed
    (admitted (.deleteParts .list _) List.mem_cons_self _ List.mem_cons_self)

/-- An event is purged safely. -/
theorem safe_purgeTrashedEvent (caller id : Nat) (rows : Rows) :
    Safe (fun _ _ _ _ => True) (purgeTrashedEvent caller id) [] ∅ rows := by
  refine Ensures.bind ?_ (safe_loadTrashed .event caller id rows)
  rintro row pending held read ⟨rfl, rfl, start, grown, found, trashed⟩
  intro locked relied₁ _ deleted relied₂ _
  refine Safe.purge fun later grows admitted => purges_event (Set.mem_insert _ _) fun there => ?_
  have since : Grows start.tables later.tables :=
    grown.trans (relied₁.1.trans (relied₂.1.trans grows))
  exact since.child_trashed found trashed
    (admitted (.deleteChildren .event _) List.mem_cons_self _ List.mem_cons_self)

/-- The children that a purge reads are those of the dashboard. -/
theorem mem_ids_ofDashboard {id restores : Nat} {kind : Kind} {rows : Rows} {child : Nat} :
    child ∈ ids (ofDashboard id restores kind rows) ↔
      ∃ row, (rows.tables.children kind).get child = some row ∧ row.dashboardId = id := by
  simp [ids, ofDashboard, InsertionMap.mem_keysWhere]

/-- The children of a dashboard are read by way of it alone. -/
theorem mem_ofDashboard {id restores : Nat} {kind : Kind} {rows : Rows} {seen : Seen}
    (member : seen ∈ ofDashboard id restores kind rows) :
    seen.own = none ∧ seen.parent = some restores := by
  obtain ⟨child, -, rfl⟩ := List.mem_map.mp member
  exact ⟨rfl, rfl⟩

/-- The rows of a dashboard found at one moment are its rows as long as they are there. -/
theorem mem_ids_ofDashboard_of_grows {id restores : Nat} {kind : Kind} {before after : Rows}
    (grows : Grows before.tables after.tables) {child : Nat} {row : ChildRow}
    (present : (after.tables.children kind).get child = some row) :
    child ∈ ids (ofDashboard id restores kind before) ↔ row.dashboardId = id := by
  rw [mem_ids_ofDashboard]
  obtain ⟨earlier, found, same, -⟩ := grows.children kind child row present
  constructor
  · rintro ⟨other, there, named⟩
    cases found.symm.trans there
    exact same.symm.trans named
  · intro named
    exact ⟨earlier, found, same.trans named⟩

/-- The rows a deletion of lists or events may name, given the dashboards deleted. -/
def MayGo (tables : Tables) (held : Set Ref) (kind : Kind) (children dashboards : List Seen) :
    Prop :=
  ∀ id ∈ ids children, .child kind id ∈ held ∧
    ∀ row, (tables.children kind).get id = some row → row.mark.deletedAt.isSome = true ∨
      ((tables.dashboards.get row.dashboardId).isSome = true ∧ row.dashboardId ∈ ids dashboards)

/-- **Dashboards deleted with all that is on them**, in the order of the statements. -/
theorem purges_cascade {tables : Tables} {held : Set Ref}
    {emptied lists events dashboards : List Seen} {widgets : List Write}
    (goEmptied : ∀ id ∈ ids emptied, ∀ row, (tables.children .list).get id = some row →
      id ∈ ids lists)
    (goLists : MayGo tables held .list lists dashboards)
    (goEvents : MayGo tables held .event events dashboards)
    (goWidgets : ∀ write ∈ widgets, ∃ stripped, write = .deleteWidgets stripped ∧
      ∀ id ∈ ids stripped, ∀ row, tables.dashboards.get id = some row → id ∈ ids dashboards)
    (goDashboards : ∀ id ∈ ids dashboards, .dashboard id ∈ held ∧
      ∀ row, tables.dashboards.get id = some row → row.mark.deletedAt.isSome = true) :
    Purges tables held (.deleteParts .list emptied :: .deleteChildren .list lists ::
      .deleteChildren .event events :: (widgets ++ [.deleteDashboards dashboards])) := by
  have last : Write.deleteDashboards dashboards ∈ (.deleteParts .list emptied ::
      .deleteChildren .list lists :: .deleteChildren .event events ::
        (widgets ++ [.deleteDashboards dashboards]) : List Write) := by simp
  constructor
  · intro write member
    simp only [List.mem_cons, List.mem_append, List.not_mem_nil, or_false] at member
    rcases member with rfl | rfl | rfl | inside | rfl
    · rfl
    · rfl
    · rfl
    · obtain ⟨stripped, rfl, -⟩ := goWidgets write inside
      rfl
    · rfl
  · intro write member id named
    simp only [List.mem_cons, List.mem_append, List.not_mem_nil, or_false] at member
    rcases member with rfl | rfl | rfl | inside | rfl
    · cases named
    · cases named
    · cases named
    · obtain ⟨stripped, rfl, -⟩ := goWidgets write inside
      cases named
    · exact goDashboards id named
  · intro write member kind id named
    simp only [List.mem_cons, List.mem_append, List.not_mem_nil, or_false] at member
    rcases member with rfl | rfl | rfl | inside | rfl
    · cases named
    · cases kind with
      | list =>
          obtain ⟨locked, goes⟩ := goLists id named
          exact ⟨locked, fun row present => (goes row present).imp_right fun above =>
            ⟨above.1, _, last, above.2⟩⟩
      | event => cases named
    · cases kind with
      | list => cases named
      | event =>
          obtain ⟨locked, goes⟩ := goEvents id named
          exact ⟨locked, fun row present => (goes row present).imp_right fun above =>
            ⟨above.1, _, last, above.2⟩⟩
    · obtain ⟨stripped, rfl, -⟩ := goWidgets write inside
      cases named
    · cases named
  · intro write member kind id named row present
    simp only [List.mem_cons, List.mem_append, List.not_mem_nil, or_false] at member
    rcases member with rfl | rfl | rfl | inside | rfl
    · cases kind with
      | list =>
          exact ⟨.deleteChildren .list lists, by simp, goEmptied id named row present⟩
      | event => cases named
    · cases named
    · cases kind with
      | list => cases named
      | event => exact ⟨.deleteChildren .event events, by simp, named⟩
    · obtain ⟨stripped, rfl, -⟩ := goWidgets write inside
      cases named
    · cases named
  · intro write member id named row present
    simp only [List.mem_cons, List.mem_append, List.not_mem_nil, or_false] at member
    rcases member with rfl | rfl | rfl | inside | rfl
    · cases named
    · cases named
    · cases named
    · obtain ⟨stripped, rfl, goes⟩ := goWidgets write inside
      exact ⟨_, last, goes id named row present⟩
    · exact ⟨_, last, named⟩

/-- What is found of a dashboard may go with it. -/
theorem mayGo_ofDashboard {id restores : Nat} {held : Set Ref} {kind : Kind}
    {found later : Rows} (grows : Grows found.tables later.tables)
    (locked : ∀ child ∈ ids (ofDashboard id restores kind found), .child kind child ∈ held)
    (admitted : AdmitsWrite later.tables
      (.deleteChildren kind (ofDashboard id restores kind found))) :
    MayGo later.tables held kind (ofDashboard id restores kind found)
      [⟨id, some restores, none⟩] := by
  intro child named
  refine ⟨locked child named, fun row present => .inr ?_⟩
  have mine := (mem_ids_ofDashboard_of_grows grows present).mp named
  obtain ⟨seen, member, rfl⟩ := List.mem_map.mp named
  obtain ⟨own, -⟩ := mem_ofDashboard member
  rcases own_or_parent_of_undisturbed (admitted seen member) present with other | ⟨row, above, -⟩
  · rw [own] at other
    cases other
  · exact ⟨by rw [above]; rfl, List.mem_singleton.mpr mine⟩

/-- A dashboard that is in the trash is purged safely with all its children. -/
theorem safe_purgeDashboard {id : Nat} {row : DashboardRow} {start read : Rows}
    (grown : Grows start.tables read.tables) (found : start.tables.dashboards.get id = some row)
    (trashed : row.mark.deletedAt.isSome = true) :
    Safe (fun _ _ _ _ => True) (purgeDashboard id row.mark.restores) [] ∅ read := by
  refine Ensures.update fun emptied relied₁ _ => ?_
  refine Ensures.bind ?_ (safe_deleteChildren .list (fun _ _ _ same => by cases same; rfl)
    (fun _ => rfl) fun _ => rfl)
  rintro _ _ holds deletedLists ⟨-, lists, _, toLists, fromLists, rfl, rfl, lockedLists⟩
  refine Ensures.bind ?_ (safe_deleteChildren .event (fun _ _ _ same => by cases same; rfl)
    (fun _ => rfl) fun _ => rfl)
  rintro _ _ holds' deletedEvents ⟨more, events, _, toEvents, fromEvents, rfl, rfl, lockedEvents⟩
  simp only [List.filterMap_some] at lockedLists lockedEvents ⊢
  refine Ensures.acquire fun locked relied₂ _ => ?_
  refine safe_deleteDashboards _ fun asked later relied₃ grows seen same admitted => ?_
  subst same
  simp only [Admits, List.append_eq, List.cons_append, List.nil_append, List.forall_mem_cons]
    at admitted
  obtain ⟨-, admitsLists, admitsEvents, admitsDashboards, -⟩ := admitted
  have sinceLists : Grows lists.tables later.tables :=
    fromLists.trans (toEvents.trans (fromEvents.trans (relied₂.1.trans (relied₃.trans grows))))
  have sinceEvents : Grows events.tables later.tables :=
    fromEvents.trans (relied₂.1.trans (relied₃.trans grows))
  have sinceRead : Grows start.tables later.tables :=
    grown.trans (relied₁.1.trans (toLists.trans sinceLists))
  refine @purges_cascade _ _ _ _ _ _ [] ?_ ?_ ?_ (List.forall_mem_nil _) ?_
  · intro child named there present
    have mine := (mem_ids_ofDashboard_of_grows
      (toLists.trans sinceLists : Grows emptied.tables later.tables) present).mp named
    exact (mem_ids_ofDashboard_of_grows sinceLists present).mpr mine
  · apply mayGo_ofDashboard sinceLists _ admitsLists
    exact fun child named => Set.mem_insert_of_mem _ (more (lockedLists child named))
  · apply mayGo_ofDashboard sinceEvents _ admitsEvents
    exact fun child named => Set.mem_insert_of_mem _ (lockedEvents child named)
  · intro key named
    cases List.mem_singleton.mp named
    refine ⟨Set.mem_insert _ _, fun there present => ?_⟩
    have own := own_of_undisturbed (admitsDashboards _ List.mem_cons_self) present
    obtain ⟨same, again, mark⟩ :=
      sinceRead.dashboard_between (.refl _) found trashed present (Option.some.inj own).symm
    cases present.symm.trans again
    rw [mark]
    exact trashed

/-- A dashboard is purged safely as its owner asks. -/
theorem safe_purgeTrashedDashboard (caller id : Nat) (rows : Rows) :
    Safe (fun _ _ _ _ => True) (purgeTrashedDashboard caller id) [] ∅ rows := by
  refine Ensures.query fun read _ _ => ?_
  split
  next => trivial
  next row found =>
    obtain ⟨present, passes⟩ := Option.filter_eq_some_iff.mp found
    exact safe_purgeDashboard (.refl _) present (Bool.and_eq_true_iff.mp passes).2

/-! ## The sweep -/

variable {cutoff : Membership.Time}

/-- A child is found when it has expired. -/
theorem isSome_expiredChild {kind : Kind} {tables : Tables} {id : Nat} {row : ChildRow}
    (present : (tables.children kind).get id = some row) :
    (expiredChild cutoff kind tables id).isSome = row.mark.expired cutoff := by
  simp [expiredChild, present]

/-- A doomed row is past the cutoff by itself or with its dashboard. -/
theorem mem_doomed {kind : Kind} {rows : Rows} {seen : Seen} :
    seen ∈ doomed cutoff kind rows ↔ ∃ row, (rows.tables.children kind).get seen.id = some row ∧
      seen.own = expiredChild cutoff kind rows.tables seen.id ∧
      seen.parent = expiredDashboard cutoff rows.tables row.dashboardId ∧
      (seen.own.isSome = true ∨ seen.parent.isSome = true) := by
  constructor
  · intro member
    obtain ⟨id, inside, rfl⟩ := List.mem_map.mp member
    obtain ⟨row, present, passes⟩ := InsertionMap.mem_keysWhere.mp inside
    refine ⟨row, present, rfl, by rw [present]; rfl, ?_⟩
    rw [isSome_expiredChild present, present]
    exact Bool.or_eq_true_iff.mp passes
  · rintro ⟨row, present, own, parent, some⟩
    refine List.mem_map.mpr ⟨seen.id, InsertionMap.mem_keysWhere.mpr ⟨row, present, ?_⟩, ?_⟩
    · rw [own, parent, isSome_expiredChild present] at some
      exact Bool.or_eq_true_iff.mpr some
    · rw [← own, present, Option.bind_some, ← parent]

/-- What the reaper has read of a dashboard is what it found. -/
theorem mem_expiredDashboards {rows : Rows} {seen : Seen}
    (member : seen ∈ expiredDashboards cutoff rows) :
    seen.own = expiredDashboard cutoff rows.tables seen.id := by
  obtain ⟨id, -, rfl⟩ := List.mem_map.mp member
  rfl

/-- The reaper has read the dashboards that it found. -/
theorem mem_ids_expiredDashboards {rows : Rows} {id : Nat} :
    id ∈ ids (expiredDashboards cutoff rows) ↔
      (expiredDashboard cutoff rows.tables id).isSome = true := by
  simp [ids, expiredDashboards, InsertionMap.mem_keysWhere, expiredDashboard, Option.any_eq_true]

/-- A child that is looked at again is the one that was seen. -/
theorem Seen.eq_of_again {kind : Kind} {rows : Rows} {seen kept : Seen}
    (again : seen.again cutoff kind rows = some kept) :
    kept = { seen with own := expiredChild cutoff kind rows.tables seen.id } := by
  obtain ⟨-, same⟩ := Option.ite_none_right_eq_some.mp again
  exact (Option.some.inj same).symm

/-- What a later statement of the sweep deletes. -/
theorem mem_ids_again {kind : Kind} {asked waited : Rows} {id : Nat} {row : ChildRow}
    (present : (asked.tables.children kind).get id = some row)
    (some : (expiredChild cutoff kind waited.tables id).isSome = true ∧
        (expiredChild cutoff kind asked.tables id).isSome = true ∨
      (expiredDashboard cutoff asked.tables row.dashboardId).isSome = true) :
    id ∈ ids ((doomed cutoff kind asked).filterMap (Seen.again cutoff kind waited)) := by
  let seen : Seen := ⟨id, expiredChild cutoff kind asked.tables id,
    expiredDashboard cutoff asked.tables row.dashboardId⟩
  have found : seen ∈ doomed cutoff kind asked :=
    mem_doomed.mpr ⟨row, present, rfl, rfl, some.imp_left And.right⟩
  refine List.mem_map.mpr ⟨{ seen with own := expiredChild cutoff kind waited.tables id },
    List.mem_filterMap.mpr ⟨seen, found, ?_⟩, rfl⟩
  unfold Seen.again
  rw [if_pos (Bool.or_eq_true_iff.mpr (some.imp_left And.left))]

/-- **A list whose items the sweep deletes** is deleted as well, unless it was restored. -/
theorem mem_ids_again_of_undisturbed {kind : Kind} {first asked waited later : Rows}
    (toAsked : Grows first.tables asked.tables) (toWaited : Grows asked.tables waited.tables)
    (toLater : Grows waited.tables later.tables) {seen : Seen}
    (member : seen ∈ doomed cutoff kind first)
    (undisturbed : undisturbedChild kind later.tables seen = true) {row : ChildRow}
    (present : (later.tables.children kind).get seen.id = some row) :
    seen.id ∈ ids ((doomed cutoff kind asked).filterMap (Seen.again cutoff kind waited)) := by
  obtain ⟨start, found, own, parent, -⟩ := mem_doomed.mp member
  obtain ⟨middle, between, same, -⟩ := (toWaited.trans toLater).children kind _ row present
  obtain ⟨start', found', same', -⟩ := toAsked.children kind _ middle between
  cases found.symm.trans found'
  apply mem_ids_again between
  rcases own_or_parent_of_undisturbed undisturbed present with mine | ⟨dashboard, above, theirs⟩
  · rw [own] at mine
    left
    rw [toAsked.expiredChild (toWaited.trans toLater) present mine,
      (toAsked.trans toWaited).expiredChild toLater present mine]
    exact ⟨rfl, rfl⟩
  · rw [parent, same', same] at theirs
    right
    rw [same, toAsked.expiredDashboard (toWaited.trans toLater) above theirs]
    rfl

/-- What the sweep found past the cutoff may go, given that expired dashboards go. -/
theorem mayGo_doomed {held : Set Ref} {kind : Kind} {asked waited later : Rows}
    {dashboards : List Seen} (toWaited : Grows asked.tables waited.tables)
    (toLater : Grows waited.tables later.tables)
    (go : ∀ id row, later.tables.dashboards.get id = some row →
      expiredDashboard cutoff asked.tables id = some row.mark.restores → id ∈ ids dashboards)
    (locked : ∀ id ∈ ids ((doomed cutoff kind asked).filterMap (Seen.again cutoff kind waited)),
      .child kind id ∈ held)
    (admitted : AdmitsWrite later.tables
      (.deleteChildren kind ((doomed cutoff kind asked).filterMap (Seen.again cutoff kind waited))))
      :
    MayGo later.tables held kind
      ((doomed cutoff kind asked).filterMap (Seen.again cutoff kind waited)) dashboards := by
  intro id named
  refine ⟨locked id named, fun row present => ?_⟩
  obtain ⟨kept, inside, rfl⟩ := List.mem_map.mp named
  obtain ⟨seen, member, again⟩ := List.mem_filterMap.mp inside
  cases Seen.eq_of_again again
  obtain ⟨start, found, -, parent, -⟩ := mem_doomed.mp member
  obtain ⟨start', found', same, -⟩ := (toWaited.trans toLater).children kind _ row present
  cases found.symm.trans found'
  rcases own_or_parent_of_undisturbed (admitted _ inside) present with mine | ⟨above, there, theirs⟩
  · left
    exact trashed_of_expiredChild present (toLater.expiredChild (.refl _) present mine)
  · right
    rw [there]
    rw [parent, same] at theirs
    exact ⟨rfl, go _ above there theirs⟩

/-- **The reaper** is safe. -/
theorem safe_reapExpiredTrash (retention : Membership.Time) (rows : Rows) :
    Safe (fun _ _ _ _ => True) (reapExpiredTrash retention) [] ∅ rows := by
  refine Ensures.query fun read _ _ => Ensures.update fun emptied _ _ => ?_
  have names : ∀ (kind : Kind) (rows : Rows) (seen kept : Seen),
      Seen.again (read.now - retention) kind rows seen = some kept → kept.id = seen.id := by
    intro kind rows seen kept again
    rw [Seen.eq_of_again again]
  refine Ensures.bind ?_ (safe_deleteChildren .list (names .list) (fun _ => rfl) fun _ => rfl)
  rintro _ _ holds deletedLists ⟨-, lists, _, toLists, fromLists, rfl, rfl, lockedLists⟩
  refine Ensures.bind ?_ (safe_deleteChildren .event (names .event) (fun _ => rfl) fun _ => rfl)
  rintro _ _ holds' deletedEvents ⟨more, events, _, toEvents, fromEvents, rfl, rfl, lockedEvents⟩
  refine Ensures.update fun stripped relied₁ _ => Ensures.query fun listed relied₂ restored => ?_
  refine Ensures.bind ?_ (safe_acquireAll _ restored)
  rintro _ _ locks waited ⟨rfl, most, lockedDashboards, grown, -⟩
  refine safe_deleteDashboards _ fun asked later relied₃ grows seen same admitted => ?_
  subst same
  simp only [Admits, List.append_eq, List.cons_append, List.nil_append, List.forall_mem_cons]
    at admitted
  obtain ⟨admitsEmptied, admitsLists, admitsEvents, admitsWidgets, admitsDashboards, -⟩ := admitted
  have toAsked : Grows listed.tables asked.tables := grown.trans relied₃
  have sinceStripped : Grows stripped.tables later.tables :=
    relied₂.1.trans (toAsked.trans grows)
  have sinceEvents : Grows deletedEvents.tables later.tables := relied₁.1.trans sinceStripped
  have sinceLists : Grows deletedLists.tables later.tables :=
    toEvents.trans (fromEvents.trans sinceEvents)
  -- A dashboard found past the cutoff by any statement is found by the last.
  have go : ∀ before : Rows, Grows before.tables listed.tables → ∀ id row,
      later.tables.dashboards.get id = some row →
      expiredDashboard (read.now - retention) before.tables id = some row.mark.restores →
      id ∈ ids ((expiredDashboards (read.now - retention) asked).filter fun row =>
        row.id ∈ ids (expiredDashboards (read.now - retention) listed)) := by
    intro before toListed id row present found
    have inListed : id ∈ ids (expiredDashboards (read.now - retention) listed) := by
      rw [mem_ids_expiredDashboards, toListed.expiredDashboard (toAsked.trans grows) present found]
      rfl
    have inAsked : id ∈ ids (expiredDashboards (read.now - retention) asked) := by
      rw [mem_ids_expiredDashboards,
        (toListed.trans toAsked).expiredDashboard grows present found]
      rfl
    obtain ⟨seen, member, rfl⟩ := List.mem_map.mp inAsked
    exact List.mem_map_of_mem (List.mem_filter.mpr ⟨member, decide_eq_true inListed⟩)
  refine @purges_cascade _ _ _ _ _ _ [.deleteWidgets _] ?_ ?_ ?_ ?_ ?_
  · intro id named row present
    obtain ⟨seen, member, rfl⟩ := List.mem_map.mp named
    exact mem_ids_again_of_undisturbed toLists fromLists sinceLists member
      (admitsEmptied seen member) present
  · refine mayGo_doomed fromLists sinceLists (go lists ?_) ?_ admitsLists
    · exact fromLists.trans (toEvents.trans (fromEvents.trans (relied₁.1.trans relied₂.1)))
    · exact fun id named => most (more (lockedLists id named))
  · refine mayGo_doomed fromEvents sinceEvents (go events ?_) ?_ admitsEvents
    · exact fromEvents.trans (relied₁.1.trans relied₂.1)
    · exact fun id named => most (lockedEvents id named)
  · intro write member
    cases List.mem_singleton.mp member
    refine ⟨_, rfl, ?_⟩
    intro id named row present
    obtain ⟨seen, inside, rfl⟩ := List.mem_map.mp named
    have own := own_of_undisturbed (admitsWidgets seen inside) present
    rw [mem_expiredDashboards inside] at own
    exact go stripped relied₂.1 seen.id row present own
  · intro id named
    obtain ⟨seen, inside, rfl⟩ := List.mem_map.mp named
    obtain ⟨found, also⟩ := List.mem_filter.mp inside
    constructor
    · obtain ⟨other, member, same⟩ := List.mem_map.mp (of_decide_eq_true also)
      rw [← same]
      exact lockedDashboards _ (List.mem_map_of_mem member)
    · intro row present
      have own := own_of_undisturbed (admitsDashboards seen inside) present
      rw [mem_expiredDashboards found] at own
      exact trashed_of_expiredDashboard present
        (grows.expiredDashboard (.refl later.tables) present own)

/-! ## Runs -/

/-- Nothing has been restored in the beginning. -/
theorem restored_of_initial {rows : Rows} (begins : rows.Initial) : Restored rows where
  spares := by
    have gone : ∀ {α : Type} {found : Option α} {value : α}, found = some value →
        found ≠ none := by
      intro α found value present absent
      rw [present] at absent
      cases absent
    rw [begins.before]
    exact ⟨fun _ _ present absent => absurd absent (gone present),
      fun _ _ _ present absent => absurd absent (gone present),
      fun _ _ _ present absent => absurd absent (gone present),
      fun _ _ present absent => absurd absent (gone present)⟩
  kept := by
    rw [begins.returned]
    exact List.forall_mem_nil _

/-- Every route keeps the property, whatever runs beside it. -/
theorem verified (retention : Membership.Time) :
    Service.Verified (service retention) interference Admits where
  initially := fun _ => restored_of_initial
  handlers := by
    intro process request rows _
    cases request with
    | trash ref => exact safe_trash ref rows
    | restoreDashboard caller id => exact safe_restoreDashboard caller id rows
    | restoreList caller id => exact safe_restoreChild .list caller id rows
    | restoreEvent caller id => exact safe_restoreChild .event caller id rows
    | purgeTrashedDashboard caller id => exact safe_purgeTrashedDashboard caller id rows
    | purgeTrashedList caller id => exact safe_purgeTrashedList caller id rows
    | purgeTrashedEvent caller id => exact safe_purgeTrashedEvent caller id rows
    | reapExpiredTrash => exact safe_reapExpiredTrash retention rows
  keeps := fun _ _ restored => ⟨restored.spares, restored.kept⟩
  leaves := fun rows _ _ => ⟨.refl rows.tables, fun _ _ => .refl rows.tables _⟩

/-- User 0's dashboard, with a list in the trash and an item on it. -/
def trashedList : State Rows Write Ref Failure Unit where
  database :=
    let tables : Tables :=
      { dashboards := InsertionMap.empty.insert 1 ⟨0, none, 0⟩
        children := Function.update (fun _ => .empty) .list
          (InsertionMap.empty.insert 5 ⟨1, 0, some 0, 0⟩)
        parts := Function.update (fun _ => .empty) .list (InsertionMap.empty.insert 6 5)
        widgets := .empty }
    ⟨1000, tables, fun _ => [], tables, []⟩
  holder := fun _ => none
  processes := fun _ => none

theorem trashedList_initial : (service 100).system.Initial trashedList :=
  ⟨⟨rfl, rfl⟩, fun _ => rfl, fun _ => rfl⟩

/-- The list came back, but it or its item is gone. -/
def destroyed (state : State Rows Write Ref Failure Unit) : Bool :=
  state.database.returned = [⟨.child .list 5, [6]⟩] &&
    (((state.database.tables.children .list).get 5).isNone ||
      ((state.database.tables.parts .list).get 6).isNone)

/-- What came back and is gone was destroyed. -/
theorem not_restored_of_destroyed {state : State Rows Write Ref Failure Unit}
    (bad : destroyed state = true) : ¬ Restored state.database := by
  intro restored
  obtain ⟨listed, lost⟩ := Bool.and_eq_true_iff.mp bad
  have kept := restored.kept ⟨.child .list 5, [6]⟩ (by rw [of_decide_eq_true listed]; simp)
  obtain ⟨⟨row, present, -⟩, parts⟩ := kept
  rw [present, parts 6 (by simp)] at lost
  cases lost

/-- A list read in the trash is restored, and purged after that. -/
theorem purge_destroys_restored_list :
    ¬ ∀ state, (service 100).system.Reachable state → Restored state.database := by
  intro restored
  obtain ⟨state, reached, bad⟩ := TransitionSystem.exists_reachable_of_run trashedList_initial
    (runs 0 (.purgeTrashedList 0 5) 3 ++ runs 1 (.restoreList 0 5) 6 ++
      List.replicate 4 (.advance 0)) destroyed (by decide)
  exact not_restored_of_destroyed bad (restored state reached)

/-- The sweep deletes a list's items, the list is restored, and the sweep leaves it. -/
theorem sweep_empties_restored_list :
    ∃ state, (service 100).system.Reachable state ∧
      ((state.database.tables.children .list).get 5).isSome = true ∧
        ¬ Restored state.database := by
  obtain ⟨state, reached, bad⟩ := TransitionSystem.exists_reachable_of_run trashedList_initial
    (runs 0 .reapExpiredTrash 2 ++ runs 1 (.restoreList 0 5) 6 ++
      List.replicate 9 (.advance 0))
    (fun state => ((state.database.tables.children .list).get 5).isSome && destroyed state)
    (by decide)
  obtain ⟨there, lost⟩ := Bool.and_eq_true_iff.mp bad
  exact ⟨state, reached, there, not_restored_of_destroyed lost⟩

/-- **What was restored is never destroyed**, in every run whose commits are admitted. -/
theorem restored_of_admitted {retention : Membership.Time}
    {state : State Rows Write Ref Failure Unit}
    (reached : (service retention).system.ReachedWithin (Service.CommitsWithin Admits) state) :
    Restored state.database :=
  Service.invariant_of_ensures (verified retention) reached

/-- The list is restored between a purge that is refused and a sweep. -/
theorem restored_after_sweep :
    ∃ state : State Rows Write Ref Failure Unit,
      state.database.returned = [⟨.child .list 5, [6]⟩] ∧ Restored state.database := by
  obtain ⟨state, reached, shape⟩ := TransitionSystem.exists_reachedWithin_of_run
    (Service.CommitsWithin Admits) trashedList_initial
    (runs 1 (.restoreList 0 5) 6 ++ runs 0 (.purgeTrashedList 0 5) 3 ++
      runs 2 .reapExpiredTrash 12)
    (fun state => decide (state.database.returned = [⟨.child .list 5, [6]⟩])) (by decide)
  exact ⟨state, of_decide_eq_true shape, restored_of_admitted reached⟩

end FrontDashboard.Trash
