import FrontDashboard.Trash.Routes

/-! # What purges and sweeps may remove

The property of the rows: a purge or a sweep removed only rows that are in the trash, and
never a row's children without the row; and what a restore brought back is there, with
everything it came back with, until it is trashed again. Then what each kind of commit
does to it: a restore, a row put in the trash, and a transaction of deletions.
-/

namespace FrontDashboard.Trash

open ReadCommitted

/-- What a purge or a sweep may remove: rows in the trash, rows that go with their
dashboard, and children that go with their row. -/
structure Spares (before after : Tables) : Prop where
  dashboards : ∀ id row, before.dashboards.get id = some row → after.dashboards.get id = none →
    row.mark.deletedAt.isSome = true
  children : ∀ kind id row, (before.children kind).get id = some row →
    (after.children kind).get id = none → row.mark.deletedAt.isSome = true ∨
      ((before.dashboards.get row.dashboardId).isSome = true ∧
        after.dashboards.get row.dashboardId = none)
  parts : ∀ kind part parent, (before.parts kind).get part = some parent →
    (after.parts kind).get part = none → (after.children kind).get parent = none
  widgets : ∀ widget dashboard, before.widgets.get widget = some dashboard →
    after.widgets.get widget = none → after.dashboards.get dashboard = none

def DashboardThere (tables : Tables) (id : Nat) : Prop :=
  ∃ row, tables.dashboards.get id = some row ∧ row.mark.deletedAt = none

/-- A list or event that is there, on a dashboard that is there. -/
def ChildThere (tables : Tables) (kind : Kind) (id : Nat) : Prop :=
  ∃ row, (tables.children kind).get id = some row ∧ row.mark.deletedAt = none ∧
    DashboardThere tables row.dashboardId

/-- What came back is there, with its parts. -/
def Kept (tables : Tables) (returned : Returned) : Prop :=
  match returned.ref with
  | .dashboard id => DashboardThere tables id ∧
      ∀ widget ∈ returned.parts, tables.widgets.get widget = some id
  | .child kind id => ChildThere tables kind id ∧
      ∀ part ∈ returned.parts, (tables.parts kind).get part = some id

/-- **The property.** -/
structure Restored (rows : Rows) : Prop where
  spares : Spares rows.before rows.tables
  kept : ∀ returned ∈ rows.returned, Kept rows.tables returned

/-! ## The commits admitted -/

/-- The dashboard was not restored since it was found in the trash. -/
def undisturbedDashboard (tables : Tables) (seen : Seen) : Bool :=
  (tables.dashboards.get seen.id).all fun row => seen.own = some row.mark.restores

/-- The row was not restored since it was found in the trash by itself, or its dashboard
was not since the row was found there with it. -/
def undisturbedChild (kind : Kind) (tables : Tables) (seen : Seen) : Bool :=
  ((tables.children kind).get seen.id).all fun row =>
    seen.own = some row.mark.restores ||
      (tables.dashboards.get row.dashboardId).any fun dashboard =>
        seen.parent = some dashboard.mark.restores

def AdmitsWrite (tables : Tables) : Write → Prop
  | .restoreChild kind id _ => ∀ row ∈ (tables.children kind).get id,
      (tables.dashboards.get row.dashboardId).any (·.mark.deletedAt.isNone) = true
  | .deleteParts kind seen | .deleteChildren kind seen =>
      ∀ row ∈ seen, undisturbedChild kind tables row = true
  | .deleteWidgets seen | .deleteDashboards seen =>
      ∀ row ∈ seen, undisturbedDashboard tables row = true
  | _ => True

def Admits (rows : Rows) (pending : List Write) : Prop :=
  ∀ write ∈ pending, AdmitsWrite rows.tables write

instance (tables : Tables) (write : Write) : Decidable (AdmitsWrite tables write) := by
  unfold AdmitsWrite
  split <;> infer_instance

instance (rows : Rows) (pending : List Write) : Decidable (Admits rows pending) :=
  inferInstanceAs (Decidable (∀ write ∈ pending, AdmitsWrite rows.tables write))

/-! ## What time does to the tables -/

/-- A row in the trash stays as it is until it is restored. -/
structure Mark.Grows (before after : Mark) : Prop where
  restores : before.restores ≤ after.restores
  same : after.restores = before.restores → before.deletedAt.isSome = true → after = before

/-- A mark grows into itself. -/
theorem Mark.Grows.refl (mark : Mark) : mark.Grows mark := ⟨Nat.le_refl _, fun _ _ => rfl⟩

/-- A mark grows on. -/
theorem Mark.Grows.trans {first second third : Mark} (earlier : first.Grows second)
    (later : second.Grows third) : first.Grows third := by
  refine ⟨Nat.le_trans earlier.restores later.restores, ?_⟩
  intro unmoved trashed
  have one := earlier.restores
  have two := later.restores
  have between : second = first := earlier.same (by omega) trashed
  subst between
  exact later.same unmoved trashed

/-- Trashing makes a mark grow. -/
theorem Mark.grows_trash (moment : Membership.Time) (mark : Mark) :
    mark.Grows (mark.trash moment) := by
  unfold Mark.trash
  split
  next live =>
    refine ⟨Nat.le_refl _, fun _ trashed => ?_⟩
    rw [Option.isNone_iff_eq_none.mp live] at trashed
    cases trashed
  next => exact .refl mark

/-- Restoring makes a mark grow. -/
theorem Mark.grows_restore (mark : Mark) : mark.Grows mark.restore :=
  ⟨Nat.le_succ _, fun unmoved _ => absurd unmoved (Nat.succ_ne_self _)⟩

/-- Between finding a row in the trash and finding it not restored since, it was there. -/
theorem Mark.Grows.between {first second third : Mark} (earlier : first.Grows second)
    (later : second.Grows third) (unmoved : third.restores = first.restores)
    (trashed : first.deletedAt.isSome = true) : second = first := by
  have one := earlier.restores
  have two := later.restores
  exact earlier.same (by omega) trashed

/-- No row appears, no row changes its dashboard, and marks grow. -/
structure Grows (before after : Tables) : Prop where
  dashboards : ∀ id row, after.dashboards.get id = some row →
    ∃ earlier, before.dashboards.get id = some earlier ∧ earlier.mark.Grows row.mark
  children : ∀ kind id row, (after.children kind).get id = some row →
    ∃ earlier, (before.children kind).get id = some earlier ∧
      earlier.dashboardId = row.dashboardId ∧ earlier.mark.Grows row.mark

/-- Tables grow into themselves. -/
theorem Grows.refl (tables : Tables) : Grows tables tables :=
  ⟨fun _ row present => ⟨row, present, .refl _⟩,
    fun _ _ row present => ⟨row, present, rfl, .refl _⟩⟩

/-- Tables grow on. -/
theorem Grows.trans {first second third : Tables} (earlier : Grows first second)
    (later : Grows second third) : Grows first third := by
  constructor
  · intro id row present
    obtain ⟨middle, between, after⟩ := later.dashboards id row present
    obtain ⟨origin, found, before⟩ := earlier.dashboards id middle between
    exact ⟨origin, found, before.trans after⟩
  · intro kind id row present
    obtain ⟨middle, between, same, after⟩ := later.children kind id row present
    obtain ⟨origin, found, same', before⟩ := earlier.children kind id middle between
    exact ⟨origin, found, same'.trans same, before.trans after⟩

/-- A row under a lock is as it was. -/
def Same (before after : Tables) : Ref → Prop
  | .dashboard id => after.dashboards.get id = before.dashboards.get id
  | .child kind id => (after.children kind).get id = (before.children kind).get id

/-- A thing is the same as it is. -/
theorem Same.refl (tables : Tables) (ref : Ref) : Same tables tables ref := by
  cases ref <;> rfl

/-- What stays the same twice is the same. -/
theorem Same.trans {first second third : Tables} {ref : Ref} (earlier : Same first second ref)
    (later : Same second third ref) : Same first third ref := by
  cases ref with
  | dashboard id => exact Eq.trans later earlier
  | child kind id => exact Eq.trans later earlier

/-- Row locks guard their rows. -/
def interference : Interference Rows Ref where
  invariant := Restored
  rely := fun held before after =>
    Grows before.tables after.tables ∧ ∀ ref ∈ held, Same before.tables after.tables ref
  refl := fun _ _ => ⟨.refl _, fun _ _ => .refl _ _⟩
  trans := fun _ _ _ _ earlier later =>
    ⟨earlier.1.trans later.1, fun ref holds => (earlier.2 ref holds).trans (later.2 ref holds)⟩

/-! ## One row changed in place -/

section Map

variable (tables : Tables) (id : Nat) (kind : Kind)

/-- A change of one dashboard leaves the others. -/
@[simp] theorem mapDashboard_dashboards_get (change : DashboardRow → DashboardRow) (key : Nat) :
    (tables.mapDashboard id change).dashboards.get key =
      (tables.dashboards.get key).map fun row => if key = id then change row else row := rfl

@[simp] theorem mapDashboard_children (change : DashboardRow → DashboardRow) :
    (tables.mapDashboard id change).children = tables.children := rfl

@[simp] theorem mapChild_dashboards (change : ChildRow → ChildRow) :
    (tables.mapChild kind id change).dashboards = tables.dashboards := rfl

/-- A change of one child leaves the other children. -/
theorem mapChild_get (change : ChildRow → ChildRow) (found : Kind) (key : Nat) :
    ((tables.mapChild kind id change).children found).get key =
      ((tables.children found).get key).map fun row =>
        if found = kind ∧ key = id then change row else row := by
  unfold Tables.mapChild
  by_cases same : found = kind
  · subst same
    simp
  · simp [same]

/-- Tables grow when the mark of one dashboard does. -/
theorem grows_mapDashboard {change : DashboardRow → DashboardRow}
    (grows : ∀ row : DashboardRow, row.mark.Grows (change row).mark) :
    Grows tables (tables.mapDashboard id change) := by
  constructor
  · intro key row present
    rw [mapDashboard_dashboards_get, Option.map_eq_some_iff] at present
    obtain ⟨earlier, found, rfl⟩ := present
    refine ⟨earlier, found, ?_⟩
    split
    · exact grows earlier
    · exact .refl _
  · intro found key row present
    exact ⟨row, present, rfl, .refl _⟩

/-- Tables grow when the mark of a child does which stays where it is. -/
theorem grows_mapChild {change : ChildRow → ChildRow}
    (stays : ∀ row, (change row).dashboardId = row.dashboardId)
    (grows : ∀ row : ChildRow, row.mark.Grows (change row).mark) :
    Grows tables (tables.mapChild kind id change) := by
  constructor
  · intro key row present
    exact ⟨row, present, .refl _⟩
  · intro found key row present
    rw [mapChild_get, Option.map_eq_some_iff] at present
    obtain ⟨earlier, there, rfl⟩ := present
    refine ⟨earlier, there, ?_⟩
    split
    · exact ⟨(stays earlier).symm, grows earlier⟩
    · exact ⟨rfl, .refl _⟩

/-- Another thing is the same after a change of a dashboard. -/
theorem same_mapDashboard (change : DashboardRow → DashboardRow) {ref : Ref}
    (different : ref ≠ .dashboard id) : Same tables (tables.mapDashboard id change) ref := by
  cases ref with
  | dashboard key =>
      have other : key ≠ id := fun same => different (congrArg _ same)
      simp [Same, other]
  | child found key => rfl

/-- Another thing is the same after a change of a child. -/
theorem same_mapChild (change : ChildRow → ChildRow) {ref : Ref}
    (different : ref ≠ .child kind id) : Same tables (tables.mapChild kind id change) ref := by
  cases ref with
  | dashboard key => rfl
  | child found key =>
      have other : ¬ (found = kind ∧ key = id) := by
        rintro ⟨rfl, rfl⟩
        exact different rfl
      simp [Same, mapChild_get, other]

end Map

/-- Rows that changed but none of which came or went. -/
structure SameRows (before after : Tables) : Prop where
  dashboards : ∀ id, after.dashboards.get id = none ↔ before.dashboards.get id = none
  children : ∀ kind id, (after.children kind).get id = none ↔ (before.children kind).get id = none
  parts : after.parts = before.parts
  widgets : after.widgets = before.widgets

/-- A change of a dashboard removes no row. -/
theorem sameRows_mapDashboard (tables : Tables) (id : Nat)
    (change : DashboardRow → DashboardRow) : SameRows tables (tables.mapDashboard id change) :=
  ⟨fun _ => Option.map_eq_none_iff, fun _ _ => Iff.rfl, rfl, rfl⟩

/-- A change of a child removes no row. -/
theorem sameRows_mapChild (tables : Tables) (kind : Kind) (id : Nat)
    (change : ChildRow → ChildRow) : SameRows tables (tables.mapChild kind id change) := by
  refine ⟨fun _ => Iff.rfl, fun found key => ?_, rfl, rfl⟩
  rw [mapChild_get, Option.map_eq_none_iff]

/-- What spares restored things still does when no row goes. -/
theorem Spares.of_same {before after changed : Tables} (spares : Spares before after)
    (same : SameRows after changed) : Spares before changed where
  dashboards := fun id row present gone =>
    spares.dashboards id row present ((same.dashboards id).mp gone)
  children := by
    intro kind id row present gone
    rcases spares.children kind id row present ((same.children kind id).mp gone) with
      trashed | ⟨above, goes⟩
    · exact .inl trashed
    · exact .inr ⟨above, (same.dashboards _).mpr goes⟩
  parts := by
    intro kind part parent present gone
    rw [same.parts] at gone
    exact (same.children kind parent).mpr (spares.parts kind part parent present gone)
  widgets := by
    intro widget dashboard present gone
    rw [same.widgets] at gone
    exact (same.dashboards dashboard).mpr (spares.widgets widget dashboard present gone)

/-- A dashboard is there still unless it is the one that was trashed. -/
theorem DashboardThere.map {tables : Tables} {id key : Nat} (there : DashboardThere tables key)
    {change : DashboardRow → DashboardRow}
    (lives : key = id → ∀ row, row.mark.deletedAt = none → (change row).mark.deletedAt = none) :
    DashboardThere (tables.mapDashboard id change) key := by
  obtain ⟨row, present, live⟩ := there
  refine ⟨if key = id then change row else row, ?_, ?_⟩
  · rw [mapDashboard_dashboards_get, present, Option.map_some]
  · split
    next same => exact lives same row live
    next => exact live

/-- What came back is kept while it is there and its parts and widgets are. -/
theorem Kept.of_there {before after : Tables} {returned : Returned} (kept : Kept before returned)
    (parts : after.parts = before.parts) (widgets : after.widgets = before.widgets)
    (dashboard : ∀ id, returned.ref = .dashboard id → DashboardThere before id →
      DashboardThere after id)
    (child : ∀ kind id, returned.ref = .child kind id → ChildThere before kind id →
      ChildThere after kind id) : Kept after returned := by
  unfold Kept at kept ⊢
  split at kept
  next id named => exact ⟨dashboard id named kept.1, by rw [widgets]; exact kept.2⟩
  next kind id named => exact ⟨child kind id named kept.1, by rw [parts]; exact kept.2⟩

/-! ## Restores and trashing -/

/-- It is kept when a dashboard changes without being trashed. -/
theorem Kept.mapDashboard {tables : Tables} {returned : Returned} (kept : Kept tables returned)
    {id : Nat} {change : DashboardRow → DashboardRow}
    (lives : ∀ row, row.mark.deletedAt = none → (change row).mark.deletedAt = none) :
    Kept (tables.mapDashboard id change) returned := by
  refine kept.of_there rfl rfl ?_ ?_
  · intro key _ there
    exact there.map fun _ => lives
  · rintro kind key - ⟨row, present, live, above⟩
    exact ⟨row, present, live, above.map fun _ => lives⟩

/-- A child stays there when a child changes, unless it is the one and is trashed. -/
theorem ChildThere.map {tables : Tables} {kind found : Kind} {id key : Nat}
    (there : ChildThere tables found key) {change : ChildRow → ChildRow}
    (stays : ∀ row, (change row).dashboardId = row.dashboardId)
    (lives : found = kind ∧ key = id →
      ∀ row, row.mark.deletedAt = none → (change row).mark.deletedAt = none) :
    ChildThere (tables.mapChild kind id change) found key := by
  obtain ⟨row, present, live, above⟩ := there
  refine ⟨if found = kind ∧ key = id then change row else row, ?_, ?_, ?_⟩
  · rw [mapChild_get, present, Option.map_some]
  · split
    next same => exact lives same row live
    next => exact live
  · split
    · rw [stays]
      exact above
    · exact above

/-- What is there of a dashboard that was just restored. -/
theorem kept_returning_dashboard {tables : Tables} {id : Nat}
    (there : (tables.dashboards.get id).isSome = true) :
    Kept (tables.restoreDashboard id) (tables.returning (.dashboard id)) := by
  obtain ⟨row, present⟩ := Option.isSome_iff_exists.mp there
  refine ⟨⟨{ row with mark := row.mark.restore }, ?_, rfl⟩, ?_⟩
  · simp [Tables.restoreDashboard, present]
  · intro widget listed
    obtain ⟨parent, found, same⟩ := InsertionMap.mem_keysWhere.mp listed
    rw [of_decide_eq_true same] at found
    exact found

/-- A child that comes back has its parts. -/
theorem kept_returning_child {before after : Tables} {kind : Kind} {id : Nat}
    (parts : after.parts = before.parts) (there : ChildThere after kind id) :
    Kept after (before.returning (.child kind id)) := by
  refine ⟨there, ?_⟩
  intro part listed
  obtain ⟨parent, found, same⟩ := InsertionMap.mem_keysWhere.mp listed
  rw [of_decide_eq_true same] at found
  rw [parts]
  exact found

/-- A dashboard that is restored comes back with all it had. -/
theorem Restored.restoreDashboard {rows : Rows} (restored : Restored rows) {id : Nat}
    (there : (rows.tables.dashboards.get id).isSome = true) :
    Restored (rows.perform (.restoreDashboard id)) := by
  have stands := (kept_returning_dashboard there).1
  constructor
  · exact restored.spares.of_same (sameRows_mapDashboard _ _ _)
  · intro returned listed
    rcases List.mem_append.mp listed with before | added
    · exact (restored.kept returned before).mapDashboard fun _ _ => rfl
    rcases List.mem_cons.mp added with rfl | shown
    · exact kept_returning_dashboard there
    · obtain ⟨kind, -, inside⟩ := List.mem_flatMap.mp shown
      obtain ⟨child, member, rfl⟩ := List.mem_map.mp inside
      obtain ⟨row, present, passes⟩ := InsertionMap.mem_keysWhere.mp member
      obtain ⟨same, live⟩ := Bool.and_eq_true_iff.mp passes
      refine kept_returning_child rfl ⟨row, present, Option.isNone_iff_eq_none.mp live, ?_⟩
      rw [of_decide_eq_true same]
      exact stands

/-- A child that is restored comes back, if the write is admitted. -/
theorem Restored.restoreChild {rows : Rows} (restored : Restored rows) {kind : Kind} {id : Nat}
    (user : Nat) (there : ((rows.tables.children kind).get id).isSome = true)
    (admitted : AdmitsWrite rows.tables (.restoreChild kind id user)) :
    Restored (rows.perform (.restoreChild kind id user)) := by
  constructor
  · exact restored.spares.of_same (sameRows_mapChild _ _ _ _)
  · intro returned listed
    rcases List.mem_append.mp listed with before | added
    · refine (restored.kept returned before).of_there rfl rfl ?_ ?_
      · exact fun _ _ there => there
      · intro found key _ there
        exact there.map (fun _ => rfl) fun _ _ _ => rfl
    · rw [List.mem_singleton.mp added]
      obtain ⟨row, present⟩ := Option.isSome_iff_exists.mp there
      obtain ⟨dashboard, above, live⟩ := (Option.any_eq_true _ _).mp (admitted row present)
      apply kept_returning_child rfl
      refine ⟨{ row with updatedBy := user, mark := row.mark.restore }, ?_, rfl, dashboard, above,
        Option.isNone_iff_eq_none.mp live⟩
      change ((rows.tables.mapChild kind id _).children kind).get id = _
      rw [mapChild_get, present, Option.map_some, if_pos ⟨rfl, rfl⟩]

/-- Trashing a row ends what it owed to a restore, of it and of what is on it. -/
theorem Restored.trash {rows : Rows} (restored : Restored rows) (ref : Ref)
    (moment : Membership.Time) : Restored (rows.perform (.trash ref moment)) := by
  constructor
  · cases ref with
    | dashboard id => exact restored.spares.of_same (sameRows_mapDashboard _ _ _)
    | child kind id => exact restored.spares.of_same (sameRows_mapChild _ _ _ _)
  · intro returned listed
    obtain ⟨before, apart⟩ := List.mem_filter.mp listed
    have kept := restored.kept returned before
    rw [Bool.not_eq_true'] at apart
    cases ref with
    | dashboard id =>
        refine kept.of_there rfl rfl ?_ ?_
        · intro key named there
          refine there.map fun same => ?_
          rw [named, same] at apart
          simp [Tables.under] at apart
        · rintro kind key named ⟨row, present, live, above⟩
          refine ⟨row, present, live, above.map fun same => ?_⟩
          rw [named] at apart
          simp [Tables.under, present, same] at apart
    | child kind id =>
        refine kept.of_there rfl rfl ?_ ?_
        · exact fun _ _ there => there
        · intro found key named there
          refine there.map (fun _ => rfl) ?_
          rintro ⟨rfl, rfl⟩
          rw [named] at apart
          simp [Tables.under] at apart

/-! ## Deletions -/

namespace Write

def deletes : Write → Bool
  | .deleteParts _ _ | .deleteChildren _ _ | .deleteWidgets _ | .deleteDashboards _ => true
  | _ => false

/-- The dashboards whose rows go. -/
def dashboards : Write → List Nat
  | .deleteDashboards seen => ids seen
  | _ => []

/-- The lists or events whose rows go. -/
def children (kind : Kind) : Write → List Nat
  | .deleteChildren found seen => if found = kind then ids seen else []
  | _ => []

/-- The lists or events whose items or overrides go. -/
def emptied (kind : Kind) : Write → List Nat
  | .deleteParts found seen => if found = kind then ids seen else []
  | .deleteChildren .event seen => if kind = .event then ids seen else []
  | _ => []

/-- The dashboards whose widgets go. -/
def stripped : Write → List Nat
  | .deleteWidgets seen | .deleteDashboards seen => ids seen
  | _ => []

end Write

/-- **One deletion** leaves the rows that it does not name. -/
theorem perform_dashboards {write : Write} (deletes : write.deletes = true) (rows : Rows)
    (id : Nat) (row : DashboardRow) :
    (rows.perform write).tables.dashboards.get id = some row ↔
      rows.tables.dashboards.get id = some row ∧ id ∉ write.dashboards := by
  cases write with
  | deleteDashboards seen =>
      simp [Rows.perform, Tables.deleteDashboards, Tables.deleteWidgets, Write.dashboards,
        Option.filter_eq_some_iff]
  | deleteParts | deleteWidgets =>
      simp [Rows.perform, Tables.deleteParts, Tables.deleteWidgets, Write.dashboards]
  | deleteChildren kind seen =>
      cases kind <;>
        simp [Rows.perform, Tables.deleteChildren, Tables.deleteParts, Write.dashboards]
  | _ => cases deletes

/-- A deleting write takes the children it names. -/
theorem perform_children {write : Write} (deletes : write.deletes = true) (rows : Rows)
    (kind : Kind) (id : Nat) (row : ChildRow) :
    ((rows.perform write).tables.children kind).get id = some row ↔
      (rows.tables.children kind).get id = some row ∧ id ∉ write.children kind := by
  cases write with
  | deleteDashboards | deleteParts | deleteWidgets =>
      simp [Rows.perform, Tables.deleteDashboards, Tables.deleteParts, Tables.deleteWidgets,
        Write.children]
  | deleteChildren found seen =>
      cases found <;> cases kind <;>
        simp [Rows.perform, Tables.deleteChildren, Tables.deleteParts, Write.children,
          Option.filter_eq_some_iff]
  | _ => cases deletes

/-- A deleting write takes the parts of the children it empties. -/
theorem perform_parts {write : Write} (deletes : write.deletes = true) (rows : Rows)
    (kind : Kind) (part parent : Nat) :
    ((rows.perform write).tables.parts kind).get part = some parent ↔
      (rows.tables.parts kind).get part = some parent ∧ parent ∉ write.emptied kind := by
  cases write with
  | deleteDashboards | deleteWidgets =>
      simp [Rows.perform, Tables.deleteDashboards, Tables.deleteWidgets, Write.emptied]
  | deleteParts found seen =>
      cases found <;> cases kind <;>
        simp [Rows.perform, Tables.deleteParts, Write.emptied, Option.filter_eq_some_iff]
  | deleteChildren found seen =>
      cases found <;> cases kind <;>
        simp [Rows.perform, Tables.deleteChildren, Tables.deleteParts, Write.emptied,
          Option.filter_eq_some_iff]
  | _ => cases deletes

/-- A deleting write takes the widgets of the children it strips. -/
theorem perform_widgets {write : Write} (deletes : write.deletes = true) (rows : Rows)
    (widget dashboard : Nat) :
    (rows.perform write).tables.widgets.get widget = some dashboard ↔
      rows.tables.widgets.get widget = some dashboard ∧ dashboard ∉ write.stripped := by
  cases write with
  | deleteDashboards | deleteWidgets =>
      simp [Rows.perform, Tables.deleteDashboards, Tables.deleteWidgets, Write.stripped,
        Option.filter_eq_some_iff]
  | deleteParts => simp [Rows.perform, Tables.deleteParts, Write.stripped]
  | deleteChildren found seen =>
      cases found <;>
        simp [Rows.perform, Tables.deleteChildren, Tables.deleteParts, Write.stripped]
  | _ => cases deletes

/-- A deleting write leaves the records. -/
theorem perform_records {write : Write} (deletes : write.deletes = true) (rows : Rows) :
    (rows.perform write).before = rows.before ∧ (rows.perform write).returned = rows.returned := by
  cases write with
  | deleteDashboards | deleteParts | deleteWidgets | deleteChildren => exact ⟨rfl, rfl⟩
  | _ => cases deletes

section Deleted

variable {pending : List Write} (deletes : ∀ write ∈ pending, write.deletes = true)
include deletes

/-- Of deleting writes in a row, the dashboards stay that none of them names. -/
theorem deleted_dashboards (rows : Rows) (id : Nat) (row : DashboardRow) :
    (performAll Rows.perform rows pending).tables.dashboards.get id = some row ↔
      rows.tables.dashboards.get id = some row ∧ ∀ write ∈ pending, id ∉ write.dashboards :=
  performAll_iff (fun rows => rows.tables.dashboards.get id = some row)
    (fun write member rows => perform_dashboards (deletes write member) rows id row) rows

/-- The children stay that none of the writes names. -/
theorem deleted_children (rows : Rows) (kind : Kind) (id : Nat) (row : ChildRow) :
    ((performAll Rows.perform rows pending).tables.children kind).get id = some row ↔
      (rows.tables.children kind).get id = some row ∧
        ∀ write ∈ pending, id ∉ write.children kind :=
  performAll_iff (fun rows => (rows.tables.children kind).get id = some row)
    (fun write member rows => perform_children (deletes write member) rows kind id row) rows

/-- The parts stay of what none of the writes empties. -/
theorem deleted_parts (rows : Rows) (kind : Kind) (part parent : Nat) :
    ((performAll Rows.perform rows pending).tables.parts kind).get part = some parent ↔
      (rows.tables.parts kind).get part = some parent ∧
        ∀ write ∈ pending, parent ∉ write.emptied kind :=
  performAll_iff (fun rows => (rows.tables.parts kind).get part = some parent)
    (fun write member rows => perform_parts (deletes write member) rows kind part parent) rows

/-- The widgets stay of what none of the writes strips. -/
theorem deleted_widgets (rows : Rows) (widget dashboard : Nat) :
    (performAll Rows.perform rows pending).tables.widgets.get widget = some dashboard ↔
      rows.tables.widgets.get widget = some dashboard ∧
        ∀ write ∈ pending, dashboard ∉ write.stripped :=
  performAll_iff (fun rows => rows.tables.widgets.get widget = some dashboard)
    (fun write member rows => perform_widgets (deletes write member) rows widget dashboard) rows

/-- The records stay. -/
theorem deleted_records (rows : Rows) :
    (performAll Rows.perform rows pending).before = rows.before ∧
      (performAll Rows.perform rows pending).returned = rows.returned := by
  induction pending generalizing rows with
  | nil => exact ⟨rfl, rfl⟩
  | cons write rest ih =>
      obtain ⟨before, returned⟩ := perform_records (deletes write List.mem_cons_self) rows
      obtain ⟨earlier, listed⟩ :=
        ih (fun other member => deletes other (List.mem_cons_of_mem _ member)) (rows.perform write)
      exact ⟨earlier.trans before, listed.trans returned⟩

/-- Deleting writes change no mark. -/
theorem grows_deleted (rows : Rows) :
    Grows rows.tables (performAll Rows.perform rows pending).tables := by
  constructor
  · intro id row present
    exact ⟨row, ((deleted_dashboards deletes rows id row).mp present).1, .refl _⟩
  · intro kind id row present
    exact ⟨row, ((deleted_children deletes rows kind id row).mp present).1, rfl, .refl _⟩

end Deleted

/-! ## Purges -/

/-- A transaction that removes rows which are in the trash when it commits, rows that go
with their dashboard and children that go with their row, each under its lock. -/
structure Purges (tables : Tables) (held : Set Ref) (pending : List Write) : Prop where
  deletes : ∀ write ∈ pending, write.deletes = true
  dashboards : ∀ write ∈ pending, ∀ id ∈ write.dashboards, .dashboard id ∈ held ∧
    ∀ row, tables.dashboards.get id = some row → row.mark.deletedAt.isSome = true
  children : ∀ write ∈ pending, ∀ kind, ∀ id ∈ write.children kind, .child kind id ∈ held ∧
    ∀ row, (tables.children kind).get id = some row → row.mark.deletedAt.isSome = true ∨
      ((tables.dashboards.get row.dashboardId).isSome = true ∧
        ∃ other ∈ pending, row.dashboardId ∈ other.dashboards)
  emptied : ∀ write ∈ pending, ∀ kind, ∀ id ∈ write.emptied kind,
    ∀ row, (tables.children kind).get id = some row → ∃ other ∈ pending, id ∈ other.children kind
  stripped : ∀ write ∈ pending, ∀ id ∈ write.stripped,
    ∀ row, tables.dashboards.get id = some row → ∃ other ∈ pending, id ∈ other.dashboards

/-- A row that is gone was named by a write. -/
theorem exists_of_gone {α : Type} {before after : Option α} {value : α} {pending : List Write}
    {key : Nat} {named : Write → List Nat}
    (spared : after = some value ↔ before = some value ∧ ∀ write ∈ pending, key ∉ named write)
    (present : before = some value) (gone : after = none) :
    ∃ write ∈ pending, key ∈ named write := by
  by_contra unnamed
  have stays : after = some value := by
    refine spared.mpr ⟨present, fun write member names => unnamed ⟨write, member, names⟩⟩
  rw [gone] at stays
  cases stays

section Purges

variable {rows : Rows} {held : Set Ref} {pending : List Write}
  (purges : Purges rows.tables held pending)
include purges

/-- A dashboard that is there and not in the trash is spared. -/
theorem Purges.spares_dashboard {id : Nat} (there : DashboardThere rows.tables id) :
    ∀ write ∈ pending, id ∉ write.dashboards := by
  intro write member named
  obtain ⟨row, present, live⟩ := there
  have trashed := (purges.dashboards write member id named).2 row present
  rw [live] at trashed
  cases trashed

/-- A purge names no child that is there. -/
theorem Purges.spares_child {kind : Kind} {id : Nat} (there : ChildThere rows.tables kind id) :
    ∀ write ∈ pending, id ∉ write.children kind := by
  intro write member named
  obtain ⟨row, present, live, above⟩ := there
  rcases (purges.children write member kind id named).2 row present with trashed | ⟨-, other, goes⟩
  · rw [live] at trashed
    cases trashed
  · exact purges.spares_dashboard above other goes.1 goes.2

/-- What came back is kept by a purge. -/
theorem Purges.kept {returned : Returned} (kept : Kept rows.tables returned) :
    Kept (performAll Rows.perform rows pending).tables returned := by
  have dashboardThere : ∀ id, DashboardThere rows.tables id →
      DashboardThere (performAll Rows.perform rows pending).tables id := by
    intro id there
    have spared := purges.spares_dashboard there
    obtain ⟨row, present, live⟩ := there
    exact ⟨row, (deleted_dashboards purges.deletes rows id row).mpr ⟨present, spared⟩, live⟩
  unfold Kept at kept ⊢
  split at kept
  next id _ =>
    obtain ⟨there, widgets⟩ := kept
    refine ⟨dashboardThere id there, fun widget listed => ?_⟩
    refine (deleted_widgets purges.deletes rows widget id).mpr ⟨widgets widget listed, ?_⟩
    have spared := purges.spares_dashboard there
    intro write member named
    obtain ⟨row, present, -⟩ := there
    obtain ⟨other, inside, goes⟩ := purges.stripped write member id named row present
    exact spared other inside goes
  next kind id _ =>
    obtain ⟨there, parts⟩ := kept
    have spared := purges.spares_child there
    constructor
    · obtain ⟨row, present, live, above⟩ := there
      exact ⟨row, (deleted_children purges.deletes rows kind id row).mpr ⟨present, spared⟩, live,
        dashboardThere _ above⟩
    · intro part listed
      refine (deleted_parts purges.deletes rows kind part id).mpr ⟨parts part listed, ?_⟩
      intro write member named
      obtain ⟨row, present, -⟩ := there
      obtain ⟨other, inside, goes⟩ := purges.emptied write member kind id named row present
      exact spared other inside goes

/-- A dashboard that a purge names is gone. -/
theorem Purges.gone_dashboard {id : Nat} {write : Write} (member : write ∈ pending)
    (named : id ∈ write.dashboards) :
    (performAll Rows.perform rows pending).tables.dashboards.get id = none := by
  by_contra present
  obtain ⟨row, found⟩ := Option.ne_none_iff_exists'.mp present
  exact ((deleted_dashboards purges.deletes rows id row).mp found).2 write member named

/-- A child that a purge names is gone. -/
theorem Purges.gone_child {kind : Kind} {id : Nat} {write : Write} (member : write ∈ pending)
    (named : id ∈ write.children kind) :
    ((performAll Rows.perform rows pending).tables.children kind).get id = none := by
  by_contra present
  obtain ⟨row, found⟩ := Option.ne_none_iff_exists'.mp present
  exact ((deleted_children purges.deletes rows kind id row).mp found).2 write member named

/-- A purge takes only what was in the trash. -/
theorem Purges.spares : Spares rows.tables (performAll Rows.perform rows pending).tables where
  dashboards := by
    intro id row present gone
    obtain ⟨write, member, named⟩ :=
      exists_of_gone (deleted_dashboards purges.deletes rows id row) present gone
    exact (purges.dashboards write member id named).2 row present
  children := by
    intro kind id row present gone
    obtain ⟨write, member, named⟩ :=
      exists_of_gone (deleted_children purges.deletes rows kind id row) present gone
    rcases (purges.children write member kind id named).2 row present with
      trashed | ⟨above, other, inside, goes⟩
    · exact .inl trashed
    · exact .inr ⟨above, purges.gone_dashboard inside goes⟩
  parts := by
    intro kind part parent present gone
    obtain ⟨write, member, named⟩ :=
      exists_of_gone (deleted_parts purges.deletes rows kind part parent) present gone
    by_contra there
    obtain ⟨row, found⟩ := Option.ne_none_iff_exists'.mp there
    obtain ⟨before, -⟩ := (deleted_children purges.deletes rows kind parent row).mp found
    obtain ⟨other, inside, goes⟩ := purges.emptied write member kind parent named row before
    exact there (purges.gone_child inside goes)
  widgets := by
    intro widget dashboard present gone
    obtain ⟨write, member, named⟩ :=
      exists_of_gone (deleted_widgets purges.deletes rows widget dashboard) present gone
    by_contra there
    obtain ⟨row, found⟩ := Option.ne_none_iff_exists'.mp there
    obtain ⟨before, -⟩ := (deleted_dashboards purges.deletes rows dashboard row).mp found
    obtain ⟨other, inside, goes⟩ := purges.stripped write member dashboard named row before
    exact there (purges.gone_dashboard inside goes)

/-- What is not under a lock of the transaction stays as it is. -/
theorem Purges.same {ref : Ref} (unlocked : ref ∉ held) :
    Same rows.tables (performAll Rows.perform rows pending).tables ref := by
  cases ref with
  | dashboard id =>
      refine Option.ext fun row => ?_
      rw [deleted_dashboards purges.deletes rows id row]
      refine and_iff_left ?_
      intro write member named
      exact unlocked (purges.dashboards write member id named).1
  | child kind id =>
      refine Option.ext fun row => ?_
      rw [deleted_children purges.deletes rows kind id row]
      refine and_iff_left ?_
      intro write member named
      exact unlocked (purges.children write member kind id named).1

end Purges

/-- **A purge** whose commit is in order. -/
theorem Restored.purge {rows : Rows} (restored : Restored rows) {held : Set Ref}
    {pending : List Write} (purges : Purges rows.tables held pending) :
    Restored (performAll Rows.perform rows (.remember :: pending)) := by
  have after : Purges (rows.perform .remember).tables held pending := purges
  obtain ⟨before, returned⟩ := deleted_records purges.deletes (rows.perform .remember)
  constructor
  · rw [performAll_cons, before]
    exact after.spares
  · rw [performAll_cons, returned]
    intro row listed
    exact after.kept (restored.kept row listed)

end FrontDashboard.Trash
