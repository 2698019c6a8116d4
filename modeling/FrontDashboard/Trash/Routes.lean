import FrontDashboard.Library.InsertionMap
import FrontDashboard.Membership.Routes

/-! # Restoring, purging and the retention sweep

`restore_dashboard`, `restore_list` and `restore_event`, `purge_trashed_dashboard`,
`purge_trashed_list` and `purge_trashed_event`, and `reap_expired_trash`, each as the
program of its database statements. A statement that changes or deletes a row waits for
the row's lock; one that deletes many finds them first and then waits for each. The
requests that put a row in the trash stand as one statement on a row that is not there.
-/

namespace FrontDashboard.Trash

/-! ## The rows that can be in the trash

The dashboards, the lists and events on them, and what goes with each: a list's items, an
event's overrides, a dashboard's widgets. Of a row the model keeps what restoring and
purging it read and write. No row is added: what is in the trash was there before.

Some fields record history and influence no statement: the `restores` of a mark count how
often its row was restored, `before` is what the tables held before the last purge or
sweep committed, and `returned` lists what a restore brought back and nobody has put in
the trash since, with the parts it came back with.
-/

open FrontDashboard.Membership (Time ResourceShare)

/-- The rows of a dashboard that can be in the trash by themselves. -/
inductive Kind
  | list
  | event
  deriving DecidableEq, Repr

/-- `deleted_at`, and how often the row was restored. -/
structure Mark where
  deletedAt : Option Time
  restores : Nat
  deriving DecidableEq, Repr

structure DashboardRow where
  owner : Nat
  mark : Mark
  deriving DecidableEq, Repr

/-- A row of `lists` or of `calendar_events`. -/
structure ChildRow where
  dashboardId : Nat
  updatedBy : Nat
  mark : Mark
  deriving DecidableEq, Repr

/-- A row that can be in the trash. -/
inductive Ref
  | dashboard (id : Nat)
  | child (kind : Kind) (id : Nat)
  deriving DecidableEq, Repr

/-- The rows by their ids; `parts` holds the list of each item and the event of each
override, and `widgets` the dashboard of each widget. -/
structure Tables where
  dashboards : InsertionMap Nat DashboardRow
  children : Kind → InsertionMap Nat ChildRow
  parts : Kind → InsertionMap Nat Nat
  widgets : InsertionMap Nat Nat

/-- What came back with a restore: the row and its items, overrides or widgets. -/
structure Returned where
  ref : Ref
  parts : List Nat
  deriving DecidableEq, Repr

structure Rows where
  now : Time
  tables : Tables
  shares : Nat → List ResourceShare
  before : Tables
  returned : List Returned

/-- A row as a statement found it in the trash: how often it had been restored if it was
there by itself, and how often its dashboard had if it was there with its dashboard. -/
structure Seen where
  id : Nat
  own : Option Nat
  parent : Option Nat
  deriving DecidableEq, Repr

/-- One row change, or all those of one statement. A deletion carries the rows whose
deletion, or whose children's, it is. -/
inductive Write
  | remember
  | trash (ref : Ref) (moment : Time)
  | restoreDashboard (id : Nat)
  | restoreChild (kind : Kind) (id user : Nat)
  | deleteParts (kind : Kind) (seen : List Seen)
  | deleteChildren (kind : Kind) (seen : List Seen)
  | deleteWidgets (seen : List Seen)
  | deleteDashboards (seen : List Seen)

def Mark.trash (moment : Time) (mark : Mark) : Mark :=
  if mark.deletedAt.isNone then { mark with deletedAt := some moment } else mark

def Mark.restore (mark : Mark) : Mark := ⟨none, mark.restores + 1⟩

/-! ## Writes -/

namespace Tables

def mapDashboard (tables : Tables) (id : Nat) (change : DashboardRow → DashboardRow) : Tables :=
  { tables with
    dashboards := tables.dashboards.mapEntries fun key row => if key = id then change row else row }

def mapChild (tables : Tables) (kind : Kind) (id : Nat) (change : ChildRow → ChildRow) : Tables :=
  { tables with
    children := Function.update tables.children kind
      ((tables.children kind).mapEntries fun key row => if key = id then change row else row) }

def trash (tables : Tables) (moment : Time) : Ref → Tables
  | .dashboard id => tables.mapDashboard id fun row => { row with mark := row.mark.trash moment }
  | .child kind id => tables.mapChild kind id fun row => { row with mark := row.mark.trash moment }

def restoreDashboard (tables : Tables) (id : Nat) : Tables :=
  tables.mapDashboard id fun row => { row with mark := row.mark.restore }

def restoreChild (tables : Tables) (kind : Kind) (id user : Nat) : Tables :=
  tables.mapChild kind id fun row => { row with updatedBy := user, mark := row.mark.restore }

/-- The children of the given rows go. -/
def deleteParts (tables : Tables) (kind : Kind) (ids : List Nat) : Tables :=
  { tables with
    parts := Function.update tables.parts kind
      ((tables.parts kind).filterEntries fun _ parent => parent ∉ ids) }

/-- The rows go. An event takes its overrides with it, by `ON DELETE CASCADE`. -/
def deleteChildren (tables : Tables) (kind : Kind) (ids : List Nat) : Tables :=
  let rest := { tables with
    children := Function.update tables.children kind
      ((tables.children kind).filterEntries fun id _ => id ∉ ids) }
  match kind with
  | .list => rest
  | .event => rest.deleteParts .event ids

def deleteWidgets (tables : Tables) (ids : List Nat) : Tables :=
  { tables with widgets := tables.widgets.filterEntries fun _ dashboard => dashboard ∉ ids }

/-- The rows go, and their widgets by `ON DELETE CASCADE`. -/
def deleteDashboards (tables : Tables) (ids : List Nat) : Tables :=
  { tables with
    dashboards := tables.dashboards.filterEntries fun id _ => id ∉ ids }.deleteWidgets ids

/-- The lists or events a dashboard shows. -/
def shown (tables : Tables) (kind : Kind) (dashboard : Nat) : List Nat :=
  (tables.children kind).keysWhere fun _ row =>
    row.dashboardId = dashboard && row.mark.deletedAt.isNone

/-- What is there of a row and its parts. -/
def returning (tables : Tables) : Ref → Returned
  | .dashboard id => ⟨.dashboard id, tables.widgets.keysWhere fun _ parent => parent = id⟩
  | .child kind id => ⟨.child kind id, (tables.parts kind).keysWhere fun _ parent => parent = id⟩

/-- Whether putting the first row in the trash puts the second there. -/
def under (tables : Tables) : Ref → Ref → Bool
  | .dashboard id, .child kind child =>
      ((tables.children kind).get child).any fun row => row.dashboardId = id
  | ref, other => ref = other

end Tables

def ids (seen : List Seen) : List Nat := seen.map (·.id)

def Rows.perform (rows : Rows) : Write → Rows
  | .remember => { rows with before := rows.tables }
  | .trash ref moment =>
      { rows with
        tables := rows.tables.trash moment ref
        returned := rows.returned.filter fun row => !rows.tables.under ref row.ref }
  | .restoreDashboard id =>
      { rows with
        tables := rows.tables.restoreDashboard id
        returned := rows.returned ++ rows.tables.returning (.dashboard id) ::
          [Kind.list, Kind.event].flatMap fun kind =>
            (rows.tables.shown kind id).map fun child => rows.tables.returning (.child kind child) }
  | .restoreChild kind id user =>
      { rows with
        tables := rows.tables.restoreChild kind id user
        returned := rows.returned ++ [rows.tables.returning (.child kind id)] }
  | .deleteParts kind seen => { rows with tables := rows.tables.deleteParts kind (ids seen) }
  | .deleteChildren kind seen => { rows with tables := rows.tables.deleteChildren kind (ids seen) }
  | .deleteWidgets seen => { rows with tables := rows.tables.deleteWidgets (ids seen) }
  | .deleteDashboards seen => { rows with tables := rows.tables.deleteDashboards (ids seen) }

/-- Time passing. -/
def Rows.elapse (rows : Rows) (span : Nat) : Rows := { rows with now := rows.now + span }

/-! ## The statements -/

open ReadCommitted ReadCommitted.Program
open FrontDashboard.Membership (Time ResourceShare EffectiveRole effectiveRole isAtLeast Failure)

/-- Rows are locked one by one. -/
abbrev Handler := Program Rows Write Ref Failure

/-! ## What the statements select -/

/-- `Dashboard.deleted_at.is_not(None)`, answered with the row. -/
def trashedDashboard (caller id : Nat) (rows : Rows) : Option DashboardRow :=
  (rows.tables.dashboards.get id).filter fun row =>
    row.owner = caller && row.mark.deletedAt.isSome

def trashedChild (kind : Kind) (id : Nat) (rows : Rows) : Option ChildRow :=
  ((rows.tables.children kind).get id).filter fun row => row.mark.deletedAt.isSome

/-- `deleted_at < cutoff`. -/
def Mark.expired (cutoff : Time) (mark : Mark) : Bool := mark.deletedAt.any (· < cutoff)

/-- How often the dashboard was restored, if it is in the trash past the cutoff. -/
def expiredDashboard (cutoff : Time) (tables : Tables) (id : Nat) : Option Nat :=
  ((tables.dashboards.get id).filter fun row => row.mark.expired cutoff).map (·.mark.restores)

/-- `expired_dashboard_ids`. -/
def expiredDashboards (cutoff : Time) (rows : Rows) : List Seen :=
  (rows.tables.dashboards.keysWhere fun _ row => row.mark.expired cutoff).map fun id =>
    ⟨id, expiredDashboard cutoff rows.tables id, none⟩

/-- How often the row was restored, if it is in the trash past the cutoff by itself. -/
def expiredChild (cutoff : Time) (kind : Kind) (tables : Tables) (id : Nat) : Option Nat :=
  (((tables.children kind).get id).filter fun row => row.mark.expired cutoff).map
    (·.mark.restores)

/-- `doomed_lists` and `doomed_events`. -/
def doomed (cutoff : Time) (kind : Kind) (rows : Rows) : List Seen :=
  ((rows.tables.children kind).keysWhere fun _ row =>
      row.mark.expired cutoff || (expiredDashboard cutoff rows.tables row.dashboardId).isSome).map
    fun id => ⟨id, expiredChild cutoff kind rows.tables id,
      ((rows.tables.children kind).get id).bind fun row =>
        expiredDashboard cutoff rows.tables row.dashboardId⟩

/-- The `WHERE` clause once more, on a row that was waited for: its own columns are read
anew and its dashboard's are not. -/
def Seen.again (cutoff : Time) (kind : Kind) (rows : Rows) (seen : Seen) : Option Seen :=
  let own := expiredChild cutoff kind rows.tables seen.id
  if own.isSome || seen.parent.isSome then some { seen with own } else none

/-- `List.dashboard_id == dashboard.id`, of a dashboard read in the trash. -/
def ofDashboard (id restores : Nat) (kind : Kind) (rows : Rows) : List Seen :=
  ((rows.tables.children kind).keysWhere fun _ row => row.dashboardId = id).map fun child =>
    ⟨child, none, some restores⟩

/-- Whether a row still refers to one of the dashboards; such a reference forbids the
deletion. -/
def referredTo (seen : List Seen) (rows : Rows) : Bool :=
  [Kind.list, Kind.event].any fun kind =>
    !((rows.tables.children kind).keysWhere fun _ row => row.dashboardId ∈ ids seen).isEmpty

/-! ## Restoring -/

/-- `load_dashboard_access`. -/
def loadDashboardAccess (dashboardId user : Nat) : Handler EffectiveRole := do
  match ← query fun rows =>
      (rows.tables.dashboards.get dashboardId).filter (·.mark.deletedAt.isNone) with
  | none => raise ⟨404, "Dashboard not found"⟩
  | some dashboard => do
    let shares ← query fun rows => rows.shares dashboardId
    match effectiveRole dashboard.owner user shares with
    | none => raise ⟨404, "Not found"⟩
    | some role => pure role

/-- `assert_can_edit`. -/
def assertCanEdit (role : EffectiveRole) : Handler Unit :=
  if isAtLeast role .editor then pure () else raise ⟨403, "Editor access required"⟩

/-- The flush of a changed row, which fails if the row is gone, and the commit. -/
def commitRestored (ref : Ref) (write : Write) (isThere : Rows → Bool) : Handler Unit := do
  acquire ref
  let found ← updateReturning (fun _ => [write]) isThere
  if !found then raise ⟨500, "Internal Server Error"⟩ else commitTransaction

def restoreDashboard (caller id : Nat) : Handler Unit := do
  match ← query (trashedDashboard caller id) with
  | none => raise ⟨404, "Dashboard not found"⟩
  | some _ =>
    commitRestored (.dashboard id) (.restoreDashboard id)
      fun rows => (rows.tables.dashboards.get id).isSome

def Kind.detail : Kind → String
  | .list => "List not found"
  | .event => "Event not found"

/-- The row in the trash, for a caller who can edit its dashboard. -/
def loadTrashed (kind : Kind) (caller id : Nat) : Handler ChildRow := do
  match ← query (trashedChild kind id) with
  | none => raise ⟨404, kind.detail⟩
  | some row => do
    let role ← loadDashboardAccess row.dashboardId caller
    assertCanEdit role
    pure row

def restoreChild (kind : Kind) (caller id : Nat) : Handler Unit := do
  let _ ← loadTrashed kind caller id
  commitRestored (.child kind id) (.restoreChild kind id caller)
    fun rows => ((rows.tables.children kind).get id).isSome

def restoreList : (caller id : Nat) → Handler Unit := restoreChild .list

def restoreEvent : (caller id : Nat) → Handler Unit := restoreChild .event

/-! ## Purging -/

/-- A `DELETE` of lists or events: those found, as far as they still match once waited
for. -/
def deleteChildren (kind : Kind) (found : Rows → List Seen)
    (again : Rows → Seen → Option Seen) : Handler Unit := do
  let seen ← query found
  acquireAll (seen.map fun row => .child kind row.id)
  update fun rows => [.deleteChildren kind (seen.filterMap (again rows))]

/-- A `DELETE` of dashboards already waited for, and the commit. -/
def deleteDashboards (found : Rows → List Seen) : Handler Unit := do
  let referred ← updateReturning (fun rows => [.deleteDashboards (found rows)]) fun rows =>
    referredTo (found rows) rows
  if referred then raise ⟨500, "Internal Server Error"⟩ else commitTransaction

/-- `purge_dashboard` and the commit, of a dashboard read when it had been restored so
often. -/
def purgeDashboard (id restores : Nat) : Handler Unit := do
  update fun rows => [.remember, .deleteParts .list (ofDashboard id restores .list rows)]
  deleteChildren .list (ofDashboard id restores .list) fun _ => some
  deleteChildren .event (ofDashboard id restores .event) fun _ => some
  acquire (.dashboard id)
  deleteDashboards fun _ => [⟨id, some restores, none⟩]

def purgeTrashedDashboard (caller id : Nat) : Handler Unit := do
  match ← query (trashedDashboard caller id) with
  | none => raise ⟨404, "Dashboard not found"⟩
  | some row => purgeDashboard id row.mark.restores

/-- `purge_list` and the commit. -/
def purgeTrashedList (caller id : Nat) : Handler Unit := do
  let row ← loadTrashed .list caller id
  let seen : List Seen := [⟨id, some row.mark.restores, none⟩]
  update fun _ => [.remember, .deleteParts .list seen]
  acquire (.child .list id)
  update fun _ => [.deleteChildren .list seen]
  commitTransaction

def purgeTrashedEvent (caller id : Nat) : Handler Unit := do
  let row ← loadTrashed .event caller id
  acquire (.child .event id)
  update fun _ => [.remember, .deleteChildren .event [⟨id, some row.mark.restores, none⟩]]
  commitTransaction

/-- `reap_expired_trash` and the commit. -/
def reapExpiredTrash (retention : Time) : Handler Unit := do
  let now ← query (·.now)
  let cutoff := now - retention
  update fun rows => [.remember, .deleteParts .list (doomed cutoff .list rows)]
  deleteChildren .list (doomed cutoff .list) (Seen.again cutoff .list)
  deleteChildren .event (doomed cutoff .event) (Seen.again cutoff .event)
  update fun rows => [.deleteWidgets (expiredDashboards cutoff rows)]
  let seen ← query (expiredDashboards cutoff)
  acquireAll (seen.map fun row => .dashboard row.id)
  deleteDashboards fun rows =>
    (expiredDashboards cutoff rows).filter fun row => row.id ∈ ids seen

/-! ## The service -/

/-- A row that is not in the trash is put there. -/
def trash (ref : Ref) : Handler Unit := do
  acquire ref
  update fun rows => [.trash ref rows.now]
  commitTransaction

inductive Request
  | trash (ref : Ref)
  | restoreDashboard (caller id : Nat)
  | restoreList (caller id : Nat)
  | restoreEvent (caller id : Nat)
  | purgeTrashedDashboard (caller id : Nat)
  | purgeTrashedList (caller id : Nat)
  | purgeTrashedEvent (caller id : Nat)
  | reapExpiredTrash

def handler (retention : Time) : Request → Handler Unit
  | .trash ref => trash ref
  | .restoreDashboard caller id => restoreDashboard caller id
  | .restoreList caller id => restoreList caller id
  | .restoreEvent caller id => restoreEvent caller id
  | .purgeTrashedDashboard caller id => purgeTrashedDashboard caller id
  | .purgeTrashedList caller id => purgeTrashedList caller id
  | .purgeTrashedEvent caller id => purgeTrashedEvent caller id
  | .reapExpiredTrash => reapExpiredTrash retention

/-- Any rows, with nothing on record. -/
structure Rows.Initial (rows : Rows) : Prop where
  before : rows.before = rows.tables
  returned : rows.returned = []

/-- The routes as a service; time passes outside the requests. -/
def service (retention : Time) : Service Rows Write Ref Failure Unit Request Nat where
  perform := Rows.perform
  handler := fun _ => handler retention
  environment := Rows.elapse
  Initial := Rows.Initial

end FrontDashboard.Trash
