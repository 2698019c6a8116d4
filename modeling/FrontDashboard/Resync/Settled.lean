import FrontDashboard.Resync.Histories
import FrontDashboard.Resync.Scopes

/-! # What nothing announces

What a resource reads beside the rows that the events of its own kind tell of: which
dashboards its user sees, the versions of boards, which a deleted list raises, and where
the lists stand. A resource is settled when these are at the end what they were at first.
-/

namespace FrontDashboard.Resync

open Calendar (EventId listOccurrences)
open FrontDashboard.Lists (ListId)
open Lists.Page (ListRow Reminder fetchAgendaReminders)
open FrontDashboard.Membership (effectiveRole)

namespace Tables

variable (user : UserId) (tables : Tables)

/-- The user sees a dashboard. -/
def Sees (id : DashboardId) : Prop := id ∈ tables.listAccessibleDashboardIds user

/-- The user sees a dashboard in a version. -/
def Shows (id : DashboardId) (version : Int) : Prop :=
  ∃ row ∈ tables.dashboards, tables.Accessible user row ∧ row.id = id ∧ row.version = version

/-- The user sees other dashboards, but not this one. -/
def Refuses (id : DashboardId) : Prop :=
  tables.listAccessibleDashboardIds user ≠ [] ∧ ¬ tables.Sees user id

instance (id : DashboardId) : Decidable (tables.Sees user id) :=
  inferInstanceAs (Decidable (id ∈ tables.listAccessibleDashboardIds user))

instance (id : DashboardId) : Decidable (tables.Refuses user id) :=
  inferInstanceAs (Decidable (_ ∧ _))

/-- The user sees a list on a dashboard, at a place and as of a moment. -/
def Places (id : DashboardId) (list : ListId) (order : Nat) (moment : Time) : Prop :=
  tables.Sees user id ∧ ∃ row ∈ tables.lists.live id,
    row.id = list ∧ row.sortOrder = order ∧ row.updatedAt = moment

/-- The user sees an event. -/
def Reads (id : EventId) : Prop :=
  ∃ event, tables.calendar.liveEvent id = some event ∧ tables.Sees user event.dashboardId

/-- The reminders of one list. -/
def due (today : Nat) (row : ListRow) : List Reminder :=
  fetchAgendaReminders today [tables.detail row]

/-- The lists of a dashboard that have reminders, in their order. -/
def remindedLists (today : Nat) (id : DashboardId) : List ListId :=
  ((tables.orderedLists id).filter fun row => ¬ (tables.due today row).isEmpty).map ListRow.id

end Tables

/-- What nothing announces of a resource is as it was. -/
def Settled (context : Context) (user : UserId) (before after : Tables) : Resource → Prop
  | .summaries => ∀ id version, before.Shows user id version ↔ after.Shows user id version
  | .dashboard id => ∀ version, before.Shows user id version ↔ after.Shows user id version
  | .members id => before.Sees user id ↔ after.Sees user id
  | .listSummaries id => (before.Refuses user id ↔ after.Refuses user id) ∧
      ∀ list order moment,
        before.Places user id list order moment ↔ after.Places user id list order moment
  | .listDetail list => ∀ id order moment,
      before.Places user id list order moment ↔ after.Places user id list order moment
  | .reminders id => (before.Sees user id ↔ after.Sees user id) ∧
      (after.Sees user id →
        before.remindedLists context.today id = after.remindedLists context.today id)
  | .occurrences id windowStart windowEnd =>
      let listed := fun visible => (listOccurrences context.zoneInfo context.lower
        before.calendar visible id windowStart windowEnd).toOption
      listed (before.listAccessibleDashboardIds user) = listed
        (after.listAccessibleDashboardIds user)
  | .event id => before.Reads user id ↔ after.Reads user id

theorem Settled.refl (context : Context) (user : UserId) (tables : Tables) (resource : Resource) :
    Settled context user tables tables resource := by
  cases resource <;> simp [Settled]

/-! ## Who sees a dashboard -/

section Access

variable {user : UserId} {tables : Tables} {id : DashboardId}

theorem sees_iff : tables.Sees user id ↔
    ∃ row ∈ tables.dashboards, tables.Accessible user row ∧ row.id = id := by
  simp [Tables.Sees, Tables.listAccessibleDashboardIds, and_assoc]

theorem Tables.Shows.sees {version : Int} (shows : tables.Shows user id version) :
    tables.Sees user id := by
  obtain ⟨row, listed, accessible, named, -⟩ := shows
  exact sees_iff.mpr ⟨row, listed, accessible, named⟩

namespace Tables.Constrained

variable (constrained : tables.Constrained)
include constrained

theorem row_eq {row other : Dashboard} (listed : row ∈ tables.dashboards)
    (listed' : other ∈ tables.dashboards) (same : row.id = other.id) : row = other :=
  List.inj_on_of_nodup_map constrained.dashboards listed listed' same

/-- A row is accessible when its dashboard is seen. -/
theorem accessible_iff {row : Dashboard} (listed : row ∈ tables.dashboards) :
    tables.Accessible user row ↔ tables.Sees user row.id := by
  rw [sees_iff]
  constructor
  · exact fun accessible => ⟨row, listed, accessible, rfl⟩
  · rintro ⟨other, listed', accessible, named⟩
    exact constrained.row_eq listed' listed named ▸ accessible

theorem dashboard?_eq_some {row : Dashboard} (listed : row ∈ tables.dashboards)
    (live : row.deletedAt = none) : tables.dashboard? row.id = some row :=
  (KeyedRows.find?_eq_some_iff constrained.dashboards fun _ passes =>
    (of_decide_eq_true passes).1).mpr ⟨listed, decide_eq_true ⟨rfl, live⟩⟩

/-- The access to a dashboard that is seen. -/
theorem loadDashboardAccess_row {row : Dashboard} (listed : row ∈ tables.dashboards)
    (accessible : tables.Accessible user row) :
    ∃ role, effectiveRole row.userId user (tables.shares row.id) = some role ∧
      tables.loadDashboardAccess row.id user = .ok (row, tables.shares row.id, role) := by
  have member : user ∈ Membership.members row.userId (tables.shares row.id) := by
    rcases accessible.2 with owns | ⟨share, held, named⟩
    · exact owns ▸ List.mem_cons_self
    · exact List.mem_cons_of_mem _ (named ▸ List.mem_map_of_mem held)
  obtain ⟨role, known⟩ := Option.isSome_iff_exists.mp (Membership.effectiveRole_isSome.mpr member)
  refine ⟨role, known, ?_⟩
  rw [Tables.loadDashboardAccess, constrained.dashboard?_eq_some listed accessible.1]
  dsimp only
  rw [known]

end Tables.Constrained

/-- Nothing is loaded of a dashboard that is not seen. -/
theorem loadDashboardAccess_of_not_sees (unseen : ¬ tables.Sees user id) :
    ∃ error, tables.loadDashboardAccess id user = .error error := by
  cases loaded : tables.loadDashboardAccess id user with
  | error error => exact ⟨error, rfl⟩
  | ok access =>
      obtain ⟨row, shares, role⟩ := access
      obtain ⟨⟨found, known⟩, rfl, -⟩ := Tables.of_loadDashboardAccess loaded
      obtain ⟨listed, named, live⟩ := Tables.of_dashboard? found
      have member := Membership.effectiveRole_isSome.mp (Option.isSome_iff_exists.mpr ⟨role, known⟩)
      refine absurd (sees_iff.mpr ⟨row, listed, ⟨live, ?_⟩, named⟩) unseen
      rcases List.mem_cons.mp member with owns | shared
      · exact .inl owns.symm
      · obtain ⟨share, held, here⟩ := List.mem_map.mp shared
        exact .inr ⟨share, held, here⟩

end Access

end FrontDashboard.Resync
