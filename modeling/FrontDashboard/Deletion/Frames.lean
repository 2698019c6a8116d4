import FrontDashboard.Deletion.Routes
import Mathlib.Data.List.Nodup

/-! # What requests leave alone

A request changes dashboards, their share rows and the accounts that it gives dashboards to
under their locks. So what a deletion leaves of its account, every other request leaves.
-/

namespace FrontDashboard.Deletion

open ReadCommitted
open Links (User)

/-- What a deletion leaves of its account. -/
structure Clear (rows : Rows) (departure : Departure) : Prop where
  gone : rows.tombstoned departure.user = true
  dashboardIds : departure.dashboardsRead ≤ rows.nextDashboardId
  shareIds : departure.sharesDeleted ≤ rows.nextShareId
  owns : ∀ dashboard ∈ rows.dashboards, dashboard.userId = departure.user →
    dashboard.createdBy = departure.user ∧ departure.dashboardsRead ≤ dashboard.id
  holds : ∀ share ∈ rows.shares, share.principal = departure.user →
    departure.sharesDeleted ≤ share.id

/-- The dashboard was nobody else's, or came when the others were locked. -/
def Removal.Fair (removal : Removal) : Prop :=
  removal.dashboard.deletedAt = none → removal.others ≠ [] →
    removal.dashboard.createdBy = removal.account ∧ removal.locked ≤ removal.dashboard.id

structure Numbered (rows : Rows) : Prop where
  ids : (rows.dashboards.map (·.id)).Nodup
  before : ∀ dashboard ∈ rows.dashboards, dashboard.id < rows.nextDashboardId

/-- What holds between requests. -/
structure Settled (rows : Rows) : Prop where
  numbered : Numbered rows
  departed : ∀ departure ∈ rows.departures, Clear rows departure
  removed : ∀ removal ∈ rows.removals, removal.Fair

/-! ## What others leave alone -/

/-- A dashboard was there before, or is new. It changes hands only to an account that is
not locked. -/
def Descends (held : Set Lock) (before : Rows) (new : Dashboard) : Prop :=
  (∃ old ∈ before.dashboards, old.id = new.id ∧ old.createdBy = new.createdBy ∧
    (new.userId = old.userId ∨ .account new.userId ∉ held)) ∨
  (before.nextDashboardId ≤ new.id ∧
    (new.userId = new.createdBy ∨ .account new.userId ∉ held))

/-- What a request that holds some locks can rely on. -/
structure Relies (held : Set Lock) (before after : Rows) : Prop where
  gone : ∀ user, before.tombstoned user = true → after.tombstoned user = true
  live : ∀ user, .account user ∈ held → (before.liveUser? user).isSome = true →
    (after.liveUser? user).isSome = true
  dashboardIds : before.nextDashboardId ≤ after.nextDashboardId
  shareIds : before.nextShareId ≤ after.nextShareId
  owners : ∀ new ∈ after.dashboards, Descends held before new
  dashboards : ∀ new ∈ after.dashboards, new.id < before.nextDashboardId →
    .dashboard new.id ∈ held → new ∈ before.dashboards
  shares : ∀ new ∈ after.shares,
    new.id < before.nextShareId ∨ .dashboard new.resourceId ∈ held →
      ∃ old ∈ before.shares, old.id = new.id ∧ old.principal = new.principal ∧
        old.resourceId = new.resourceId

/-- Nothing has changed. -/
theorem Relies.refl (held : Set Lock) (rows : Rows) : Relies held rows rows where
  gone := fun _ gone => gone
  live := fun _ _ live => live
  dashboardIds := le_rfl
  shareIds := le_rfl
  owners := fun new present => .inl ⟨new, present, rfl, rfl, .inl rfl⟩
  dashboards := fun _ present _ _ => present
  shares := fun new present _ => ⟨new, present, rfl, rfl, rfl⟩

/-- What stems from rows that stem from earlier ones stems from these. -/
theorem Descends.trans {held : Set Lock} {first second : Rows} (ids : first.nextDashboardId ≤
    second.nextDashboardId) (earlier : ∀ new ∈ second.dashboards, Descends held first new)
    {new : Dashboard} (later : Descends held second new) : Descends held first new := by
  rcases later with ⟨middle, between, sameId, sameBy, owned⟩ | ⟨fresh, owned⟩
  · have step := earlier middle between
    unfold Descends at step ⊢
    rw [sameId, sameBy] at step
    rcases owned with same | free
    · rwa [same]
    · rcases step with ⟨old, before, oldId, oldBy, -⟩ | ⟨newer, -⟩
      · exact .inl ⟨old, before, oldId, oldBy, .inr free⟩
      · exact .inr ⟨newer, .inr free⟩
  · exact .inr ⟨ids.trans fresh, owned⟩

/-- What is relied on holds over two stretches. -/
theorem Relies.trans {held : Set Lock} {first second third : Rows}
    (earlier : Relies held first second) (later : Relies held second third) :
    Relies held first third where
  gone := fun user before => later.gone user (earlier.gone user before)
  live := fun user locked before => later.live user locked (earlier.live user locked before)
  dashboardIds := earlier.dashboardIds.trans later.dashboardIds
  shareIds := earlier.shareIds.trans later.shareIds
  owners := fun new present =>
    (later.owners new present).trans earlier.dashboardIds earlier.owners
  dashboards := by
    intro new present known locked
    have between := later.dashboards new present (known.trans_le earlier.dashboardIds) locked
    exact earlier.dashboards new between known locked
  shares := by
    intro new present known
    have knownThen : new.id < second.nextShareId ∨ Lock.dashboard new.resourceId ∈ held :=
      known.imp_left fun before => before.trans_le earlier.shareIds
    obtain ⟨middle, between, sameId, samePrincipal, sameResource⟩ :=
      later.shares new present knownThen
    rw [← sameId, ← sameResource] at known
    obtain ⟨old, before, oldId, oldPrincipal, oldResource⟩ := earlier.shares middle between known
    exact ⟨old, before, oldId.trans sameId, oldPrincipal.trans samePrincipal,
      oldResource.trans sameResource⟩

/-- Who holds fewer locks relies on less. -/
theorem Relies.fewer {held fewer : Set Lock} (subset : fewer ⊆ held) {before after : Rows}
    (relies : Relies held before after) : Relies fewer before after where
  gone := relies.gone
  live := fun user locked => relies.live user (subset locked)
  dashboardIds := relies.dashboardIds
  shareIds := relies.shareIds
  owners := by
    intro new present
    have free : Lock.account new.userId ∉ held → Lock.account new.userId ∉ fewer :=
      fun free locked => free (subset locked)
    rcases relies.owners new present with ⟨old, before, sameId, sameBy, owned⟩ | ⟨newer, owned⟩
    · exact .inl ⟨old, before, sameId, sameBy, owned.imp_right free⟩
    · exact .inr ⟨newer, owned.imp_right free⟩
  dashboards := fun new present known locked =>
    relies.dashboards new present known (subset locked)
  shares := fun new present known =>
    relies.shares new present (known.imp_right fun locked => subset locked)

/-- What a deletion leaves, everybody leaves who gives the account no dashboard. -/
theorem Clear.relies {before after : Rows} {departure : Departure} (clear : Clear before departure)
    (relies : Relies {.account departure.user} before after) : Clear after departure where
  gone := relies.gone _ clear.gone
  dashboardIds := clear.dashboardIds.trans relies.dashboardIds
  shareIds := clear.shareIds.trans relies.shareIds
  owns := by
    intro new present own
    have locked : ¬ Lock.account new.userId ∉ ({.account departure.user} : Set Lock) := by
      rw [own]
      exact not_not_intro rfl
    rcases relies.owners new present with ⟨old, there, sameId, sameBy, owned⟩ | ⟨newer, owned⟩
    · have same := owned.resolve_right locked
      rw [← sameId, ← sameBy]
      exact clear.owns old there (same.symm.trans own)
    · have created := owned.resolve_right locked
      exact ⟨created.symm.trans own, clear.dashboardIds.trans newer⟩
  holds := by
    intro new present own
    by_cases known : new.id < before.nextShareId
    · obtain ⟨old, there, sameId, samePrincipal, -⟩ := relies.shares new present (.inl known)
      rw [← sameId]
      exact clear.holds old there (samePrincipal.trans own)
    · exact clear.shareIds.trans (Nat.le_of_not_lt known)

/-! ## Writes -/

/-- Somebody else who holds these locks is not concerned. -/
def Write.Free (others : Set Lock) : Write → Prop
  | .setOwner dashboard user => .dashboard dashboard ∉ others ∧ .account user ∉ others
  | .upsertShare dashboard _ _ _ => .dashboard dashboard ∉ others
  | .tombstone departure _ => .account departure.user ∉ others
  | _ => True

variable {rows : Rows} {others held : Set Lock}

/-- What others rely on holds where dashboards and share rows only go. -/
theorem relies_of_sublists {after : Rows} (users : after.users = rows.users)
    (dashboards : ∀ dashboard ∈ after.dashboards, dashboard ∈ rows.dashboards)
    (shares : ∀ share ∈ after.shares, share ∈ rows.shares)
    (dashboardIds : after.nextDashboardId = rows.nextDashboardId)
    (shareIds : after.nextShareId = rows.nextShareId) : Relies others rows after where
  gone := by
    intro user gone
    rwa [Rows.tombstoned, Rows.user?, users]
  live := by
    intro user _ live
    rwa [Rows.liveUser?, Rows.user?, users]
  dashboardIds := dashboardIds.ge
  shareIds := shareIds.ge
  owners := fun new present => .inl ⟨new, dashboards new present, rfl, rfl, .inl rfl⟩
  dashboards := fun new present _ _ => dashboards new present
  shares := fun new present _ => ⟨new, shares new present, rfl, rfl, rfl⟩

/-- What others rely on holds where a dashboard is added. -/
theorem relies_insertDashboard (user : UserId) (name : String) :
    Relies others rows (rows.perform (.insertDashboard user name)) :=
  { Relies.refl others rows with
    dashboardIds := Nat.le_succ _
    owners := by
      intro new present
      rcases List.mem_append.mp present with before | added
      · exact (Relies.refl others rows).owners new before
      · rw [List.mem_singleton.mp added]
        exact .inr ⟨le_rfl, .inl rfl⟩
    dashboards := by
      intro new present known _
      rcases List.mem_append.mp present with before | added
      · exact before
      · rw [List.mem_singleton.mp added] at known
        exact absurd known (lt_irrefl _) }

/-- A dashboard may change hands where its row and its new owner are not locked. -/
theorem relies_setOwner {dashboard : DashboardId} {user : UserId}
    (row : .dashboard dashboard ∉ others) (account : .account user ∉ others) :
    Relies others rows (rows.perform (.setOwner dashboard user)) :=
  { Relies.refl others rows with
    owners := by
      intro new present
      obtain ⟨old, before, rfl⟩ := List.mem_map.mp present
      refine .inl ⟨old, before, ?_⟩
      split
      · exact ⟨rfl, rfl, .inr account⟩
      · exact ⟨rfl, rfl, .inl rfl⟩
    dashboards := by
      intro new present _ locked
      obtain ⟨old, before, rfl⟩ := List.mem_map.mp present
      split at locked
      next same =>
        rw [← same] at row
        exact absurd locked row
      next different =>
        rw [if_neg different]
        exact before }

/-- A share row may be written of a dashboard that is not locked. -/
theorem relies_upsertShare {dashboard : DashboardId} {principal grantedBy : UserId}
    {role : Membership.ShareRole} (row : .dashboard dashboard ∉ others) :
    Relies others rows (rows.perform (.upsertShare dashboard principal role grantedBy)) := by
  rw [Rows.perform, Rows.upsertShare]
  split
  · exact { Relies.refl others rows with
      shares := by
        intro new present _
        obtain ⟨old, before, rfl⟩ := List.mem_map.mp present
        refine ⟨old, before, ?_⟩
        split <;> exact ⟨rfl, rfl, rfl⟩ }
  · exact { Relies.refl others rows with
      shareIds := Nat.le_succ _
      shares := by
        intro new present known
        rcases List.mem_append.mp present with before | added
        · exact ⟨new, before, rfl, rfl, rfl⟩
        · rw [List.mem_singleton.mp added] at known
          rcases known with newer | locked
          · exact absurd newer (lt_irrefl _)
          · exact absurd locked row }

/-! ## Accounts -/

/-- A deletion marks the row of its account. -/
theorem user?_tombstone (departure : Departure) (moment : Membership.Time) (id : UserId) :
    (rows.perform (.tombstone departure moment)).user? id =
      (rows.user? id).map fun user =>
        if user.id = departure.user then user.tombstone moment else user := by
  rw [Rows.user?, Rows.user?, Rows.perform, List.find?_map]
  congr 2
  funext user
  simp only [Function.comp_apply]
  split <;> rfl

theorem user?_id {id : UserId} {user : User} (found : rows.user? id = some user) :
    user.id = id := by
  have named := List.find?_some found
  exact of_decide_eq_true named

/-- The account is deleted then. -/
theorem tombstoned_tombstone_self {departure : Departure} {moment : Membership.Time}
    (live : (rows.liveUser? departure.user).isSome = true) :
    (rows.perform (.tombstone departure moment)).tombstoned departure.user = true := by
  obtain ⟨user, found⟩ := Option.isSome_iff_exists.mp live
  obtain ⟨present, -⟩ := Option.filter_eq_some_iff.mp found
  rw [Rows.tombstoned, user?_tombstone, present, Option.map_some, if_pos (user?_id present)]
  rfl

/-- Others may rely on an account while they hold its lock. -/
theorem relies_tombstone {departure : Departure} {moment : Membership.Time}
    (account : .account departure.user ∉ others) :
    Relies others rows (rows.perform (.tombstone departure moment)) :=
  { Relies.refl others rows with
    gone := by
      intro user gone
      obtain ⟨row, found, deleted⟩ := (Option.any_eq_true _ _).mp gone
      rw [Rows.tombstoned, user?_tombstone, found, Option.map_some, Option.any_some]
      split
      · rfl
      · exact deleted
    live := by
      intro user locked live
      obtain ⟨row, found⟩ := Option.isSome_iff_exists.mp live
      obtain ⟨present, lives⟩ := Option.filter_eq_some_iff.mp found
      have different : row.id ≠ departure.user := by
        rw [user?_id present]
        intro same
        rw [← same] at account
        exact account locked
      rw [Rows.liveUser?, user?_tombstone, present, Option.map_some, if_neg different]
      exact Option.isSome_iff_exists.mpr ⟨row, Option.filter_eq_some_iff.mpr ⟨rfl, lives⟩⟩ }

/-- An account that lives is not deleted. -/
theorem not_tombstoned_of_live {user : UserId} (live : (rows.liveUser? user).isSome = true) :
    rows.tombstoned user = false := by
  obtain ⟨row, found⟩ := Option.isSome_iff_exists.mp live
  obtain ⟨present, lives⟩ := Option.filter_eq_some_iff.mp found
  rw [Rows.tombstoned, present, Option.any_some, Option.isSome_eq_false_iff]
  exact lives

/-- **Frame.** A write concerns only those who hold a lock of what it changes. -/
theorem relies_perform {write : Write} (free : write.Free others) :
    Relies others rows (rows.perform write) := by
  cases write with
  | insertDashboard user name => exact relies_insertDashboard user name
  | setOwner dashboard user => exact relies_setOwner free.1 free.2
  | upsertShare dashboard principal role grantedBy => exact relies_upsertShare free
  | tombstone departure moment => exact relies_tombstone free
  | deleteShares ids =>
      exact relies_of_sublists rfl (fun _ => id) (fun _ => List.mem_of_mem_filter) rfl rfl
  | deleteDashboard dashboard account locked =>
      exact relies_of_sublists rfl (fun _ => List.mem_of_mem_filter)
        (fun _ => List.mem_of_mem_filter) rfl rfl
  | insertInvite invite => exact relies_of_sublists rfl (fun _ => id) (fun _ => id) rfl rfl
  | useInvite code user moment => exact relies_of_sublists rfl (fun _ => id) (fun _ => id) rfl rfl
  | deleteInvites codes => exact relies_of_sublists rfl (fun _ => id) (fun _ => id) rfl rfl

/-- Writes that need no lock that others hold keep what these rely on. -/
theorem relies_performAll {writes : List Write} (free : ∀ write ∈ writes, write.Free others)
    (rows : Rows) : Relies others rows (performAll Rows.perform rows writes) := by
  induction writes generalizing rows with
  | nil => exact .refl others rows
  | cons write rest ih =>
      obtain ⟨first, later⟩ := List.forall_mem_cons.mp free
      exact (relies_perform first).trans (ih later _)

/-! ## Requests -/

/-- A request that deletes no account changes rows under their locks, and gives dashboards
to live accounts only. -/
def Write.Ordinary (held : Set Lock) (rows : Rows) : Write → Prop
  | .setOwner dashboard user =>
      .dashboard dashboard ∈ held ∧ .account user ∈ held ∧ (rows.liveUser? user).isSome = true
  | .upsertShare dashboard _ _ _ => .dashboard dashboard ∈ held
  | .deleteDashboard .. => False
  | .tombstone .. => False
  | _ => True

/-- An ordinary write needs only locks of its own request. -/
theorem Write.Ordinary.free {write : Write} (ordinary : write.Ordinary held rows)
    (apart : Disjoint held others) : write.Free others := by
  have excluded : ∀ {key}, key ∈ held → key ∉ others := fun own => Set.disjoint_left.mp apart own
  cases write with
  | setOwner dashboard user => exact ⟨excluded ordinary.1, excluded ordinary.2.1⟩
  | upsertShare dashboard principal role grantedBy => exact excluded ordinary
  | tombstone departure moment => exact ordinary.elim
  | _ => trivial

/-- A deleted account is given nothing. -/
theorem Write.Ordinary.spares {write : Write} (ordinary : write.Ordinary held rows)
    {departure : Departure} (clear : Clear rows departure) :
    write.Free {.account departure.user} := by
  cases write with
  | setOwner dashboard user =>
      refine ⟨Lock.noConfusion, ?_⟩
      intro same
      have gone := clear.gone
      rw [← Lock.account.inj same, not_tombstoned_of_live ordinary.2.2] at gone
      cases gone
  | upsertShare dashboard principal role grantedBy => exact Lock.noConfusion
  | tombstone departure moment => exact ordinary.elim
  | _ => trivial

/-! ## What stands between requests -/

/-- A dashboard is the only one of its id. -/
theorem Numbered.eq_of_id (numbered : Numbered rows) {dashboard other : Dashboard}
    (present : dashboard ∈ rows.dashboards) (there : other ∈ rows.dashboards)
    (same : dashboard.id = other.id) : dashboard = other :=
  List.inj_on_of_nodup_map numbered.ids present there same

/-- Fewer dashboards are as well numbered. -/
theorem Numbered.of_sublist (numbered : Numbered rows) {after : Rows}
    (sublist : after.dashboards.Sublist rows.dashboards)
    (next : after.nextDashboardId = rows.nextDashboardId) : Numbered after where
  ids := numbered.ids.sublist (sublist.map _)
  before := by
    intro dashboard present
    rw [next]
    exact numbered.before dashboard (sublist.subset present)

/-- Every write keeps the dashboards numbered. -/
theorem Numbered.perform (numbered : Numbered rows) (write : Write) :
    Numbered (rows.perform write) := by
  cases write with
  | insertDashboard user name =>
      have fresh : rows.nextDashboardId ∉ rows.dashboards.map (·.id) := by
        intro taken
        obtain ⟨dashboard, present, same⟩ := List.mem_map.mp taken
        exact (numbered.before dashboard present).ne same
      constructor
      · rw [Rows.perform, List.map_append, List.map_singleton, ← List.concat_eq_append]
        exact List.Nodup.concat fresh numbered.ids
      · intro dashboard present
        rcases List.mem_append.mp present with before | added
        · exact (numbered.before dashboard before).trans (Nat.lt_succ_self _)
        · rw [List.mem_singleton.mp added]
          exact Nat.lt_succ_self _
  | setOwner dashboard user =>
      have same : ∀ row : Dashboard,
          (if row.id = dashboard then { row with userId := user } else row).id = row.id := by
        intro row
        split <;> rfl
      have ids : (rows.perform (.setOwner dashboard user)).dashboards.map (·.id) =
          rows.dashboards.map (·.id) := by
        rw [Rows.perform, List.map_map]
        exact List.map_congr_left fun row _ => same row
      constructor
      · rw [ids]
        exact numbered.ids
      · intro row present
        obtain ⟨old, before, rfl⟩ := List.mem_map.mp present
        rw [same]
        exact numbered.before old before
  | upsertShare dashboard principal role grantedBy =>
      rw [Rows.perform, Rows.upsertShare]
      split <;> exact numbered.of_sublist (.refl _) rfl
  | deleteDashboard dashboard account locked => exact numbered.of_sublist List.filter_sublist rfl
  | _ => exact numbered.of_sublist (.refl _) rfl

theorem Numbered.performAll (numbered : Numbered rows) (writes : List Write) :
    Numbered (performAll Rows.perform rows writes) := by
  induction writes generalizing rows with
  | nil => exact numbered
  | cons write rest ih => exact ih (numbered.perform write)

/-- No other request deletes. -/
theorem recorded_performAll {writes : List Write} (ordinary : ∀ write ∈ writes,
    write.Ordinary held rows) (later : Rows) :
    (performAll Rows.perform later writes).departures = later.departures ∧
      (performAll Rows.perform later writes).removals = later.removals := by
  induction writes generalizing later with
  | nil => exact ⟨rfl, rfl⟩
  | cons write rest ih =>
      obtain ⟨first, others⟩ := List.forall_mem_cons.mp ordinary
      obtain ⟨departures, removals⟩ := ih others (later.perform write)
      have kept : (later.perform write).departures = later.departures ∧
          (later.perform write).removals = later.removals := by
        cases write with
        | upsertShare dashboard principal role grantedBy =>
            rw [Rows.perform, Rows.upsertShare]
            split <;> exact ⟨rfl, rfl⟩
        | deleteDashboard dashboard account locked => exact first.elim
        | tombstone departure moment => exact first.elim
        | _ => exact ⟨rfl, rfl⟩
      exact ⟨departures.trans kept.1, removals.trans kept.2⟩

/-- Ordinary writes keep the rows settled. -/
theorem Settled.performAll (settled : Settled rows) {writes : List Write}
    (ordinary : ∀ write ∈ writes, write.Ordinary held rows) :
    Settled (performAll Rows.perform rows writes) where
  numbered := settled.numbered.performAll writes
  departed := by
    intro departure present
    rw [(recorded_performAll ordinary rows).1] at present
    have clear := settled.departed departure present
    exact clear.relies
      (relies_performAll (fun write member => (ordinary write member).spares clear) _)
  removed := by
    rw [(recorded_performAll ordinary rows).2]
    exact settled.removed

/-- Requests keep what stands, and change dashboards, their share rows and the accounts that
they are given to under locks. -/
def settling : Interference Rows Lock where
  invariant := Settled
  rely := Relies
  refl := Relies.refl
  trans := fun _ _ _ _ => Relies.trans

/-- The program keeps what stands, started in a given transaction. -/
abbrev Kept {α : Type} (post : α → List Write → Set Lock → Rows → Prop) (program : Handler α)
    (pending : List Write) (held : Set Lock) (rows : Rows) : Prop :=
  Ensures Rows.perform settling (fun _ _ => True) post program pending held rows

/-- A commit of ordinary writes keeps what stands. -/
theorem kept_commit {pending : List Write}
    (ordinary : ∀ later, Relies held rows later →
      ∀ write ∈ pending, write.Ordinary held later) :
    Kept (fun _ _ _ _ => True) Program.commitTransaction pending held rows := by
  apply Ensures.commitTransaction
  intro later relied settled _
  have ordinaryThen := ordinary later relied
  refine ⟨settled.performAll ordinaryThen, fun others apart => ?_, trivial⟩
  exact relies_performAll (fun write member => (ordinaryThen write member).free apart) later

/-- Finding the user writes nothing. -/
theorem kept_getCurrentUser (caller : UserId) (rows : Rows) :
    Kept (fun _ pending _ _ => pending = []) (getCurrentUser caller) [] ∅ rows := by
  apply Ensures.query
  intro asked _ _
  split
  next => trivial
  next => exact rfl

/-- Loading the access writes nothing. -/
theorem kept_loadDashboardAccess (id : DashboardId) (user : UserId) (rows : Rows) :
    Kept (fun _ pending _ _ => pending = []) (loadDashboardAccess id user) [] held rows := by
  apply Ensures.query
  intro asked _ _
  split
  next => trivial
  next dashboard =>
    apply Ensures.query
    intro listed _ _
    split
    next => trivial
    next => exact rfl

/-- An account that is locked lives from then on. -/
theorem kept_lockLiveUser (user : UserId) (rows : Rows) :
    Kept (fun found pending holds later => pending = [] ∧ .account user ∈ holds ∧ held ⊆ holds ∧
        (found.isSome = true → (later.liveUser? user).isSome = true))
      (lockLiveUser user) [] held rows := by
  apply Ensures.acquire
  intro locked _ _ later _ _
  exact ⟨rfl, Set.mem_insert _ _, Set.subset_insert _ _, id⟩

/-- A share row is deleted by its id. -/
theorem kept_deleteShare (id : Nat) (pending : List Write) (rows : Rows) :
    Kept (fun _ after holds later => after = pending ++ [.deleteShares [id]] ∧ held ⊆ holds ∧
        Relies held rows later)
      (deleteShare id) pending held rows := by
  apply Ensures.acquire
  intro locked toLocked _ deleted toDeleted _
  have more := Set.subset_insert (Lock.share id) held
  exact ⟨rfl, more, toLocked.trans (Relies.fewer more toDeleted)⟩

/-- Creating a dashboard is ordinary. -/
theorem kept_createDashboard (settings : Settings) (caller : UserId) (name : String)
    (rows : Rows) :
    Kept (fun _ _ _ _ => True) (createDashboard settings caller name) [] ∅ rows := by
  apply Ensures.bind _ (kept_getCurrentUser caller rows)
  rintro _ _ held asked rfl
  apply Ensures.query
  intro counted _ _
  split
  · trivial
  apply Ensures.update
  intro inserted _ _
  apply kept_commit
  intro later _ write member
  rw [List.mem_singleton.mp member]
  trivial

/-- Inviting is ordinary. -/
theorem kept_createInvite (settings : Settings) (caller : UserId) (id : DashboardId)
    (role : Membership.ShareRole) (code : Nat) (rows : Rows) :
    Kept (fun _ _ _ _ => True) (createInvite settings caller id role code) [] ∅ rows := by
  apply Ensures.bind _ (kept_getCurrentUser caller rows)
  rintro _ _ _ asked rfl
  apply Ensures.bind _ (kept_loadDashboardAccess id caller asked)
  rintro ⟨dashboard, shares, own⟩ _ _ loaded rfl
  apply Ensures.check
  apply Ensures.updateReturning
  intro inserted _ _
  split
  · trivial
  apply kept_commit
  intro later _ write member
  rw [List.mem_singleton.mp member]
  trivial

/-- Accepting an invite is ordinary. -/
theorem kept_acceptInvite (caller : UserId) (code : Nat) (rows : Rows) :
    Kept (fun _ _ _ _ => True) (acceptInvite caller code) [] ∅ rows := by
  apply Ensures.bind _ (kept_getCurrentUser caller rows)
  rintro _ _ held asked rfl
  apply Ensures.query
  intro named _ _
  split
  next => trivial
  next invite _ =>
    apply Ensures.acquire
    intro locked _ _
    apply Ensures.query
    intro found _ _
    split
    next => trivial
    next dashboard present =>
      have same : dashboard.id = invite.dashboardId := by
        have selected := List.find?_some present
        rw [Bool.and_eq_true] at selected
        exact of_decide_eq_true selected.1
      split
      · trivial
      apply Ensures.query
      intro listed _ _
      split
      · trivial
      apply Ensures.updateReturning
      intro taken _ _
      split
      · trivial
      apply Ensures.update
      intro inserted _ _
      apply kept_commit
      intro later _ write member
      rcases List.mem_append.mp member with used | granted
      · split at used
        · rw [List.mem_singleton.mp used]
          trivial
        · cases used
      · rw [List.mem_singleton.mp granted]
        change Lock.dashboard dashboard.id ∈ _
        rw [same]
        exact Set.mem_insert _ _

/-- **A transfer** waits for a deletion of the account that it gives the dashboard to. -/
theorem kept_transferDashboardOwnership (caller : UserId) (id : DashboardId) (user : UserId)
    (rows : Rows) :
    Kept (fun _ _ _ _ => True) (transferDashboardOwnership caller id user) [] ∅ rows := by
  apply Ensures.bind _ (kept_getCurrentUser caller rows)
  rintro _ _ _ asked rfl
  apply Ensures.bind _ (kept_loadDashboardAccess id caller asked)
  rintro ⟨dashboard, shares, role⟩ _ _ loaded rfl
  apply Ensures.check
  split
  · trivial
  split
  next => trivial
  next share _ =>
    apply Ensures.bind _ (kept_lockLiveUser user loaded)
    rintro found _ holds waited ⟨rfl, own, -, live⟩
    split
    next => trivial
    next =>
      apply Ensures.acquire
      intro locked toLocked _
      apply Ensures.updateReturning
      intro given toGiven _
      split
      · trivial
      apply Ensures.bind _ (kept_deleteShare share.id _ given)
      rintro _ _ final removed ⟨rfl, further, toRemoved⟩
      apply Ensures.update
      intro granted toGranted _
      apply kept_commit
      intro later toLater write member
      have kept := Set.subset_insert (Lock.dashboard dashboard.id) holds
      simp only [List.nil_append, List.mem_append, List.mem_singleton] at member
      rcases member with (rfl | rfl) | rfl
      · refine ⟨further (Set.mem_insert _ _), further (kept own), ?_⟩
        have given := toGiven.live user (kept own) (toLocked.live user own (live rfl))
        have stays := toGranted.trans toLater
        exact stays.live user (further (kept own)) (toRemoved.live user (kept own) given)
      · trivial
      · exact further (Set.mem_insert _ _)

theorem kept_leaveDashboard (caller : UserId) (id : DashboardId) (rows : Rows) :
    Kept (fun _ _ _ _ => True) (leaveDashboard caller id) [] ∅ rows := by
  apply Ensures.bind _ (kept_getCurrentUser caller rows)
  rintro _ _ _ asked rfl
  apply Ensures.bind _ (kept_loadDashboardAccess id caller asked)
  rintro ⟨dashboard, shares, role⟩ _ held loaded rfl
  dsimp only
  split
  · trivial
  split
  next => trivial
  next share _ =>
    apply Ensures.bind _ (kept_deleteShare share.id [] loaded)
    rintro _ _ holds removed ⟨rfl, -, -⟩
    apply kept_commit
    intro later _ write member
    rw [List.mem_singleton.mp member]
    trivial

end FrontDashboard.Deletion
