import FrontDashboard.Retention.Routes
import Mathlib.Data.List.Nodup

/-! # The sweep spares verified accounts

What a sweep removes was of no account whose email was verified by then, in every run in
which no verification of an account that a sweep has selected commits before the sweep.
-/

namespace FrontDashboard.Retention

open ReadCommitted
open Auth (Failure)

/-- No verified account was swept, nor a dashboard, a session or a notification of one. -/
def Spared (rows : Rows) : Prop :=
  ∀ removal ∈ rows.removals, removal.ofVerified = false

/-- A sweep commits with no verification of an account it selected committed since. -/
def AdmitsWrite (rows : Rows) : Write → Prop
  | .sweepUsers ids selected => ∀ id ∈ rows.verifications.drop selected, id ∉ ids
  | _ => True

def Admits (rows : Rows) (pending : List Write) : Prop :=
  ∀ write ∈ pending, AdmitsWrite rows write

instance (rows : Rows) (write : Write) : Decidable (AdmitsWrite rows write) := by
  unfold AdmitsWrite
  split <;> infer_instance

instance (rows : Rows) (pending : List Write) : Decidable (Admits rows pending) := by
  unfold Admits
  infer_instance

/-! ## What stands -/

structure Clean (rows : Rows) : Prop where
  spared : Spared rows
  userIds : (rows.users.map (·.id)).Nodup
  dashboardIds : (rows.dashboards.map (·.id)).Nodup
  drawn : ∀ dashboard ∈ rows.dashboards, dashboard.id ∈ rows.drawn

/-- Verified accounts stay, and only these give dashboards away. An account that becomes
verified is on record. -/
structure Relies (before after : Rows) : Prop where
  verified : ∀ id, before.verified id = true → after.verified id = true
  recorded : before.verifications <+: after.verifications
  newly : ∀ id, after.verified id = true → before.verified id = true ∨
    id ∈ after.verifications.drop before.verifications.length
  drawn : ∀ id ∈ before.drawn, id ∈ after.drawn
  owners : ∀ new ∈ after.dashboards, new.id ∈ before.drawn → ∃ old ∈ before.dashboards,
    old.id = new.id ∧ (new.userId = old.userId ∨ after.verified old.userId = true)

/-- Nothing has changed. -/
theorem Relies.refl (rows : Rows) : Relies rows rows where
  verified := fun _ verified => verified
  recorded := List.prefix_rfl
  newly := fun _ verified => .inl verified
  drawn := fun _ member => member
  owners := fun dashboard present _ => ⟨dashboard, present, rfl, .inl rfl⟩

/-- What is relied on holds over two stretches. -/
theorem Relies.trans {first second third : Rows} (earlier : Relies first second)
    (later : Relies second third) : Relies first third where
  verified := fun id before => later.verified id (earlier.verified id before)
  recorded := earlier.recorded.trans later.recorded
  newly := by
    intro id verified
    rcases later.newly id verified with known | added
    · rcases earlier.newly id known with before | added
      · exact .inl before
      · obtain ⟨more, same⟩ := later.recorded
        rw [← same, List.drop_append]
        exact .inr (List.mem_append_left _ added)
    · exact .inr (List.drop_subset_drop_left _ earlier.recorded.length_le added)
  drawn := fun id member => later.drawn id (earlier.drawn id member)
  owners := by
    intro new present known
    obtain ⟨middle, between, sameId, owned⟩ := later.owners new present (earlier.drawn _ known)
    rw [← sameId] at known
    obtain ⟨old, before, sameOld, kept⟩ := earlier.owners middle between known
    refine ⟨old, before, sameOld.trans sameId, ?_⟩
    rcases kept with same | given
    · rwa [same] at owned
    · exact .inr (later.verified _ given)

/-- Requests spare verified accounts, and rely on them staying, with no need of a lock. -/
def sparing : Interference Rows Lock where
  invariant := Clean
  rely := fun _ => Relies
  refl := fun _ => Relies.refl
  trans := fun _ _ _ _ => Relies.trans

/-- The same users, verifications, dashboards and removals. -/
structure Alike (before after : Rows) : Prop where
  users : after.users = before.users
  verifications : after.verifications = before.verifications
  dashboards : after.dashboards = before.dashboards
  drawn : after.drawn = before.drawn
  removals : after.removals = before.removals

/-- Rows that are alike are as clean. -/
theorem Alike.clean {before after : Rows} (alike : Alike before after) (clean : Clean before) :
    Clean after where
  spared := by
    unfold Spared
    rw [alike.removals]
    exact clean.spared
  userIds := by
    rw [alike.users]
    exact clean.userIds
  dashboardIds := by
    rw [alike.dashboards]
    exact clean.dashboardIds
  drawn := by
    rw [alike.dashboards, alike.drawn]
    exact clean.drawn

/-- Rows that are alike have the same accounts verified. -/
theorem Alike.verified {before after : Rows} (alike : Alike before after) (id : UserId) :
    after.verified id = before.verified id := by
  unfold Rows.verified
  rw [alike.users]

/-- Rows that are alike keep what is relied on. -/
theorem Alike.relies {before after : Rows} (alike : Alike before after) : Relies before after where
  verified := fun id verified => (alike.verified id).trans verified
  recorded := alike.verifications ▸ List.prefix_rfl
  newly := by
    intro id verified
    rw [alike.verified] at verified
    exact .inl verified
  drawn := by
    rw [alike.drawn]
    exact fun _ member => member
  owners := by
    rw [alike.dashboards]
    exact fun dashboard present _ => ⟨dashboard, present, rfl, .inl rfl⟩

/-! ## Users -/

/-- Where users change in nothing that is lost, those verified stay verified. -/
theorem verified_map {users : List User} {change : User → User}
    (sameId : ∀ user, (change user).id = user.id)
    (stays : ∀ user, user.emailVerifiedAt.isSome = true →
      (change user).emailVerifiedAt.isSome = true) (id : UserId)
    (verified : (users.any fun user => user.id = id && user.emailVerifiedAt.isSome) = true) :
    ((users.map change).any fun user => user.id = id && user.emailVerifiedAt.isSome) = true := by
  simp only [List.any_eq_true, Bool.and_eq_true] at verified
  obtain ⟨user, present, named, some⟩ := verified
  simp only [List.any_eq_true, Bool.and_eq_true]
  refine ⟨change user, List.mem_map_of_mem present, ?_, stays user some⟩
  rw [sameId]
  exact named

theorem User.verify_id (id : UserId) (moment : Time) (user : User) :
    (user.verify id moment).id = user.id := by
  unfold User.verify
  split <;> rfl

theorem User.tombstone_id (id : UserId) (moment : Time) (user : User) :
    (user.tombstone id moment).id = user.id := by
  unfold User.tombstone
  split <;> rfl

theorem User.tombstone_emailVerifiedAt (id : UserId) (moment : Time) (user : User) :
    (user.tombstone id moment).emailVerifiedAt = user.emailVerifiedAt := by
  unfold User.tombstone
  split <;> rfl

/-- An account that is verified stays verified, and a new one is on record. -/
theorem relies_verify (rows : Rows) (user : UserId) (moment : Time) :
    Relies rows (rows.perform (.verify user moment)) :=
  { Relies.refl rows with
    verified := by
      apply verified_map (User.verify_id user moment)
      intro row some
      unfold User.verify
      split
      · rfl
      · exact some
    recorded := List.prefix_append _ _
    newly := by
      intro id verified
      obtain ⟨after, present, proved⟩ := List.any_eq_true.mp verified
      obtain ⟨named, some⟩ := Bool.and_eq_true_iff.mp proved
      obtain ⟨row, inRows, rfl⟩ := List.mem_map.mp present
      rw [User.verify_id] at named
      by_cases same : row.id = user
      · right
        rw [Rows.perform, List.drop_left, List.mem_singleton, ← same]
        exact (of_decide_eq_true named).symm
      · left
        rw [User.verify, if_neg same] at some
        exact List.any_eq_true.mpr ⟨row, inRows, Bool.and_eq_true_iff.mpr ⟨named, some⟩⟩
    owners := fun dashboard present _ => ⟨dashboard, present, rfl, .inl rfl⟩ }

/-- A deletion leaves whether an account is verified. -/
theorem relies_tombstone (rows : Rows) (user : UserId) (moment : Time) :
    Relies rows (rows.perform (.tombstone user moment)) :=
  { Relies.refl rows with
    verified := by
      apply verified_map (User.tombstone_id user moment)
      intro row some
      rw [User.tombstone_emailVerifiedAt]
      exact some
    newly := by
      intro id verified
      obtain ⟨after, present, proved⟩ := List.any_eq_true.mp verified
      obtain ⟨row, inRows, rfl⟩ := List.mem_map.mp present
      rw [User.tombstone_id, User.tombstone_emailVerifiedAt] at proved
      exact .inl (List.any_eq_true.mpr ⟨row, inRows, proved⟩)
    owners := fun dashboard present _ => ⟨dashboard, present, rfl, .inl rfl⟩ }

/-- A change of accounts that leaves their ids keeps the rows clean. -/
theorem Clean.mapUsers {rows after : Rows} (clean : Clean rows) {change : User → User}
    (sameId : ∀ user, (change user).id = user.id) (changed : after.users = rows.users.map change)
    (others : after.removals = rows.removals ∧ after.dashboards = rows.dashboards ∧
      after.drawn = rows.drawn) : Clean after := by
  obtain ⟨removals, dashboards, drawn⟩ := others
  refine ⟨?_, ?_, ?_, ?_⟩
  · unfold Spared
    rw [removals]
    exact clean.spared
  · rw [changed, List.map_map]
    have same : (·.id) ∘ change = (·.id) := funext sameId
    rw [same]
    exact clean.userIds
  · rw [dashboards]
    exact clean.dashboardIds
  · rw [dashboards, drawn]
    exact clean.drawn

/-! ## Dashboards -/

/-- The removal of dashboards keeps the rows clean. -/
theorem Clean.withoutDashboards {rows : Rows} (clean : Clean rows) (ids : List DashboardId) :
    Clean (rows.withoutDashboards ids) where
  spared := clean.spared
  userIds := clean.userIds
  dashboardIds := clean.dashboardIds.sublist (List.filter_sublist.map _)
  drawn := fun dashboard present => clean.drawn dashboard (List.mem_filter.mp present).1

/-- The removal of dashboards leaves the accounts. -/
theorem relies_withoutDashboards (rows : Rows) (ids : List DashboardId) :
    Relies rows (rows.withoutDashboards ids) :=
  { Relies.refl rows with
    owners := fun dashboard present _ =>
      ⟨dashboard, (List.mem_filter.mp present).1, rfl, .inl rfl⟩ }

/-- A new dashboard gets an id that none has had. -/
theorem insertDashboard (rows : Rows) (clean : Clean rows) (dashboard : Dashboard) :
    Clean (rows.perform (.insertDashboard dashboard)) ∧
      Relies rows (rows.perform (.insertDashboard dashboard)) := by
  rw [Rows.perform]
  split_ifs with taken
  · exact ⟨clean, .refl rows⟩
  · refine ⟨⟨clean.spared, clean.userIds, ?_, ?_⟩,
      { Relies.refl rows with drawn := ?_, owners := ?_ }⟩
    · have fresh : dashboard.id ∉ rows.dashboards.map (·.id) := by
        intro present
        obtain ⟨other, inRows, same⟩ := List.mem_map.mp present
        rw [← same] at taken
        exact taken (clean.drawn other inRows)
      rw [List.map_append, List.map_singleton, ← List.concat_eq_append]
      exact List.Nodup.concat fresh clean.dashboardIds
    · intro other present
      rcases List.mem_append.mp present with old | added
      · exact List.mem_cons_of_mem _ (clean.drawn other old)
      · rw [List.mem_singleton.mp added]
        exact List.mem_cons_self
    · exact fun id member => List.mem_cons_of_mem _ member
    · intro other present known
      rcases List.mem_append.mp present with old | added
      · exact ⟨other, old, rfl, .inl rfl⟩
      · rw [List.mem_singleton.mp added] at known
        exact absurd known taken

/-- A transfer leaves the id of the dashboard. -/
theorem Dashboard.transfer_id (id : DashboardId) (owner recipient : UserId)
    (dashboard : Dashboard) : (dashboard.transfer id owner recipient).id = dashboard.id := by
  unfold Dashboard.transfer
  split <;> rfl

/-- A verified owner gives its dashboards away. -/
theorem transferDashboard (rows : Rows) (clean : Clean rows) (id : DashboardId)
    {owner : UserId} (verified : rows.verified owner = true) (recipient : UserId) :
    Clean (rows.perform (.transferDashboard id owner recipient)) ∧
      Relies rows (rows.perform (.transferDashboard id owner recipient)) := by
  refine ⟨⟨clean.spared, clean.userIds, ?_, ?_⟩, { Relies.refl rows with owners := ?_ }⟩
  · rw [Rows.perform, List.map_map]
    have same : (·.id) ∘ Dashboard.transfer id owner recipient = (·.id) := by
      funext dashboard
      exact dashboard.transfer_id id owner recipient
    rw [same]
    exact clean.dashboardIds
  · intro dashboard present
    obtain ⟨old, inRows, rfl⟩ := List.mem_map.mp present
    rw [Dashboard.transfer_id]
    exact clean.drawn old inRows
  · intro dashboard present _
    obtain ⟨old, inRows, rfl⟩ := List.mem_map.mp present
    refine ⟨old, inRows, (old.transfer_id id owner recipient).symm, ?_⟩
    unfold Dashboard.transfer
    split
    next own =>
      right
      rw [own.2]
      exact verified
    next => exact .inl rfl

/-! ## Everyday writes -/

/-- A write of a verified account keeps the rows clean. -/
theorem everyday_perform {rows : Rows} (clean : Clean rows) {caller : UserId}
    (verified : rows.verified caller = true) {write : Write} (everyday : write.Everyday caller) :
    Clean (rows.perform write) ∧ Relies rows (rows.perform write) := by
  cases write with
  | insertRow row =>
      have alike : Alike rows (rows.perform (.insertRow row)) := ⟨rfl, rfl, rfl, rfl, rfl⟩
      exact ⟨alike.clean clean, alike.relies⟩
  | deleteRow row =>
      have alike : Alike rows (rows.perform (.deleteRow row)) := ⟨rfl, rfl, rfl, rfl, rfl⟩
      exact ⟨alike.clean clean, alike.relies⟩
  | insertDashboard dashboard => exact insertDashboard rows clean dashboard
  | transferDashboard id owner recipient =>
      cases everyday
      exact transferDashboard rows clean id verified recipient
  | deleteDashboard id => exact ⟨clean.withoutDashboards [id], relies_withoutDashboards rows [id]⟩
  | tombstone user moment =>
      exact ⟨clean.mapUsers (User.tombstone_id user moment) rfl ⟨rfl, rfl, rfl⟩,
        relies_tombstone rows user moment⟩
  | sweepRows | sweepTokens | sweepDashboards | sweepUsers | insertToken | useTokens | verify =>
      cases everyday

/-- Writes of a verified account in a row keep the rows clean. -/
theorem everyday_performAll {rows : Rows} (clean : Clean rows) {caller : UserId}
    (verified : rows.verified caller = true) {pending : List Write}
    (everyday : ∀ write ∈ pending, write.Everyday caller) :
    Clean (performAll Rows.perform rows pending) ∧
      Relies rows (performAll Rows.perform rows pending) := by
  induction pending generalizing rows with
  | nil => exact ⟨clean, .refl rows⟩
  | cons write rest ih =>
      obtain ⟨first, others⟩ := List.forall_mem_cons.mp everyday
      obtain ⟨kept, relied⟩ := everyday_perform clean verified first
      obtain ⟨still, further⟩ := ih kept (relied.verified _ verified) others
      exact ⟨still, relied.trans further⟩

/-! ## The writes of a sweep -/

/-- A write that removes nothing but what is of some accounts. -/
def Write.SweepsFor (candidates : List UserId) (rows : Rows) : Write → Prop
  | .sweepRows gone => ∀ row ∈ gone, ∀ user ∈ row.account, user ∈ candidates
  | .sweepTokens _ => True
  | .sweepDashboards ids =>
      ∀ dashboard ∈ rows.dashboards, dashboard.id ∈ ids → dashboard.userId ∈ candidates
  | .sweepUsers ids _ => ∀ id ∈ ids, id ∈ candidates
  | _ => False

/-- A row goes with the account it is of. -/
theorem Row.account_of_goesWithUser {row : Row} {user : UserId}
    (account : row.account = some user) :
    row.goesWithUser = some user := by
  cases row <;> first | exact account | cases account

section Sweep

variable {candidates : List UserId} {rows : Rows}

/-- A row of an unverified account is removed as such. -/
theorem ofVerified_removal (unverified : ∀ user ∈ candidates, rows.verified user = false)
    {row : Row} (own : ∀ user ∈ row.account, user ∈ candidates) :
    (rows.removal row).ofVerified = false := by
  rw [Rows.removal]
  cases account : row.account with
  | none => rfl
  | some user => exact unverified user (own user account)

/-- Removals of what unverified accounts had spare the verified ones. -/
theorem Spared.append {rows : Rows} (spared : Spared rows) {removals : List Removal}
    (unverified : ∀ removal ∈ removals, removal.ofVerified = false) {after : Rows}
    (logged : after.removals = rows.removals ++ removals) : Spared after := by
  intro removal member
  rw [logged] at member
  rcases List.mem_append.mp member with before | added
  · exact spared removal before
  · exact unverified removal added

/-- The row of an unverified account has no time of verification. -/
theorem not_isSome_of_unverified {id : UserId} (unverified : rows.verified id = false) {user : User}
    (present : user ∈ rows.users) (named : user.id = id) : user.emailVerifiedAt.isSome = false := by
  rw [Rows.verified, List.any_eq_false] at unverified
  simpa [named] using unverified user present

/-- A sweep of unverified accounts keeps the rows clean. -/
theorem clean_sweepUsers (clean : Clean rows)
    (unverified : ∀ user ∈ candidates, rows.verified user = false) {ids : List UserId}
    (own : ∀ id ∈ ids, id ∈ candidates) (selected : Nat) :
    Clean (rows.perform (.sweepUsers ids selected)) where
  spared := by
    apply clean.spared.append _ (List.append_assoc _ _ _)
    intro removal member
    rcases List.mem_append.mp member with ofRow | ofUser
    · obtain ⟨row, present, rfl⟩ := List.mem_map.mp ofRow
      apply ofVerified_removal unverified
      intro user account
      obtain ⟨-, goes⟩ := List.mem_filter.mp present
      rw [Row.account_of_goesWithUser account, Option.any_some] at goes
      exact own user (of_decide_eq_true goes)
    · obtain ⟨user, present, rfl⟩ := List.mem_map.mp ofUser
      obtain ⟨inRows, named⟩ := List.mem_filter.mp present
      exact not_isSome_of_unverified (unverified _ (own _ (of_decide_eq_true named))) inRows rfl
  userIds := clean.userIds.sublist (List.filter_sublist.map _)
  dashboardIds := clean.dashboardIds
  drawn := clean.drawn

/-- A sweep takes no verified account. -/
theorem verified_sweepUsers (unverified : ∀ user ∈ candidates, rows.verified user = false)
    {ids : List UserId} (own : ∀ id ∈ ids, id ∈ candidates) (selected : Nat) (id : UserId) :
    (rows.perform (.sweepUsers ids selected)).verified id = rows.verified id := by
  rw [Bool.eq_iff_iff, Rows.verified, Rows.verified, List.any_eq_true, List.any_eq_true]
  constructor
  · rintro ⟨user, present, verified⟩
    exact ⟨user, (List.mem_filter.mp present).1, verified⟩
  · rintro ⟨user, present, verified⟩
    refine ⟨user, List.mem_filter.mpr ⟨present, decide_eq_true fun swept => ?_⟩, verified⟩
    have spared := not_isSome_of_unverified (unverified _ (own _ swept)) present rfl
    rw [spared, Bool.and_false] at verified
    cases verified

/-- A sweep of the rows of such accounts keeps the rows clean. -/
theorem clean_sweepRows (clean : Clean rows)
    (unverified : ∀ user ∈ candidates, rows.verified user = false) {gone : List Row}
    (own : ∀ row ∈ gone, ∀ user ∈ row.account, user ∈ candidates) :
    Clean (rows.perform (.sweepRows gone)) where
  spared := by
    apply clean.spared.append _ rfl
    intro removal member
    obtain ⟨row, present, rfl⟩ := List.mem_map.mp member
    have named : row ∈ gone := of_decide_eq_true (List.mem_filter.mp present).2
    exact ofVerified_removal unverified (own row named)
  userIds := clean.userIds
  dashboardIds := clean.dashboardIds
  drawn := clean.drawn

/-- A sweep of the dashboards of such accounts keeps the rows clean. -/
theorem clean_sweepDashboards (clean : Clean rows)
    (unverified : ∀ user ∈ candidates, rows.verified user = false) {ids : List DashboardId}
    (own : ∀ dashboard ∈ rows.dashboards, dashboard.id ∈ ids → dashboard.userId ∈ candidates) :
    Clean (rows.perform (.sweepDashboards ids)) where
  spared := by
    apply clean.spared.append _ rfl
    intro removal member
    obtain ⟨dashboard, present, rfl⟩ := List.mem_map.mp member
    obtain ⟨inRows, named⟩ := List.mem_filter.mp present
    exact unverified _ (own dashboard inRows (of_decide_eq_true named))
  userIds := clean.userIds
  dashboardIds := (clean.withoutDashboards ids).dashboardIds
  drawn := (clean.withoutDashboards ids).drawn

/-- Each write of a sweep spares the verified, and leaves the others to be swept. -/
theorem sweep_perform (clean : Clean rows)
    (unverified : ∀ user ∈ candidates, rows.verified user = false) {write : Write}
    (sweeps : write.SweepsFor candidates rows) :
    Clean (rows.perform write) ∧ Relies rows (rows.perform write) ∧
      (∀ user, (rows.perform write).verified user = rows.verified user) ∧
      ∀ dashboard ∈ (rows.perform write).dashboards, dashboard ∈ rows.dashboards := by
  cases write with
  | sweepRows gone =>
      have relies : Relies rows (rows.perform (.sweepRows gone)) :=
        { Relies.refl rows with owners := fun row present _ => ⟨row, present, rfl, .inl rfl⟩ }
      exact ⟨clean_sweepRows clean unverified sweeps, relies, fun _ => rfl,
        fun _ present => present⟩
  | sweepTokens ids =>
      have alike : Alike rows (rows.perform (.sweepTokens ids)) := ⟨rfl, rfl, rfl, rfl, rfl⟩
      exact ⟨alike.clean clean, alike.relies, fun _ => rfl, fun _ present => present⟩
  | sweepDashboards ids =>
      have relies := relies_withoutDashboards rows ids
      exact ⟨clean_sweepDashboards clean unverified sweeps,
        { relies with }, fun _ => rfl,
        fun _ present => (List.mem_filter.mp present).1⟩
  | sweepUsers ids selected =>
      have same := verified_sweepUsers unverified sweeps selected
      have relies : Relies rows (rows.perform (.sweepUsers ids selected)) :=
        { Relies.refl rows with
          verified := fun id verified => (same id).trans verified
          newly := fun id verified => .inl ((same id).symm.trans verified)
          owners := fun row present _ => ⟨row, present, rfl, .inl rfl⟩ }
      exact ⟨clean_sweepUsers clean unverified sweeps selected, relies, same,
        fun _ present => present⟩
  | insertToken | useTokens | verify | insertRow | deleteRow | insertDashboard
  | transferDashboard | deleteDashboard | tombstone => cases sweeps

/-- A write sweeps no more of them when there are fewer dashboards. -/
theorem Write.SweepsFor.later {write : Write} (sweeps : write.SweepsFor candidates rows)
    {after : Rows} (fewer : ∀ dashboard ∈ after.dashboards, dashboard ∈ rows.dashboards) :
    write.SweepsFor candidates after := by
  cases write with
  | sweepDashboards ids => exact fun dashboard present => sweeps dashboard (fewer dashboard present)
  | sweepRows | sweepTokens | sweepUsers => exact sweeps
  | insertToken | useTokens | verify | insertRow | deleteRow | insertDashboard
  | transferDashboard | deleteDashboard | tombstone => cases sweeps

/-- **A sweep of accounts that are not verified** spares the others. -/
theorem sweep_performAll (clean : Clean rows)
    (unverified : ∀ user ∈ candidates, rows.verified user = false) {pending : List Write}
    (sweeps : ∀ write ∈ pending, write.SweepsFor candidates rows) :
    Clean (performAll Rows.perform rows pending) ∧
      Relies rows (performAll Rows.perform rows pending) := by
  induction pending generalizing rows with
  | nil => exact ⟨clean, .refl rows⟩
  | cons write rest ih =>
      obtain ⟨first, others⟩ := List.forall_mem_cons.mp sweeps
      obtain ⟨kept, relied, same, fewer⟩ := sweep_perform clean unverified first
      have still : ∀ user ∈ candidates, (rows.perform write).verified user = false :=
        fun user member => (same user).trans (unverified user member)
      obtain ⟨after, further⟩ := ih kept still fun write member => (others write member).later fewer
      exact ⟨after, relied.trans further⟩

/-- Dashboards that a sweep found to be of its accounts, and that none of these gave away
without being verified. -/
def Doomed (candidates : List UserId) (ids : List DashboardId) (rows : Rows) : Prop :=
  (∀ id ∈ ids, id ∈ rows.drawn) ∧ ∀ dashboard ∈ rows.dashboards, dashboard.id ∈ ids →
    dashboard.userId ∈ candidates ∨ ∃ user ∈ candidates, rows.verified user = true

/-- The dashboards of the candidates are doomed when they are read. -/
theorem Clean.doomed (clean : Clean rows) (candidates : List UserId) :
    Doomed candidates ((rows.dashboards.filter fun dashboard => dashboard.userId ∈ candidates).map
      (·.id)) rows := by
  constructor
  · intro id member
    obtain ⟨dashboard, present, rfl⟩ := List.mem_map.mp member
    exact clean.drawn dashboard (List.mem_filter.mp present).1
  · intro dashboard present named
    obtain ⟨other, found, same⟩ := List.mem_map.mp named
    obtain ⟨inRows, own⟩ := List.mem_filter.mp found
    rw [← List.inj_on_of_nodup_map clean.dashboardIds inRows present same]
    exact .inl (of_decide_eq_true own)

/-- Dashboards that are doomed stay so. -/
theorem Doomed.later {ids : List DashboardId} (doomed : Doomed candidates ids rows) {after : Rows}
    (relied : Relies rows after) : Doomed candidates ids after := by
  refine ⟨fun id member => relied.drawn id (doomed.1 id member), ?_⟩
  intro dashboard present named
  obtain ⟨old, before, same, owner⟩ := relied.owners dashboard present (doomed.1 _ named)
  rw [← same] at named
  rcases doomed.2 old before named with own | ⟨user, member, verified⟩
  · rcases owner with kept | given
    · rw [← kept] at own
      exact .inl own
    · exact .inr ⟨old.userId, own, given⟩
  · exact .inr ⟨user, member, relied.verified user verified⟩

/-- The dashboards that go are owned by candidates. -/
theorem Doomed.own {ids : List DashboardId} (doomed : Doomed candidates ids rows)
    (unverified : ∀ user ∈ candidates, rows.verified user = false) :
    ∀ dashboard ∈ rows.dashboards, dashboard.id ∈ ids → dashboard.userId ∈ candidates := by
  intro dashboard present named
  apply (doomed.2 dashboard present named).resolve_right
  rintro ⟨user, member, verified⟩
  rw [unverified user member] at verified
  cases verified

end Sweep

/-! ## The handlers -/

/-- The program spares verified accounts, started in a given transaction. -/
abbrev Kept {α : Type} (post : α → List Write → Set Lock → Rows → Prop) (program : Handler α)
    (pending : List Write) (held : Set Lock) (rows : Rows) : Prop :=
  Ensures Rows.perform sparing Admits post program pending held rows

/-- A write of a sweep that concerns neither dashboards nor users. -/
def Write.SweepsRows (candidates : List UserId) : Write → Prop
  | .sweepRows gone => ∀ row ∈ gone, ∀ user ∈ row.account, user ∈ candidates
  | .sweepTokens _ => True
  | _ => False

/-- A write that sweeps rows of candidates sweeps no dashboard of another. -/
theorem Write.SweepsRows.sweepsFor {candidates : List UserId} {write : Write}
    (sweeps : write.SweepsRows candidates) (rows : Rows) : write.SweepsFor candidates rows := by
  cases write <;> first | exact sweeps | cases sweeps

/-- The dashboards are as they are without such writes. -/
theorem dashboards_performAll {candidates : List UserId} {pending : List Write}
    (sweeps : ∀ write ∈ pending, write.SweepsRows candidates) (rows : Rows) :
    (performAll Rows.perform rows pending).dashboards = rows.dashboards := by
  induction pending generalizing rows with
  | nil => rfl
  | cons write rest ih =>
      obtain ⟨first, others⟩ := List.forall_mem_cons.mp sweeps
      rw [performAll_cons, ih others]
      cases write <;> first | rfl | cases first

/-- A session or a notification is deleted with no other user than its own. -/
def SweepsOwn (table : Row → Option UserId) : Prop :=
  ∀ row user other, row.account = some user → table row = some other → user = other

/-- The sweep of the tables takes only rows of candidates. -/
theorem kept_sweepTables (candidates : List UserId) (tables : List (Row → Option UserId))
    (names : ∀ table ∈ tables, SweepsOwn table)
    {pending : List Write} (begun : ∀ write ∈ pending, write.SweepsRows candidates)
    (held : Set Lock) (rows : Rows) :
    Kept (fun _ after _ later => Relies rows later ∧ ∀ write ∈ after, write.SweepsRows candidates)
      (sweepTables candidates tables) pending held rows := by
  induction tables generalizing pending rows with
  | nil => exact ⟨.refl rows, begun⟩
  | cons table rest ih =>
      obtain ⟨first, others⟩ := List.forall_mem_cons.mp names
      apply Ensures.update
      intro later relied _
      apply Ensures.mono _ (ih others _ _)
      · rintro _ after _ last ⟨further, sweeps⟩
        exact ⟨Relies.trans relied further, sweeps⟩
      intro write member
      rcases List.mem_append.mp member with before | added
      · exact begun write before
      · rw [List.mem_singleton.mp added]
        intro row swept user account
        obtain ⟨other, named, own⟩ := (Option.any_eq_true _ _).mp (List.mem_filter.mp swept).2
        rw [first row user other account named]
        exact of_decide_eq_true own

/-- Taking locks writes nothing. -/
theorem kept_acquireAll (locks : List Lock) (pending : List Write) (held : Set Lock) (rows : Rows) :
    Kept (fun _ after _ later => after = pending ∧ Relies rows later)
      (Program.acquireAll locks) pending held rows := by
  apply Ensures.mono _ (Ensures.acquireAll (fun _ _ _ _ relied => relied) locks pending held rows)
  rintro _ after _ later ⟨same, -, -, relied⟩
  exact ⟨same, relied⟩

/-- Whom a sweep selects is not verified, nor will be while no verification is on record. -/
theorem unverified_of_candidate {settings : Settings} {cutoff : Time} {rows later : Rows}
    (clean : Clean rows) (relied : Relies rows later)
    (none : ∀ id ∈ later.verifications.drop rows.verifications.length,
      id ∉ candidateIds settings cutoff rows) :
    ∀ id ∈ candidateIds settings cutoff rows, later.verified id = false := by
  intro id candidate
  by_contra verified
  rcases relied.newly id (Bool.eq_true_of_not_eq_false verified) with before | since
  · obtain ⟨user, chosen, rfl⟩ := List.mem_map.mp candidate
    obtain ⟨present, passes⟩ := List.mem_filter.mp chosen
    obtain ⟨other, inRows, proved⟩ := List.any_eq_true.mp before
    obtain ⟨named, some⟩ := Bool.and_eq_true_iff.mp proved
    rw [List.inj_on_of_nodup_map clean.userIds inRows present (of_decide_eq_true named)] at some
    simp only [eligible, Bool.and_eq_true, Option.isNone_iff_eq_none] at passes
    rw [passes.1.1.1] at some
    cases some
  · exact none id since candidate

/-- Each table of the sweep names the account that its row is of. -/
theorem sweepsOwn : ∀ table ∈ [shareOf, notificationOf, activityEventOf, inviteOf, sessionOf,
    passwordResetOf], SweepsOwn table := by
  intro table member row user other account named
  simp only [List.mem_cons, List.not_mem_nil, or_false] at member
  rcases member with rfl | rfl | rfl | rfl | rfl | rfl <;> cases row <;> cases account <;>
    cases named <;> rfl

/-- **The sweep** spares an account whose email is verified when it commits, if none that it
selected was verified meanwhile. -/
theorem kept_reapAbandonedSignups (settings : Settings) (rows : Rows) :
    Kept (fun _ _ _ _ => True) (reapAbandonedSignups settings) [] ∅ rows := by
  apply Ensures.acquire
  intro locked _ _
  apply Ensures.query
  intro begun _ _
  apply Ensures.query
  intro asked _ cleanThen
  dsimp only [performAll_nil]
  have chosen := fun (later : Rows) (relied : Relies asked later) =>
    @unverified_of_candidate settings (begun.now - settings.unverifiedRetention) asked later
      cleanThen relied
  generalize candidateIds settings _ _ = candidates at chosen ⊢
  split
  · apply Ensures.commitTransaction
    intro later _ clean _
    exact ⟨clean, fun _ _ => .refl later, trivial⟩
  have first : ∀ table ∈ [shareOf, notificationOf, activityEventOf, inviteOf, sessionOf],
      SweepsOwn table :=
    fun table member => sweepsOwn table (List.mem_append_left [passwordResetOf] member)
  have last : ∀ table ∈ [passwordResetOf], SweepsOwn table :=
    fun table member => sweepsOwn table (List.mem_append_right
      [shareOf, notificationOf, activityEventOf, inviteOf, sessionOf] member)
  apply Ensures.bind _ (kept_sweepTables candidates _ first (List.forall_mem_nil _) _ _)
  rintro _ pending held swept ⟨toSwept, sweeps⟩
  apply Ensures.update
  intro listed toListed _
  have sweepsToo : ∀ write ∈ pending ++ [Write.sweepTokens (((performAll Rows.perform listed
      pending).tokens.filter fun token => token.userId ∈ candidates).map (·.id))],
      write.SweepsRows candidates := by
    intro write member
    rcases List.mem_append.mp member with before | added
    · exact sweeps write before
    · rw [List.mem_singleton.mp added]
      trivial
  apply Ensures.bind _ (kept_sweepTables candidates _ last sweepsToo _ _)
  rintro _ pending held emptied ⟨toEmptied, sweeps⟩
  apply Ensures.query
  intro found toFound clean
  have doomed := Clean.doomed clean candidates
  rw [dashboards_performAll sweeps]
  generalize (found.dashboards.filter fun dashboard => dashboard.userId ∈ candidates).map (·.id) =
    ids at doomed ⊢
  apply Ensures.bind _ (kept_acquireAll _ _ _ _)
  rintro _ pending _ waited ⟨rfl, toWaited⟩
  apply Ensures.updateReturning
  intro deleted toDeleted _
  split
  · trivial
  apply Ensures.bind _ (kept_acquireAll _ _ _ _)
  rintro _ _ _ ready ⟨rfl, toReady⟩
  apply Ensures.updateReturning
  intro named toNamed _
  split
  · trivial
  apply Ensures.commitTransaction
  intro later toLater clean admitted
  have sinceFound : Relies found later := (((Relies.trans toWaited toDeleted).trans toReady).trans
    toNamed).trans toLater
  have sinceAsked : Relies asked later := (((Relies.trans toSwept toListed).trans toEmptied).trans
    toFound).trans sinceFound
  have unverified := chosen later sinceAsked (admitted (.sweepUsers candidates _) (by simp))
  have own := (doomed.later sinceFound).own unverified
  have all : ∀ write ∈ pending ++ [.sweepDashboards ids] ++
      [.sweepUsers candidates asked.verifications.length],
      write.SweepsFor candidates later := by
    intro write member
    simp only [List.mem_append, List.mem_singleton] at member
    rcases member with (before | rfl) | rfl
    · exact (sweeps write before).sweepsFor later
    · exact own
    · exact fun _ listed => listed
  obtain ⟨kept, relied⟩ := sweep_performAll clean unverified all
  exact ⟨kept, fun _ _ => relied, trivial⟩

/-- Locking an account writes nothing. -/
theorem kept_lockLiveUser (id : UserId) (rows : Rows) :
    Kept (fun _ pending _ _ => pending = []) (lockLiveUser id) [] ∅ rows := by
  apply Ensures.acquire
  intro locked _ _ later _ _
  rfl

/-- Sending a link again keeps what is relied on. -/
theorem kept_resendVerificationLink (settings : Settings) (email : String) (token : TokenId)
    (rows : Rows) :
    Kept (fun _ _ _ _ => True) (resendVerificationLink settings email token) [] ∅ rows := by
  apply Ensures.query
  intro asked _ _
  split
  next => trivial
  next found _ =>
    apply Ensures.bind _ (kept_lockLiveUser found.id asked)
    rintro live _ held locked rfl
    split
    next => trivial
    next user =>
      split
      · trivial
      apply Ensures.query
      intro recently _ _
      split
      · trivial
      apply Ensures.updateReturning
      intro minted _ _
      split
      · trivial
      apply Ensures.commitTransaction
      intro later _ clean _
      have alike : ∀ token, Alike later (later.perform (.insertToken token)) :=
        fun _ => ⟨rfl, rfl, rfl, rfl, rfl⟩
      exact ⟨(alike _).clean clean, fun _ _ => (alike _).relies, trivial⟩

/-- An account that is verified is not taken back. -/
theorem kept_verifyEmail (token : TokenId) (session : Nat) (rows : Rows) :
    Kept (fun _ _ _ _ => True) (verifyEmail token session) [] ∅ rows := by
  apply Ensures.query
  intro begun _ _
  apply Ensures.query
  intro asked _ _
  split
  next => trivial
  next found _ =>
    apply Ensures.bind _ (kept_lockLiveUser found.userId asked)
    rintro live _ held locked rfl
    split
    next => trivial
    next user =>
      split
      · trivial
      split
      · trivial
      apply Ensures.update
      intro used _ _
      apply Ensures.acquire
      intro waited _ _
      apply Ensures.updateReturning
      intro written _ _
      split
      · trivial
      apply Ensures.commitTransaction
      intro later _ clean _
      have usedAlike : ∀ ids moment, Alike later (later.perform (.useTokens ids moment)) :=
        fun _ _ => ⟨rfl, rfl, rfl, rfl, rfl⟩
      have inserted : ∀ (rows : Rows) row, Alike rows (rows.perform (.insertRow row)) :=
        fun _ _ => ⟨rfl, rfl, rfl, rfl, rfl⟩
      refine ⟨?_, fun _ _ => ?_, trivial⟩
      · exact (inserted _ _).clean
          (((usedAlike _ _).clean clean).mapUsers (User.verify_id _ _) rfl ⟨rfl, rfl, rfl⟩)
      · exact ((usedAlike _ _).relies.trans (relies_verify _ _ _)).trans (inserted _ _).relies

/-- What a verified account does takes no account away. -/
theorem kept_act {caller : UserId} {program : Handler Unit}
    (everyday : program.Writes (Write.Everyday caller)) (rows : Rows) :
    Kept (fun _ _ _ _ => True) (act caller program) [] ∅ rows := by
  apply Ensures.query
  intro asked _ _
  split
  · trivial
  next refused =>
    have verified : asked.verified caller = true := by simpa using refused
    have stays : ∀ (held : Set Lock) (before after : Rows), sparing.rely held before after →
        before.verified caller = true → after.verified caller = true :=
      fun _ _ _ relied => relied.verified caller
    apply Ensures.of_writes_under stays _ everyday (List.forall_mem_nil _) _ verified
    intro later pending clean stands _ within
    obtain ⟨kept, relied⟩ := everyday_performAll clean stands within
    exact ⟨kept, fun _ => relied⟩

/-! ## Runs -/

/-- The rows begin clean. -/
theorem clean_of_initial {rows : Rows} (begins : rows.Initial) : Clean rows where
  spared := by
    unfold Spared
    rw [begins.unswept]
    exact List.forall_mem_nil _
  userIds := begins.userIds
  dashboardIds := begins.dashboardIds
  drawn := begins.drawn

/-- Every request spares verified accounts, whatever runs beside it. -/
theorem verified (settings : Settings) : Service.Verified (service settings) sparing Admits where
  initially := fun _ => clean_of_initial
  handlers := by
    intro process request rows _
    cases request with
    | reapAbandonedSignups => exact kept_reapAbandonedSignups settings rows
    | resendVerification email token => exact kept_resendVerificationLink settings email token rows
    | verifyEmail token session => exact kept_verifyEmail token session rows
    | act caller program everyday => exact kept_act everyday rows
  keeps := fun _ _ clean => { clean with }
  leaves := fun rows _ _ => { Relies.refl rows with }

/-- The default spans, in days and hours of microseconds. -/
def defaultSettings : Settings where
  unverifiedRetention := 30 * 24 * 3600000000
  emailVerificationShipped := 0
  emailVerificationExpire := 3600000000
  resendCooldown := 60000000

/-- Two signups of long ago, each with its dashboard, and a link for the first of them. -/
def oldSignups : State Rows Write Lock Failure Unit where
  database :=
    let created : Time := 24 * 3600000000
    let now : Time := 40 * 24 * 3600000000
    { now := now
      users := [⟨1, "ada@example.org", none, created, none⟩,
        ⟨2, "bob@example.org", none, created, none⟩]
      dashboards := [⟨5, 1⟩, ⟨6, 2⟩]
      tokens := [⟨3, 1, now, now + 3600000000, none⟩]
      rows := [], drawn := [5, 6], removals := [], verifications := [] }
  holder := fun _ => none
  processes := fun _ => none

theorem oldSignups_initial : (service defaultSettings).system.Initial oldSignups :=
  ⟨⟨rfl, by decide, by decide, by decide⟩, fun _ => rfl, fun _ => rfl⟩

/-- An account that a sweep has selected is verified, and the sweep deletes it, with the
session that it has begun and its dashboard. -/
theorem verified_account_swept :
    ¬ ∀ state, (service defaultSettings).system.Reachable state → Spared state.database := by
  intro spared
  obtain ⟨state, reached, swept⟩ := TransitionSystem.exists_reachable_of_run oldSignups_initial
    (runs 0 .reapAbandonedSignups 3 ++ runs 1 (.verifyEmail 3 9) 8 ++
      List.replicate 16 (.advance 0))
    (fun state => decide (⟨.account 1, true⟩ ∈ state.database.removals ∧
      ⟨.row (.session 9 1), true⟩ ∈ state.database.removals ∧
      ⟨.dashboard ⟨5, 1⟩, true⟩ ∈ state.database.removals)) (by decide)
  cases spared state reached _ (of_decide_eq_true swept).1

/-- **The sweep spares verified accounts**, their dashboards, sessions and notifications, in
every run whose commits are admitted. -/
theorem spared_of_admitted {settings : Settings} {state : State Rows Write Lock Failure Unit}
    (reached : (service settings).system.ReachedWithin (Service.CommitsWithin Admits) state) :
    Spared state.database :=
  (Service.invariant_of_ensures (verified settings) reached).spared

/-- The first signup is verified before the sweep, which deletes the second. -/
theorem spared_after_sweep :
    ∃ state : State Rows Write Lock Failure Unit,
      (state.database.removals = [⟨.dashboard ⟨6, 2⟩, false⟩, ⟨.account 2, false⟩] ∧
        state.database.rows = [.session 9 1]) ∧ Spared state.database := by
  obtain ⟨state, reached, shape⟩ := TransitionSystem.exists_reachedWithin_of_run
    (Service.CommitsWithin Admits) oldSignups_initial
    (runs 1 (.verifyEmail 3 9) 8 ++ runs 0 .reapAbandonedSignups 18)
    (fun state => decide (state.database.removals =
      [⟨.dashboard ⟨6, 2⟩, false⟩, ⟨.account 2, false⟩] ∧
        state.database.rows = [.session 9 1])) (by decide)
  exact ⟨state, of_decide_eq_true shape, spared_of_admitted reached⟩

end FrontDashboard.Retention
