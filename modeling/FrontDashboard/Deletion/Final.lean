import FrontDashboard.Deletion.Deletes

/-! # What outlives a deletion

Once an account is deleted, it owns only dashboards that it created while the deletion ran
or after, and only share rows that were inserted so late name it. As long as nobody is
invited anew, the deletion removes no live dashboard that another live account has access
to.
-/

namespace FrontDashboard.Deletion

open ReadCommitted
open FrontDashboard.Membership (Failure)

variable {rows : Rows} {others held : Set Lock}

/-! ## While nobody is invited -/

/-- The dashboards from an id on are their creators' and nobody else's, and each deletion
locked those before. -/
structure Uninvited (first : DashboardId) (rows : Rows) : Prop where
  next : first ≤ rows.nextDashboardId
  shares : ∀ share ∈ rows.shares, share.resourceId < first
  invites : ∀ invite ∈ rows.invites, invite.dashboardId < first
  owners : ∀ dashboard ∈ rows.dashboards, first ≤ dashboard.id →
    dashboard.userId = dashboard.createdBy
  removals : ∀ removal ∈ rows.removals, first ≤ removal.locked ∧
    (first ≤ removal.dashboard.id → ∀ user ∈ removal.others,
      user = removal.dashboard.createdBy ∧ user ≠ removal.account)

/-- A write that shares no later dashboard and invites nobody. -/
def Write.Old (first : DashboardId) : Write → Prop
  | .setOwner dashboard _ => dashboard < first
  | .upsertShare dashboard _ _ _ => dashboard < first
  | .insertInvite _ => False
  | .deleteDashboard _ _ locked => first ≤ locked
  | _ => True

section Uninvited

variable {first : DashboardId}

/-- **What is removed** of the later dashboards was nobody else's. -/
theorem Uninvited.deleteDashboard (uninvited : Uninvited first rows) {dashboard : DashboardId}
    {account : UserId} {locked : DashboardId} (old : first ≤ locked) :
    Uninvited first (rows.perform (.deleteDashboard dashboard account locked)) where
  next := uninvited.next
  shares := fun share present => uninvited.shares share (List.mem_of_mem_filter present)
  invites := fun invite present => uninvited.invites invite (List.mem_of_mem_filter present)
  owners := fun row present => uninvited.owners row (List.mem_of_mem_filter present)
  removals := by
    intro removal present
    rcases List.mem_append.mp present with before | added
    · exact uninvited.removals removal before
    · obtain ⟨row, selected, rfl⟩ := List.mem_map.mp added
      refine ⟨old, fun late user member => ?_⟩
      obtain ⟨access, different, -⟩ := mem_othersWith.mp member
      rcases access with owner | ⟨share, granted, named, -⟩
      · rw [uninvited.owners row (List.mem_of_mem_filter selected) late] at owner
        exact ⟨owner, different⟩
      · have early := uninvited.shares share granted
        rw [named] at early
        exact absurd early (Nat.not_lt_of_le late)

/-- A write about older dashboards invites nobody to a newer one. -/
theorem Uninvited.perform (uninvited : Uninvited first rows) {write : Write}
    (old : write.Old first) : Uninvited first (rows.perform write) := by
  cases write with
  | insertDashboard user name =>
      refine { uninvited with next := uninvited.next.trans (Nat.le_succ _), owners := ?_ }
      intro dashboard present late
      rcases List.mem_append.mp present with before | added
      · exact uninvited.owners dashboard before late
      · rw [List.mem_singleton.mp added]
  | setOwner dashboard user =>
      refine { uninvited with owners := ?_ }
      intro row present late
      obtain ⟨before, there, rfl⟩ := List.mem_map.mp present
      split at late
      next same =>
        rw [← same] at old
        exact absurd old (Nat.not_lt_of_le late)
      next different =>
        rw [if_neg different]
        exact uninvited.owners before there late
  | upsertShare dashboard principal role grantedBy =>
      rw [Rows.perform, Rows.upsertShare]
      split
      · refine { uninvited with shares := ?_ }
        intro share present
        obtain ⟨before, there, rfl⟩ := List.mem_map.mp present
        have early := uninvited.shares before there
        split <;> exact early
      · refine { uninvited with shares := ?_ }
        intro share present
        rcases List.mem_append.mp present with before | added
        · exact uninvited.shares share before
        · rw [List.mem_singleton.mp added]
          exact old
  | deleteShares ids =>
      exact { uninvited with
        shares := fun share present => uninvited.shares share (List.mem_of_mem_filter present) }
  | insertInvite invite => exact old.elim
  | useInvite code user moment =>
      refine { uninvited with invites := ?_ }
      intro invite present
      obtain ⟨before, there, rfl⟩ := List.mem_map.mp present
      exact uninvited.invites before there
  | deleteInvites codes =>
      exact { uninvited with
        invites := fun invite present => uninvited.invites invite (List.mem_of_mem_filter present) }
  | deleteDashboard dashboard account locked => exact uninvited.deleteDashboard old
  | tombstone departure moment => exact { uninvited with }

/-- Such writes in a row invite nobody. -/
theorem Uninvited.performAll {pending : List Write} (uninvited : Uninvited first rows)
    (old : ∀ write ∈ pending, write.Old first) :
    Uninvited first (performAll Rows.perform rows pending) := by
  induction pending generalizing rows with
  | nil => exact uninvited
  | cons write rest ih =>
      obtain ⟨mine, others⟩ := List.forall_mem_cons.mp old
      exact ih (uninvited.perform mine) others

/-- Requests keep this, and rely on nothing else. -/
def uninviting (first : DashboardId) : Interference Rows Lock where
  invariant := Uninvited first
  rely := fun _ _ _ => True
  refl := fun _ _ => trivial
  trans := fun _ _ _ _ _ _ => trivial

/-- Where no later dashboard is shared, the program shares none. -/
abbrev Spares {α : Type} (first : DashboardId) (post : α → Prop) (program : Handler α) : Prop :=
  program.Keeps (Uninvited first) (Write.Old first) post

/-- Finding the user writes nothing. -/
theorem spares_getCurrentUser (caller : UserId) :
    Spares first (fun _ => True) (getCurrentUser caller) := by
  apply Program.Keeps.query
  intro rows _
  split <;> trivial

/-- Loading the access names a dashboard that is older where it is shared. -/
theorem spares_loadDashboardAccess (id : DashboardId) (user : UserId) :
    Spares first (fun loaded => loaded.1.id = id ∧ (loaded.2.1 ≠ [] → id < first))
      (loadDashboardAccess id user) := by
  apply Program.Keeps.query
  intro rows _
  split
  next => trivial
  next dashboard found =>
    apply Program.Keeps.query
    intro rows uninvited
    split
    next => trivial
    next role _ =>
      have named := List.find?_some found
      rw [Bool.and_eq_true] at named
      refine ⟨of_decide_eq_true named.1, fun shared => ?_⟩
      obtain ⟨share, member⟩ := List.exists_mem_of_ne_nil _ shared
      obtain ⟨row, selected, -⟩ := List.mem_map.mp member
      obtain ⟨present, same⟩ := List.mem_filter.mp selected
      rw [← of_decide_eq_true same]
      exact uninvited.shares row present

theorem spares_assertCanManageShares (role : Membership.EffectiveRole) :
    Spares first (fun _ => True) (assertCanManageShares role) := by
  unfold assertCanManageShares
  split <;> trivial

theorem spares_lockLiveUser (user : UserId) : Spares first (fun _ => True) (lockLiveUser user) :=
  fun _ _ => trivial

theorem spares_deleteShare (id : Nat) : Spares first (fun _ => True) (deleteShare id) := by
  intro rows _
  exact ⟨List.forall_mem_singleton.mpr trivial, trivial⟩

theorem spares_createDashboard (settings : Settings) (caller : UserId) (name : String) :
    Spares first (fun _ => True) (createDashboard settings caller name) := by
  apply Program.Keeps.bind (spares_getCurrentUser caller)
  intro _ _
  apply Program.Keeps.query
  intro rows _
  split
  · trivial
  · apply Program.Keeps.update
    · exact fun rows _ => List.forall_mem_singleton.mpr trivial
    · trivial

/-- An invite that is redeemed is to an earlier dashboard. -/
theorem spares_acceptInvite (caller : UserId) (code : Nat) :
    Spares first (fun _ => True) (acceptInvite caller code) := by
  apply Program.Keeps.bind (spares_getCurrentUser caller)
  intro _ _
  apply Program.Keeps.query
  intro rows uninvited
  split
  next => trivial
  next invite named =>
    have early := uninvited.invites invite (List.mem_of_find?_eq_some named)
    apply Program.Keeps.acquire
    apply Program.Keeps.query
    intro rows _
    split
    next => trivial
    next dashboard found =>
      have same : dashboard.id = invite.dashboardId := by
        have selected := List.find?_some found
        rw [Bool.and_eq_true] at selected
        exact of_decide_eq_true selected.1
      split
      · trivial
      apply Program.Keeps.query
      intro rows _
      split
      · trivial
      apply Program.Keeps.updateReturning
      · intro rows _ write member
        split at member
        · rw [List.mem_singleton.mp member]
          trivial
        · cases member
      intro rows _
      split
      · trivial
      apply Program.Keeps.update
      · intro rows _ write member
        rw [List.mem_singleton.mp member]
        change dashboard.id < first
        rwa [same]
      · trivial

/-- Only a dashboard that is shared changes hands. -/
theorem spares_transferDashboardOwnership (caller : UserId) (id : DashboardId) (user : UserId) :
    Spares first (fun _ => True) (transferDashboardOwnership caller id user) := by
  apply Program.Keeps.bind (spares_getCurrentUser caller)
  intro _ _
  apply Program.Keeps.bind (spares_loadDashboardAccess id caller)
  rintro ⟨dashboard, shares, role⟩ ⟨same, early⟩
  apply Program.Keeps.bind (spares_assertCanManageShares role)
  intro _ _
  split
  · trivial
  split
  next => trivial
  next share found =>
    have old : dashboard.id < first := by
      rw [same]
      exact early (List.ne_nil_of_mem (List.mem_of_find?_eq_some found))
    apply Program.Keeps.bind (spares_lockLiveUser user)
    intro live _
    split
    next => trivial
    next =>
      apply Program.Keeps.acquire
      apply Program.Keeps.updateReturning
      · exact fun rows _ => List.forall_mem_singleton.mpr old
      intro rows _
      split
      · trivial
      apply Program.Keeps.bind (spares_deleteShare share.id)
      intro _ _
      apply Program.Keeps.update
      · exact fun rows _ => List.forall_mem_singleton.mpr old
      · trivial

theorem spares_leaveDashboard (caller : UserId) (id : DashboardId) :
    Spares first (fun _ => True) (leaveDashboard caller id) := by
  apply Program.Keeps.bind (spares_getCurrentUser caller)
  intro _ _
  apply Program.Keeps.bind (spares_loadDashboardAccess id caller)
  rintro ⟨dashboard, shares, role⟩ _
  dsimp only
  split
  · trivial
  split
  next => trivial
  next share _ =>
    apply Program.Keeps.bind (spares_deleteShare share.id)
    exact fun _ _ => trivial

/-- Taking locks writes nothing. -/
theorem spares_acquireAll (keys : List Lock) :
    Spares first (fun _ => True) (Program.acquireAll keys) := by
  induction keys with
  | nil => trivial
  | cons key rest ih => exact ih

/-- A purge invites nobody. -/
theorem spares_purgeAll (account : UserId) {locked : DashboardId} (old : first ≤ locked)
    (ids : List DashboardId) : Spares first (fun _ => True) (purgeAll account locked ids) := by
  induction ids with
  | nil => trivial
  | cons id rest ih =>
      apply Program.Keeps.acquire
      apply Program.Keeps.update
      · exact fun rows _ => List.forall_mem_singleton.mpr old
      · exact ih

/-- The deletion of an account invites nobody. -/
theorem spares_deleteAccount (account : UserId) {locked : DashboardId} (old : first ≤ locked) :
    Spares first (fun _ => True) (deleteAccount account locked) := by
  apply Program.Keeps.query
  intro read _
  apply Program.Keeps.bind (spares_purgeAll account old _)
  intro _ _
  apply Program.Keeps.query
  intro listed _
  apply Program.Keeps.bind (spares_acquireAll _)
  intro _ _
  apply Program.Keeps.update
  · exact fun rows _ => List.forall_mem_singleton.mpr trivial
  apply Program.Keeps.update
  · exact fun rows _ => List.forall_mem_singleton.mpr trivial
  intro rows _
  exact ⟨List.forall_mem_singleton.mpr trivial, trivial⟩

theorem spares_deleteOwnAccount (caller : UserId) (password : String) :
    Spares first (fun _ => True) (deleteOwnAccount caller password) := by
  apply Program.Keeps.bind (spares_getCurrentUser caller)
  intro user _
  split
  · trivial
  apply Program.Keeps.bind (spares_lockLiveUser caller)
  intro found _
  split
  next => trivial
  next =>
    apply Program.Keeps.query
    intro rows uninvited
    apply Program.Keeps.bind (spares_acquireAll _)
    intro _ _
    apply Program.Keeps.query
    intro looked _
    split
    · trivial
    apply Program.Keeps.bind (spares_deleteAccount caller uninvited.next)
    exact fun _ _ => trivial

end Uninvited

def Write.invites : Write → Bool
  | .insertInvite _ => true
  | _ => false

/-- The commit invites nobody. -/
def InvitesNobody (_ : Rows) (pending : List Write) : Prop :=
  ∀ write ∈ pending, write.invites = false

instance (rows : Rows) (pending : List Write) : Decidable (InvitesNobody rows pending) :=
  inferInstanceAs (Decidable (∀ write ∈ pending, write.invites = false))

/-- What a program spares, it spares whatever others do. -/
theorem ensures_of_spares {first : DashboardId} {α : Type} {post : α → Prop}
    {program : Handler α} (spares : Spares first post program) {pending : List Write}
    (begun : ∀ write ∈ pending, write.Old first) (held : Set Lock) (rows : Rows) :
    Ensures Rows.perform (uninviting first) InvitesNobody
      (fun _ written _ _ => ∀ write ∈ written, write.Old first) program pending held rows := by
  have kept : Ensures Rows.perform (uninviting first) InvitesNobody _ program pending held rows :=
    Ensures.of_keeps (fun _ _ _ => trivial)
      (fun _ _ uninvited old => Uninvited.performAll uninvited old) spares begun held rows
  apply Ensures.mono _ kept
  rintro _ _ _ _ ⟨-, old⟩
  exact old

/-- Without such a commit, an invite is not created. -/
theorem uninvited_createInvite (settings : Settings) (first : DashboardId) (caller : UserId)
    (id : DashboardId) (role : Membership.ShareRole) (code : Nat) (rows : Rows) :
    Ensures Rows.perform (uninviting first) InvitesNobody (fun _ _ _ _ => True)
      (createInvite settings caller id role code) [] ∅ rows := by
  apply Ensures.bind _
    (ensures_of_spares (spares_getCurrentUser caller) (List.forall_mem_nil _) ∅ rows)
  intro _ _ _ asked begun
  apply Ensures.bind _ (ensures_of_spares (spares_loadDashboardAccess id caller) begun _ asked)
  rintro ⟨dashboard, shares, role⟩ _ _ loaded begun
  apply Ensures.bind _ (ensures_of_spares (spares_assertCanManageShares role) begun _ loaded)
  intro _ _ _ allowed _
  apply Ensures.updateReturning
  intro inserted _ _
  split
  · trivial
  · intro later _ _ nobody
    cases nobody _ (List.mem_append_right _ (List.mem_singleton_self _))

/-! ## Runs -/

/-- The rows begin settled. -/
theorem settled_of_initial (begins : rows.Initial) : Settled rows where
  numbered := ⟨begins.dashboardIds, begins.dashboardsBefore⟩
  departed := by simp [begins.departures]
  removed := by simp [begins.removals]

theorem verified (settings : Settings) :
    Service.Verified (service settings) settling (fun _ _ => True) where
  initially := fun _ => settled_of_initial
  handlers := by
    intro _ request rows _
    cases request with
    | createDashboard caller name => exact kept_createDashboard settings caller name rows
    | createInvite caller dashboard role code =>
        exact kept_createInvite settings caller dashboard role code rows
    | acceptInvite caller code => exact kept_acceptInvite caller code rows
    | transferDashboardOwnership caller dashboard user =>
        exact kept_transferDashboardOwnership caller dashboard user rows
    | leaveDashboard caller dashboard => exact kept_leaveDashboard caller dashboard rows
    | deleteOwnAccount caller password => exact kept_deleteOwnAccount caller password rows
  keeps := fun _ _ settled => ⟨⟨settled.numbered.ids, settled.numbered.before⟩,
    fun departure present =>
      let clear := settled.departed departure present
      ⟨clear.gone, clear.dashboardIds, clear.shareIds, clear.owns, clear.holds⟩,
    settled.removed⟩
  leaves := fun rows _ _ =>
    relies_of_sublists rfl (fun _ present => present) (fun _ present => present) rfl rfl

/-- No deleted account owns a dashboard. -/
def OwnNothing (rows : Rows) : Prop :=
  ∀ departure ∈ rows.departures, ∀ dashboard ∈ rows.dashboards,
    dashboard.userId ≠ departure.user

/-- No share row names a deleted account. -/
def HoldNothing (rows : Rows) : Prop :=
  ∀ departure ∈ rows.departures, ∀ share ∈ rows.shares, share.principal ≠ departure.user

/-- No deletion removed a live dashboard that another live account had access to. -/
def TookNothing (rows : Rows) : Prop :=
  ∀ removal ∈ rows.removals, removal.dashboard.deletedAt = none → removal.others = []

instance (rows : Rows) : Decidable (OwnNothing rows) := by
  unfold OwnNothing
  infer_instance

instance (rows : Rows) : Decidable (HoldNothing rows) := by
  unfold HoldNothing
  infer_instance

instance (rows : Rows) : Decidable (TookNothing rows) := by
  unfold TookNothing
  infer_instance

def defaultSettings : Settings where
  quotaDashboardsPerUser := 100
  dashboardInviteExpire := 604800000000

/-- Two accounts, and the dashboard of the second with an invite to it. -/
def household : State Rows Write Lock Failure Unit where
  database :=
    { now := 0
      users := [⟨1, "ada@example.org", some "first", none⟩,
        ⟨2, "bob@example.org", some "second", none⟩]
      dashboards := [⟨1, 2, "Home", none, 2⟩]
      shares := []
      invites := [⟨⟨7, .editor, 2, 604800000000, none, none, none⟩, 1⟩]
      nextDashboardId := 2, nextShareId := 1, departures := [], removals := [] }
  holder := fun _ => none
  processes := fun _ => none

theorem household_initial (settings : Settings) : (service settings).system.Initial household :=
  ⟨⟨by simp [household], by simp [household], by simp [household], by simp [household],
    by simp [household], rfl, rfl⟩, fun _ => rfl, fun _ => rfl⟩

/-- While the first account is deleted, it creates a dashboard and redeems an invite, and the
dashboard and the share row stay. -/
theorem deletion_outlived :
    ∃ state, (service defaultSettings).system.Reachable state ∧ ¬ OwnNothing state.database ∧
      ¬ HoldNothing state.database := by
  obtain ⟨state, reached, shape⟩ := TransitionSystem.exists_reachable_of_run
    (household_initial defaultSettings)
    (runs 0 (.createDashboard 1 "Late") 1 ++ runs 1 (.acceptInvite 1 7) 1 ++
      runs 2 (.deleteOwnAccount 1 "first") 14 ++ List.replicate 4 (.advance 0) ++
      List.replicate 8 (.advance 1))
    (fun state => decide (¬ OwnNothing state.database ∧ ¬ HoldNothing state.database)) (by decide)
  exact ⟨state, reached, of_decide_eq_true shape⟩

/-- While nobody is invited, requests share none of the dashboards that are created. -/
theorem verified_uninviting (settings : Settings) {rows : Rows} (begins : rows.Initial) :
    Service.Verified ((service settings).startedAt rows) (uninviting rows.nextDashboardId)
      InvitesNobody where
  initially := by
    rintro started rfl
    refine ⟨le_rfl, begins.sharedBefore, begins.invitedBefore, ?_, ?_⟩
    · intro dashboard present late
      exact absurd (begins.dashboardsBefore dashboard present) (Nat.not_lt_of_le late)
    · simp [begins.removals]
  handlers := by
    intro _ request started _
    have keeps {program : Handler Unit}
        (spares : Spares rows.nextDashboardId (fun _ => True) program) :=
      Ensures.mono (fun _ _ _ _ _ => trivial)
        (ensures_of_spares spares (List.forall_mem_nil _) ∅ started)
    cases request with
    | createDashboard caller name => exact keeps (spares_createDashboard settings caller name)
    | createInvite caller dashboard role code =>
        exact uninvited_createInvite settings _ caller dashboard role code started
    | acceptInvite caller code => exact keeps (spares_acceptInvite caller code)
    | transferDashboardOwnership caller dashboard user =>
        exact keeps (spares_transferDashboardOwnership caller dashboard user)
    | leaveDashboard caller dashboard => exact keeps (spares_leaveDashboard caller dashboard)
    | deleteOwnAccount caller password => exact keeps (spares_deleteOwnAccount caller password)
  keeps := fun _ _ uninvited => { uninvited with }
  leaves := fun _ _ _ => trivial

/-- What is removed of others was created by the account, and of those that it creates
nothing is anybody else's. -/
theorem tookNothing {rows : Rows} (settled : Settled rows) {first : DashboardId}
    (uninvited : Uninvited first rows) : TookNothing rows := by
  intro removal present live
  by_contra shared
  obtain ⟨created, fresh⟩ := settled.removed removal present live shared
  obtain ⟨locked, alone⟩ := uninvited.removals removal present
  obtain ⟨user, member⟩ := List.exists_mem_of_ne_nil _ shared
  obtain ⟨creator, different⟩ := alone (locked.trans fresh) user member
  exact different (creator.trans created)

/-- **What outlives a deletion.** In every run, a deleted account owns only dashboards that
it created once the deletion had read which it owns, and only share rows inserted once the
deletion had deleted the account's name it. In every run in which nobody is invited, no
deletion removes a live dashboard that another live account has access to. -/
theorem remains_of_deletion (settings : Settings) :
    (∀ state, (service settings).system.Reachable state →
      ∀ departure ∈ state.database.departures,
        (∀ dashboard ∈ state.database.dashboards, dashboard.userId = departure.user →
          dashboard.createdBy = departure.user ∧ departure.dashboardsRead ≤ dashboard.id) ∧
        ∀ share ∈ state.database.shares, share.principal = departure.user →
          departure.sharesDeleted ≤ share.id) ∧
    ∀ state, (service settings).system.ReachedWithin (Service.CommitsWithin InvitesNobody) state →
      TookNothing state.database := by
  constructor
  · intro state reached departure present
    have settled : Settled state.database :=
      Service.invariant_of_reachable (verified settings) reached
    have clear := settled.departed departure present
    exact ⟨clear.owns, clear.holds⟩
  · intro state reached
    have settled : Settled state.database :=
      Service.invariant_of_reachable (verified settings) reached.reachable
    obtain ⟨rows, begins, started⟩ := Service.exists_startedAt reached
    exact tookNothing settled
      (Service.invariant_of_ensures (verified_uninviting settings begins) started)

/-- A dashboard is not given to an account that is deleted meanwhile, and the deletion takes
the account's own dashboard and share row. -/
theorem remains_of_refused_transfer :
    ∃ state : State Rows Write Lock Failure Unit,
      (state.database.dashboards = [⟨1, 2, "Home", none, 2⟩] ∧ state.database.shares = [] ∧
        state.database.departures = [⟨1, 3, 2⟩] ∧
        state.database.removals.map (·.dashboard) = [⟨2, 1, "Own", none, 1⟩]) ∧
      TookNothing state.database := by
  obtain ⟨state, reached, shape⟩ := TransitionSystem.exists_reachedWithin_of_run
    (Service.CommitsWithin InvitesNobody) (household_initial defaultSettings)
    (runs 0 (.acceptInvite 1 7) 9 ++ runs 1 (.createDashboard 1 "Own") 4 ++
      runs 2 (.transferDashboardOwnership 2 1 1) 3 ++ runs 3 (.deleteOwnAccount 1 "first") 16 ++
      List.replicate 3 (.advance 2))
    (fun state => decide (state.database.dashboards = [⟨1, 2, "Home", none, 2⟩] ∧
      state.database.shares = [] ∧ state.database.departures = [⟨1, 3, 2⟩] ∧
      state.database.removals.map (·.dashboard) = [⟨2, 1, "Own", none, 1⟩])) (by decide)
  exact ⟨state, of_decide_eq_true shape, (remains_of_deletion defaultSettings).2 state reached⟩

end FrontDashboard.Deletion
