import FrontDashboard.Access.Agree
import FrontDashboard.Preferences.Routes

/-! # What a user reaches

A row change takes access from nobody but those it is meant for: purging from those who
reach what is purged, a deleted share row from its principal.
-/

namespace FrontDashboard.Preferences

open Access (Accessible Dashboard ShareRow Store UserId eq_of_id)
open FrontDashboard.Membership (ShareRole)

/-- The dashboard is live, and the user owns it or holds a share row of it. -/
def Reaches (store : Store) (user : UserId) (id : Uuid) : Prop :=
  Accessible store ⟨user, []⟩ id

/-- Where the share rows of one dashboard are. -/
theorem mem_sharesOf {store : Store} {id : Uuid} {share : ShareRow} :
    share ∈ store.sharesOf id ↔
      share ∈ store.shares ∧ share.resourceType = .dashboard ∧ share.resourceId = id := by
  simp [Store.sharesOf]

section Reaching

variable {store : Store} {user : UserId} {id : Uuid}

theorem Reaches.change {change : Dashboard → Dashboard}
    {keeps : ∀ dashboard, (change dashboard).id = dashboard.id} (reached : Reaches store user id)
    (live : ∀ dashboard ∈ store.dashboards, dashboard.id = id → dashboard.deletedAt = none →
      (change dashboard).deletedAt = none)
    (owner : ∀ dashboard, (change dashboard).userId = dashboard.userId) :
    Reaches (changeDashboards store change keeps) user id := by
  obtain ⟨dashboard, present, named, alive, entitled⟩ := reached
  refine ⟨change dashboard, List.mem_map_of_mem present, (keeps dashboard).trans named,
    live dashboard present named alive, ?_⟩
  rcases entitled with owns | ⟨share, held, type, resource, principal⟩
  · exact .inl ((owner dashboard).trans owns)
  · exact .inr ⟨share, held, type, resource.trans (keeps dashboard).symm, principal⟩

/-- A stamp ends no one's access to another dashboard, and a restore to none. -/
theorem Reaches.stamp (reached : Reaches store user id) {stamped : Uuid} {deletedAt : Option Int}
    (now : Int) (allowed : id ≠ stamped ∨ deletedAt = none) :
    Reaches (stamp store stamped deletedAt now) user id := by
  unfold Preferences.stamp
  refine reached.change ?_ ?_
  · intro dashboard _ named alive
    split
    next same =>
      rcases allowed with different | restored
      · exact absurd (named.symm.trans same) different
      · exact restored
    next => exact alive
  · intro dashboard
    split <;> rfl

theorem Reaches.insert {dashboard : Dashboard}
    {fresh : dashboard.id ∉ store.dashboards.map Dashboard.id} (reached : Reaches store user id) :
    Reaches (insertDashboard store dashboard fresh) user id := by
  obtain ⟨known, present, named, alive, entitled⟩ := reached
  exact ⟨known, List.mem_append_left _ present, named, alive, entitled⟩

/-- Who reaches a dashboard that stays reaches it still. -/
theorem Reaches.remove {doomed : Dashboard → Bool} (reached : Reaches store user id)
    (spared : ∀ dashboard ∈ store.dashboards, dashboard.id = id → dashboard.deletedAt = none →
      doomed dashboard = false) : Reaches (removeDashboards store doomed) user id := by
  obtain ⟨dashboard, present, named, alive, entitled⟩ := reached
  have stays := spared dashboard present named alive
  refine ⟨dashboard, List.mem_filter.mpr ⟨present, by simp [stays]⟩, named, alive, ?_⟩
  rcases entitled with owns | ⟨share, held, type, resource, principal⟩
  · exact .inl owns
  · refine .inr ⟨share, List.mem_filter.mpr ⟨held, ?_⟩, type, resource, principal⟩
    rw [Bool.not_eq_true', List.any_eq_false]
    intro other among goes
    rw [Bool.and_eq_true, beq_iff_eq] at goes
    rw [eq_of_id among present (goes.2.trans resource), stays] at goes
    cases goes.1

/-- Handing a dashboard over leaves access to the others, and access by a share row. -/
theorem Reaches.setOwner (reached : Reaches store user id) {handed : Uuid} (userId : UserId)
    (now : Int) (allowed : id ≠ handed ∨ ∃ share ∈ store.shares,
      share.resourceType = .dashboard ∧ share.resourceId = id ∧ share.principal = user) :
    Reaches (setOwner store handed userId now) user id := by
  obtain ⟨dashboard, present, named, alive, entitled⟩ := reached
  rcases allowed with different | ⟨share, held, type, resource, mine⟩
  · refine ⟨dashboard, List.mem_map.mpr ⟨dashboard, present, if_neg ?_⟩, named, alive, entitled⟩
    rw [named]
    exact different
  · refine ⟨_, List.mem_map_of_mem present, ?_⟩
    split
    · exact ⟨named, alive, .inr ⟨share, held, type, resource.trans named.symm, mine⟩⟩
    · exact ⟨named, alive, .inr ⟨share, held, type, resource.trans named.symm, mine⟩⟩

/-- Share rows of others may go. -/
theorem Reaches.dropPrincipal (reached : Reaches store user id) {gone : UserId}
    (different : user ≠ gone) :
    Reaches { store with shares := store.shares.filter fun share => share.principal ≠ gone }
      user id := by
  obtain ⟨dashboard, present, named, alive, entitled⟩ := reached
  refine ⟨dashboard, present, named, alive, ?_⟩
  rcases entitled with owns | ⟨share, held, type, resource, mine⟩
  · exact .inl owns
  · refine .inr ⟨share, List.mem_filter.mpr ⟨held, ?_⟩, type, resource, mine⟩
    apply decide_eq_true
    rw [mine]
    exact different

end Reaching

/-! ## Share rows -/

/-- The share rows are numbered, each with a number of its own. -/
structure Numbered (rows : Rows) : Prop where
  ids : (rows.store.shares.map (·.id)).Nodup
  fresh : ∀ share ∈ rows.store.shares, share.id < rows.nextShareId

section Sharing

variable {rows : Rows} {user : UserId} {id : Uuid}

theorem Numbered.of_sublist {after : Rows} (numbered : Numbered rows)
    (fewer : List.Sublist after.store.shares rows.store.shares)
    (next : after.nextShareId = rows.nextShareId) : Numbered after where
  ids := numbered.ids.sublist (fewer.map _)
  fresh := by
    intro share present
    rw [next]
    exact numbered.fresh share (fewer.subset present)

/-- An upsert takes nothing from anyone. -/
theorem Reaches.createShare (reached : Reaches rows.store user id) (resource : Uuid)
    (principal : UserId) (role : ShareRole) (grantedBy : UserId) :
    Reaches (rows.createShare resource principal role grantedBy).store user id := by
  obtain ⟨dashboard, present, named, alive, entitled⟩ := reached
  unfold Rows.createShare
  split
  · refine ⟨dashboard, present, named, alive, ?_⟩
    rcases entitled with owns | ⟨share, held, type, same, mine⟩
    · exact .inl owns
    · refine .inr ⟨_, List.mem_map_of_mem held, ?_⟩
      split <;> exact ⟨type, same, mine⟩
  · refine ⟨dashboard, present, named, alive, ?_⟩
    rcases entitled with owns | ⟨share, held, type, same, mine⟩
    · exact .inl owns
    · exact .inr ⟨share, List.mem_append_left _ held, type, same, mine⟩

@[simp] theorem createShare_dashboards (rows : Rows) (resource : Uuid) (principal : UserId)
    (role : ShareRole) (grantedBy : UserId) :
    (rows.createShare resource principal role grantedBy).store.dashboards =
      rows.store.dashboards := by
  unfold Rows.createShare
  split <;> rfl

@[simp] theorem createShare_users (rows : Rows) (resource : Uuid) (principal : UserId)
    (role : ShareRole) (grantedBy : UserId) :
    (rows.createShare resource principal role grantedBy).users = rows.users := by
  unfold Rows.createShare
  split <;> rfl

/-- Who is granted a share reaches the dashboard. -/
theorem reaches_createShare {dashboard : Dashboard} (present : dashboard ∈ rows.store.dashboards)
    (alive : dashboard.deletedAt = none) (principal : UserId) (role : ShareRole)
    (grantedBy : UserId) :
    Reaches (rows.createShare dashboard.id principal role grantedBy).store principal
      dashboard.id := by
  refine ⟨dashboard, ?_, rfl, alive, .inr ?_⟩
  · rw [createShare_dashboards]
    exact present
  unfold Rows.createShare
  split
  next exists_ =>
    obtain ⟨share, held, targets⟩ := List.any_eq_true.mp exists_
    have fits := targets
    simp only [ShareRow.targets, Bool.and_eq_true, decide_eq_true_eq, beq_iff_eq] at fits
    refine ⟨{ share with role }, List.mem_map.mpr ⟨share, held, if_pos targets⟩, ?_⟩
    exact ⟨fits.1.1, fits.1.2, fits.2⟩
  next =>
    exact ⟨_, List.mem_append_right _ (List.mem_singleton.mpr rfl), rfl, rfl, rfl⟩

theorem Numbered.createShare (numbered : Numbered rows) (resource : Uuid) (principal : UserId)
    (role : ShareRole) (grantedBy : UserId) :
    Numbered (rows.createShare resource principal role grantedBy) := by
  unfold Rows.createShare
  split
  · have same : ∀ share : ShareRow,
        (if ShareRow.targets resource principal share then { share with role } else share).id =
          share.id := by
      intro share
      split <;> rfl
    constructor
    · simp only [List.map_map, Function.comp_def, same]
      exact numbered.ids
    · intro share present
      obtain ⟨before, held, rfl⟩ := List.mem_map.mp present
      rw [same]
      exact numbered.fresh before held
  · constructor
    · rw [List.map_append, List.map_singleton, ← List.concat_eq_append]
      apply numbered.ids.concat
      intro member
      obtain ⟨share, held, same⟩ := List.mem_map.mp member
      exact absurd same (Nat.ne_of_lt (numbered.fresh share held))
    · intro share present
      rcases List.mem_append.mp present with held | added
      · exact Nat.lt_succ_of_lt (numbered.fresh share held)
      · rw [List.mem_singleton.mp added]
        exact Nat.lt_succ_self _

theorem Numbered.deleteShare (numbered : Numbered rows) (share : Nat) :
    Numbered (rows.deleteShare share) :=
  numbered.of_sublist List.filter_sublist rfl

/-- Deleting a share row concerns its principal and its dashboard only. -/
theorem Reaches.deleteShare (reached : Reaches rows.store user id) (numbered : Numbered rows)
    {share : ShareRow} (present : share ∈ rows.store.shares)
    (elsewhere : ¬ (user = share.principal ∧ id = share.resourceId)) :
    Reaches (rows.deleteShare share.id).store user id := by
  obtain ⟨dashboard, among, named, alive, entitled⟩ := reached
  refine ⟨dashboard, among, named, alive, ?_⟩
  rcases entitled with owns | ⟨other, held, type, resource, mine⟩
  · exact .inl owns
  · refine .inr ⟨other, List.mem_filter.mpr ⟨held, ?_⟩, type, resource, mine⟩
    apply decide_eq_true
    intro same
    have equal := List.inj_on_of_nodup_map numbered.ids held present same
    subst equal
    exact elsewhere ⟨mine.symm, (resource.trans named).symm⟩

end Sharing

end FrontDashboard.Preferences
