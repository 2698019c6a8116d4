import FrontDashboard.Deletion.Frames

/-! # What a deletion knows and writes

The dashboards that the deletion of an account has read under its locks are that account's and
nobody else's until it commits. What it writes leaves the rows settled, the others' dashboards
and their share rows as they are.
-/

namespace FrontDashboard.Deletion

open ReadCommitted
open FrontDashboard.Membership (members)

variable {rows : Rows} {others held : Set Lock}

/-! ## What a deletion knows -/

/-- Each dashboard of the account is new, or is locked and nobody else's. -/
structure Alone (held : Set Lock) (account : UserId) (locked : DashboardId) (rows : Rows) :
    Prop where
  before : locked ≤ rows.nextDashboardId
  dashboards : ∀ dashboard ∈ rows.dashboards, dashboard.userId = account →
    (locked ≤ dashboard.id ∧ dashboard.createdBy = account) ∨
      (.dashboard dashboard.id ∈ held ∧
        (dashboard.deletedAt = none → ∀ share ∈ rows.shares, share.resourceId ≠ dashboard.id))

/-- The dashboards that the deletion has read: all of the account but those that it has
created since, and each new or nobody else's. -/
structure Doomed (held : Set Lock) (account : UserId) (locked read : DashboardId)
    (ids : List DashboardId) (rows : Rows) : Prop where
  before : read ≤ rows.nextDashboardId
  known : ∀ id ∈ ids, id < rows.nextDashboardId
  all : ∀ dashboard ∈ rows.dashboards, dashboard.userId = account →
    dashboard.id ∈ ids ∨ (dashboard.createdBy = account ∧ read ≤ dashboard.id)
  own : ∀ dashboard ∈ rows.dashboards, dashboard.id ∈ ids →
    (dashboard.createdBy = account ∧ locked ≤ dashboard.id) ∨
      (.dashboard dashboard.id ∈ held ∧ dashboard.userId = account ∧
        (dashboard.deletedAt = none → ∀ share ∈ rows.shares, share.resourceId ≠ dashboard.id))

/-- The share rows that the deletion has read: all of the account but those of its
dashboards and those inserted since. -/
structure Shed (account : UserId) (deleted : Nat) (shares : List Nat) (ids : List DashboardId)
    (rows : Rows) : Prop where
  before : deleted ≤ rows.nextShareId
  all : ∀ share ∈ rows.shares, share.principal = account →
    share.id ∈ shares ∨ share.resourceId ∈ ids ∨ deleted ≤ share.id

/-- An account without shared dashboards owns no live one of which there is a share row. -/
theorem sharedDashboardsOwnedBy_eq_nil {account : UserId}
    (none_ : sharedDashboardsOwnedBy account rows = []) {dashboard : Dashboard}
    (present : dashboard ∈ rows.dashboards) (own : dashboard.userId = account)
    (live : dashboard.deletedAt = none) {share : Share} (granted : share ∈ rows.shares) :
    share.resourceId ≠ dashboard.id := by
  intro same
  rw [sharedDashboardsOwnedBy] at none_
  have unsorted := List.perm_insertionSort (· ≤ ·) (((rows.ownedBy account).filter fun dashboard =>
    dashboard.deletedAt.isNone && !(rows.sharesOf dashboard.id).isEmpty).map (·.name))
  rw [none_, List.nil_perm, List.map_eq_nil_iff] at unsorted
  have listed : share.toResourceShare ∈ rows.sharesOf dashboard.id :=
    List.mem_map_of_mem (List.mem_filter.mpr ⟨granted, decide_eq_true same⟩)
  have selected : dashboard ∈ (rows.ownedBy account).filter fun dashboard =>
      dashboard.deletedAt.isNone && !(rows.sharesOf dashboard.id).isEmpty := by
    refine List.mem_filter.mpr ⟨List.mem_filter.mpr ⟨present, decide_eq_true own⟩, ?_⟩
    rw [live, List.isEmpty_eq_false_iff.mpr (List.ne_nil_of_mem listed)]
    rfl
  rw [unsorted] at selected
  cases selected

/-- Who holds the lock of an account finds each of its dashboards as its own of before, or
created by itself. -/
theorem Relies.own {before after : Rows} (relies : Relies held before after) {account : UserId}
    (locked : .account account ∈ held) {new : Dashboard} (present : new ∈ after.dashboards)
    (own : new.userId = account) :
    (∃ old ∈ before.dashboards, old.id = new.id ∧ old.createdBy = new.createdBy ∧
        old.userId = account) ∨
      (before.nextDashboardId ≤ new.id ∧ new.createdBy = account) := by
  have bound : ¬ Lock.account new.userId ∉ held := by
    rw [own]
    exact not_not_intro locked
  rcases relies.owners new present with ⟨old, there, sameId, sameBy, owned⟩ | ⟨newer, owned⟩
  · exact .inl ⟨old, there, sameId, sameBy, (owned.resolve_right bound).symm.trans own⟩
  · exact .inr ⟨newer, (owned.resolve_right bound).symm.trans own⟩

/-- A locked dashboard that nobody else had is still nobody else's. -/
theorem Relies.unshared {before after : Rows} (relies : Relies held before after)
    {id : DashboardId} (locked : .dashboard id ∈ held)
    (unshared : ∀ share ∈ before.shares, share.resourceId ≠ id) :
    ∀ share ∈ after.shares, share.resourceId ≠ id := by
  intro share present same
  rw [← same] at locked
  obtain ⟨old, there, -, -, sameResource⟩ := relies.shares share present (.inr locked)
  exact unshared old there (sameResource.trans same)

/-- A look under the locks of all its dashboards finds an account alone on them. -/
theorem Alone.of_locked {began looked : Rows} {account : UserId}
    (relies : Relies {.account account} began looked)
    (locks : ∀ dashboard ∈ began.dashboards, dashboard.userId = account →
      .dashboard dashboard.id ∈ held)
    (none_ : sharedDashboardsOwnedBy account looked = []) :
    Alone held account began.nextDashboardId looked where
  before := relies.dashboardIds
  dashboards := by
    intro dashboard present own
    rcases relies.own (Set.mem_singleton _) present own with ⟨old, there, same, -, owned⟩ | newer
    · have locked := locks old there owned
      rw [same] at locked
      exact .inr ⟨locked, fun live _ => sharedDashboardsOwnedBy_eq_nil none_ present own live⟩
    · exact .inl newer

/-- An account stays alone while the locks are held. -/
theorem Alone.later {account : UserId} {locked : DashboardId} {later : Rows}
    (alone : Alone held account locked rows) (numbered : Numbered rows)
    (relies : Relies held rows later) (lock : .account account ∈ held) :
    Alone held account locked later where
  before := alone.before.trans relies.dashboardIds
  dashboards := by
    intro dashboard present own
    rcases relies.own lock present own with ⟨old, there, sameId, sameBy, owned⟩ | ⟨newer, created⟩
    · by_cases row : Lock.dashboard dashboard.id ∈ held
      · have known := numbered.before old there
        rw [sameId] at known
        have before := relies.dashboards dashboard present known row
        rcases alone.dashboards dashboard before own with fresh | ⟨-, unshared⟩
        · exact .inl fresh
        · exact .inr ⟨row, fun live => relies.unshared row (unshared live)⟩
      · rcases alone.dashboards old there owned with ⟨fresh, created⟩ | ⟨bound, -⟩
        · rw [sameId] at fresh
          exact .inl ⟨fresh, sameBy.symm.trans created⟩
        · rw [sameId] at bound
          exact absurd bound row
    · exact .inl ⟨alone.before.trans newer, created⟩

/-- What the account owns when its dashboards are read is doomed. -/
theorem Alone.doomed {account : UserId} {locked : DashboardId}
    (alone : Alone held account locked rows) (numbered : Numbered rows) :
    Doomed held account locked rows.nextDashboardId ((rows.ownedBy account).map (·.id)) rows where
  before := le_rfl
  known := by
    intro id listed
    obtain ⟨dashboard, own, rfl⟩ := List.mem_map.mp listed
    exact numbered.before dashboard (List.mem_of_mem_filter own)
  all := fun dashboard present own =>
    .inl (List.mem_map_of_mem (List.mem_filter.mpr ⟨present, decide_eq_true own⟩))
  own := by
    intro dashboard present listed
    obtain ⟨other, own, same⟩ := List.mem_map.mp listed
    obtain ⟨there, owned⟩ := List.mem_filter.mp own
    rw [numbered.eq_of_id there present same] at owned
    have owned := of_decide_eq_true owned
    rcases alone.dashboards dashboard present owned with ⟨fresh, created⟩ | ⟨row, unshared⟩
    · exact .inl ⟨created, fresh⟩
    · exact .inr ⟨row, owned, unshared⟩

/-- What is doomed stays so while the locks are held. -/
theorem Doomed.later {account : UserId} {locked read : DashboardId} {ids : List DashboardId}
    {later : Rows} (doomed : Doomed held account locked read ids rows)
    (relies : Relies held rows later) (lock : .account account ∈ held) :
    Doomed held account locked read ids later where
  before := doomed.before.trans relies.dashboardIds
  known := fun id listed => (doomed.known id listed).trans_le relies.dashboardIds
  all := by
    intro dashboard present own
    rcases relies.own lock present own with ⟨old, there, sameId, sameBy, owned⟩ | ⟨newer, created⟩
    · rw [← sameId, ← sameBy]
      exact doomed.all old there owned
    · exact .inr ⟨created, doomed.before.trans newer⟩
  own := by
    intro dashboard present listed
    have known := doomed.known dashboard.id listed
    by_cases row : Lock.dashboard dashboard.id ∈ held
    · have before := relies.dashboards dashboard present known row
      rcases doomed.own dashboard before listed with fresh | ⟨-, own, unshared⟩
      · exact .inl fresh
      · exact .inr ⟨row, own, fun live => relies.unshared row (unshared live)⟩
    · rcases relies.owners dashboard present with ⟨old, there, sameId, sameBy, -⟩ | ⟨newer, -⟩
      · rw [← sameId] at listed
        rcases doomed.own old there listed with fresh | ⟨bound, -⟩
        · rw [sameId, sameBy] at fresh
          exact .inl fresh
        · rw [sameId] at bound
          exact absurd bound row
      · exact absurd newer (Nat.not_le_of_lt known)

/-- Its share rows stay shed. -/
theorem Shed.later {account : UserId} {deleted : Nat} {shares : List Nat} {ids : List DashboardId}
    {later : Rows} (shed : Shed account deleted shares ids rows)
    (relies : Relies held rows later) : Shed account deleted shares ids later where
  before := shed.before.trans relies.shareIds
  all := by
    intro share present own
    by_cases known : share.id < rows.nextShareId
    · obtain ⟨old, there, sameId, samePrincipal, sameResource⟩ :=
        relies.shares share present (.inl known)
      rw [← sameId, ← sameResource]
      exact shed.all old there (samePrincipal.trans own)
    · exact .inr (.inr (shed.before.trans (Nat.le_of_not_lt known)))

/-! ## What a deletion writes -/

/-- The writes of `purge_dashboard`. -/
def purges (account : UserId) (locked : DashboardId) (ids : List DashboardId) : List Write :=
  ids.map fun id => .deleteDashboard id account locked

/-- All writes of a deletion. -/
def deletes (departure : Departure) (locked : DashboardId) (ids : List DashboardId)
    (shares codes : List Nat) (moment : Membership.Time) : List Write :=
  purges departure.user locked ids ++ [.deleteShares shares] ++ [.deleteInvites codes] ++
    [.tombstone departure moment]

/-- The purges leave the dashboards that are not among those purged. -/
theorem mem_dashboards_purges {account : UserId} {locked : DashboardId} {ids : List DashboardId}
    {dashboard : Dashboard} :
    dashboard ∈ (performAll Rows.perform rows (purges account locked ids)).dashboards ↔
      dashboard ∈ rows.dashboards ∧ dashboard.id ∉ ids := by
  induction ids generalizing rows with
  | nil => simp [purges]
  | cons id rest ih =>
      change dashboard ∈ (performAll Rows.perform _ (purges account locked rest)).dashboards ↔ _
      rw [ih, Rows.perform, List.mem_filter, List.mem_cons, not_or, and_assoc, decide_eq_true_iff]

/-- The purges leave the share rows of the other dashboards. -/
theorem mem_shares_purges {account : UserId} {locked : DashboardId} {ids : List DashboardId}
    {share : Share} :
    share ∈ (performAll Rows.perform rows (purges account locked ids)).shares ↔
      share ∈ rows.shares ∧ share.resourceId ∉ ids := by
  induction ids generalizing rows with
  | nil => simp [purges]
  | cons id rest ih =>
      change share ∈ (performAll Rows.perform _ (purges account locked rest)).shares ↔ _
      rw [ih, Rows.perform, List.mem_filter, List.mem_cons, not_or, and_assoc, decide_eq_true_iff]

/-- The purges change neither departures nor ids of share rows. -/
theorem purges_kept (account : UserId) (locked : DashboardId) (ids : List DashboardId)
    (rows : Rows) :
    (performAll Rows.perform rows (purges account locked ids)).departures = rows.departures ∧
      (performAll Rows.perform rows (purges account locked ids)).nextShareId =
        rows.nextShareId := by
  induction ids generalizing rows with
  | nil => exact ⟨rfl, rfl⟩
  | cons id rest ih => exact ih (rows.perform (.deleteDashboard id account locked))

/-- The others with a dashboard own it or have a share row of it, and are not deleted. -/
theorem mem_othersWith {dashboard : Dashboard} {account user : UserId} :
    user ∈ rows.othersWith dashboard account ↔
      (user = dashboard.userId ∨ ∃ share ∈ rows.shares, share.resourceId = dashboard.id ∧
        share.principal = user) ∧ user ≠ account ∧ rows.tombstoned user = false := by
  simp [Rows.othersWith, members, Rows.sharesOf, and_assoc]

/-- What purging removes is what the rows had, with no more access to it than there was. -/
theorem removals_purges {account : UserId} {locked : DashboardId} {ids : List DashboardId}
    {removal : Removal}
    (removed : removal ∈ (performAll Rows.perform rows (purges account locked ids)).removals) :
    removal ∈ rows.removals ∨
      (removal.dashboard ∈ rows.dashboards ∧ removal.dashboard.id ∈ ids ∧
        removal.account = account ∧ removal.locked = locked ∧
        removal.others ⊆ rows.othersWith removal.dashboard account) := by
  induction ids generalizing rows with
  | nil => exact .inl removed
  | cons id rest ih =>
      change removal ∈ (performAll Rows.perform (rows.perform (.deleteDashboard id account locked))
        (purges account locked rest)).removals at removed
      rcases ih removed with earlier | ⟨present, listed, same, bound, fewer⟩
      · rcases List.mem_append.mp earlier with before | added
        · exact .inl before
        · obtain ⟨dashboard, selected, rfl⟩ := List.mem_map.mp added
          obtain ⟨present, named⟩ := List.mem_filter.mp selected
          have named := of_decide_eq_true named
          exact .inr ⟨present, List.mem_cons.mpr (.inl named), rfl, rfl, List.Subset.refl _⟩
      · refine .inr ⟨List.mem_of_mem_filter present, List.mem_cons_of_mem _ listed, same, bound, ?_⟩
        intro user member
        obtain ⟨access, different, live⟩ := mem_othersWith.mp (fewer member)
        refine mem_othersWith.mpr ⟨access.imp_right ?_, different, live⟩
        rintro ⟨share, kept, named⟩
        exact ⟨share, List.mem_of_mem_filter kept, named⟩

/-- A doomed dashboard is removed fairly. -/
theorem Doomed.fair {account : UserId} {locked read : DashboardId} {ids : List DashboardId}
    (doomed : Doomed held account locked read ids rows) {removal : Removal}
    (present : removal.dashboard ∈ rows.dashboards) (listed : removal.dashboard.id ∈ ids)
    (same : removal.account = account) (bound : removal.locked = locked)
    (fewer : removal.others ⊆ rows.othersWith removal.dashboard account) : removal.Fair := by
  intro live shared
  rw [same, bound]
  rcases doomed.own removal.dashboard present listed with fresh | ⟨-, own, unshared⟩
  · exact fresh
  · obtain ⟨user, member⟩ := List.exists_mem_of_ne_nil _ shared
    obtain ⟨access, different, -⟩ := mem_othersWith.mp (fewer member)
    rcases access with owner | ⟨share, granted, named, -⟩
    · exact absurd (owner.trans own) different
    · exact absurd named (unshared live share granted)

variable {departure : Departure} {locked : DashboardId} {ids : List DashboardId}
  {shares codes : List Nat} {moment : Membership.Time}

/-- A deletion leaves the dashboards that it does not purge. -/
theorem mem_dashboards_deletes {dashboard : Dashboard} :
    dashboard ∈ (performAll Rows.perform rows
        (deletes departure locked ids shares codes moment)).dashboards ↔
      dashboard ∈ rows.dashboards ∧ dashboard.id ∉ ids := by
  rw [deletes, performAll_append, performAll_append, performAll_append]
  exact mem_dashboards_purges

/-- A deletion leaves the share rows that it does not delete. -/
theorem mem_shares_deletes {share : Share} :
    share ∈ (performAll Rows.perform rows
        (deletes departure locked ids shares codes moment)).shares ↔
      (share ∈ rows.shares ∧ share.resourceId ∉ ids) ∧ share.id ∉ shares := by
  rw [deletes, performAll_append, performAll_append, performAll_append]
  rw [← @mem_shares_purges rows departure.user locked ids share]
  change share ∈ List.filter _ _ ↔ _
  rw [List.mem_filter, decide_eq_true_iff]

/-- Its writes need no lock that others hold. -/
theorem deletes_free (apart : .account departure.user ∉ others) :
    ∀ write ∈ deletes departure locked ids shares codes moment, write.Free others := by
  intro write member
  simp only [deletes, purges, List.mem_append, List.mem_map, List.mem_singleton] at member
  rcases member with ((⟨id, -, rfl⟩ | rfl) | rfl) | rfl
  · trivial
  · trivial
  · trivial
  · exact apart

/-- A deletion is on record as a departure. -/
theorem departures_deletes :
    (performAll Rows.perform rows
      (deletes departure locked ids shares codes moment)).departures =
        rows.departures ++ [departure] := by
  rw [deletes, performAll_append, performAll_append, performAll_append]
  change (performAll Rows.perform rows (purges departure.user locked ids)).departures ++ _ = _
  rw [(purges_kept departure.user locked ids rows).1]

/-- What a deletion purges is on record as removals. -/
theorem removals_deletes :
    (performAll Rows.perform rows
      (deletes departure locked ids shares codes moment)).removals =
        (performAll Rows.perform rows (purges departure.user locked ids)).removals := by
  rw [deletes, performAll_append, performAll_append, performAll_append]
  rfl

/-- A `DELETE` of the share rows finds those that purging leaves. -/
theorem Shed.of_purged (account : UserId) (locked : DashboardId) (ids : List DashboardId)
    (rows : Rows) :
    Shed account rows.nextShareId
      (((performAll Rows.perform rows (purges account locked ids)).shares.filter
        (·.principal = account)).map (·.id)) ids rows where
  before := le_rfl
  all := by
    intro share present own
    by_cases cascades : share.resourceId ∈ ids
    · exact .inr (.inl cascades)
    · have kept := (@mem_shares_purges rows account locked ids share).mpr ⟨present, cascades⟩
      exact .inl (List.mem_map_of_mem (List.mem_filter.mpr ⟨kept, decide_eq_true own⟩))

/-- After it the account has neither dashboards nor share rows. -/
theorem Clear.of_deletes
    (doomed : Doomed held departure.user locked departure.dashboardsRead ids rows)
    (shed : Shed departure.user departure.sharesDeleted shares ids rows)
    (live : (rows.liveUser? departure.user).isSome = true) :
    Clear (performAll Rows.perform rows (deletes departure locked ids shares codes moment))
      departure := by
  have relies : Relies ∅ rows (performAll Rows.perform rows
      (deletes departure locked ids shares codes moment)) :=
    relies_performAll (deletes_free (Set.notMem_empty _)) rows
  constructor
  · rw [deletes, performAll_append]
    apply tombstoned_tombstone_self
    have spared : ∀ write ∈ purges departure.user locked ids ++ [.deleteShares shares] ++
        [.deleteInvites codes], write.Free {.account departure.user} := by
      intro write member
      simp only [purges, List.mem_append, List.mem_map, List.mem_singleton] at member
      rcases member with (⟨id, -, rfl⟩ | rfl) | rfl <;> trivial
    exact (relies_performAll spared rows).live _ (Set.mem_singleton _) live
  · exact doomed.before.trans relies.dashboardIds
  · exact shed.before.trans relies.shareIds
  · intro dashboard present own
    obtain ⟨before, kept⟩ := mem_dashboards_deletes.mp present
    exact (doomed.all dashboard before own).resolve_left kept
  · intro share present own
    obtain ⟨⟨before, kept⟩, stays⟩ := mem_shares_deletes.mp present
    exact ((shed.all share before own).resolve_left stays).resolve_left kept

/-- **A deletion** leaves what stands standing. -/
theorem settled_deletes (settled : Settled rows)
    (doomed : Doomed held departure.user locked departure.dashboardsRead ids rows)
    (shed : Shed departure.user departure.sharesDeleted shares ids rows)
    (live : (rows.liveUser? departure.user).isSome = true) :
    Settled (performAll Rows.perform rows
      (deletes departure locked ids shares codes moment)) where
  numbered := settled.numbered.performAll _
  departed := by
    intro other present
    rw [departures_deletes] at present
    rcases List.mem_append.mp present with before | added
    · have clear := settled.departed other before
      apply clear.relies (relies_performAll (deletes_free _) rows)
      intro same
      have gone := clear.gone
      rw [← Lock.account.inj same, not_tombstoned_of_live live] at gone
      cases gone
    · rw [List.mem_singleton.mp added]
      exact .of_deletes doomed shed live
  removed := by
    intro removal present
    rw [removals_deletes] at present
    rcases removals_purges present with before | ⟨there, listed, same, bound, fewer⟩
    · exact settled.removed removal before
    · exact doomed.fair there listed same bound fewer

/-- The handler purges the dashboards that it has read. -/
theorem kept_purgeAll (account : UserId) (locked : DashboardId) (ids : List DashboardId)
    (pending : List Write) (held : Set Lock) (rows : Rows) :
    Kept (fun _ after holds later => after = pending ++ purges account locked ids ∧
        held ⊆ holds ∧ Relies held rows later)
      (purgeAll account locked ids) pending held rows := by
  induction ids generalizing pending held rows with
  | nil => exact ⟨(List.append_nil pending).symm, subset_rfl, .refl held rows⟩
  | cons id rest ih =>
      apply Ensures.acquire
      intro waited toWaited _
      apply Ensures.update
      intro deleted toDeleted _
      apply Ensures.mono _ (ih _ _ _)
      rintro _ after holds later ⟨same, more, further⟩
      have kept := Set.subset_insert (Lock.dashboard id) held
      refine ⟨?_, kept.trans more, ?_⟩
      · rw [same, List.append_assoc]
        rfl
      · exact (toWaited.trans (Relies.fewer kept toDeleted)).trans (further.fewer kept)

/-- The handler takes its locks without a write. -/
theorem kept_acquireAll (keys : List Lock) (pending : List Write) (held : Set Lock)
    (rows : Rows) :
    Kept (fun _ after holds later => after = pending ∧ held ⊆ holds ∧
        (∀ key ∈ keys, key ∈ holds) ∧ Relies held rows later)
      (Program.acquireAll keys) pending held rows :=
  Ensures.acquireAll (fun key held _ _ => Relies.fewer (Set.subset_insert key held)) keys pending
    held rows

/-- The transaction of a deletion, once the account's dashboards are locked and found not to
be shared. -/
theorem kept_deleteAccount (account : UserId) (locked : DashboardId)
    (lock : .account account ∈ held) (live : (rows.liveUser? account).isSome = true)
    (alone : Alone held account locked rows) (numbered : Numbered rows) :
    Kept (fun _ pending holds later => ∃ departure ids shares codes moment,
        departure.user = account ∧ pending = deletes departure locked ids shares codes moment ∧
        held ⊆ holds ∧ (later.liveUser? account).isSome = true ∧
        Doomed held account locked departure.dashboardsRead ids later ∧
        Shed account departure.sharesDeleted shares ids later)
      (deleteAccount account locked) [] held rows := by
  apply Ensures.query
  intro read toRead settled
  have doomed := (alone.later numbered toRead lock).doomed settled.numbered
  apply Ensures.bind _ (kept_purgeAll account locked _ [] held read)
  rintro _ _ holds purged ⟨rfl, more, toPurged⟩
  apply Ensures.query
  intro listed toListed _
  have shed := Shed.of_purged account locked ((read.ownedBy account).map (·.id)) listed
  apply Ensures.bind _ (kept_acquireAll _ _ holds listed)
  rintro _ _ final waited ⟨rfl, further, -, toWaited⟩
  apply Ensures.update
  intro first toFirst _
  apply Ensures.update
  intro second toSecond _ third toThird _
  have reaches : Relies holds listed third := by
    have sinceWaited := (Relies.trans toFirst toSecond).trans toThird
    exact toWaited.trans (sinceWaited.fewer further)
  have sinceRead : Relies held read third :=
    toPurged.trans ((Relies.trans toListed reaches).fewer more)
  refine ⟨⟨account, _, _⟩, _, _, _, _, rfl, rfl, more.trans further, ?_, ?_, ?_⟩
  · exact sinceRead.live account lock (toRead.live account lock live)
  · exact doomed.later sinceRead lock
  · have kept := shed.later reaches
    rwa [← (purges_kept account locked ((read.ownedBy account).map (·.id)) listed).2] at kept

/-- A deletion that is served keeps what is settled. -/
theorem kept_deleteOwnAccount (caller : UserId) (password : String) (rows : Rows) :
    Kept (fun _ _ _ _ => True) (deleteOwnAccount caller password) [] ∅ rows := by
  apply Ensures.bind _ (kept_getCurrentUser caller rows)
  rintro user _ _ asked rfl
  split
  · trivial
  apply Ensures.bind _ (kept_lockLiveUser caller asked)
  rintro found _ held waited ⟨rfl, lock, -, live⟩
  split
  next => trivial
  next =>
    apply Ensures.query
    intro began toBegan settled
    apply Ensures.bind _ (kept_acquireAll _ [] held began)
    rintro _ _ holds ready ⟨rfl, more, locks, toReady⟩
    apply Ensures.query
    intro looked toLooked settledThen
    split
    · trivial
    next unshared =>
      have sinceBegan : Relies held began looked := toReady.trans (Relies.fewer more toLooked)
      have alone : Alone holds caller began.nextDashboardId looked := by
        apply Alone.of_locked (sinceBegan.fewer (Set.singleton_subset_iff.mpr lock)) _
          (not_not.mp unshared)
        intro dashboard present own
        apply locks
        apply List.mem_map_of_mem
        rw [List.mem_insertionSort]
        exact List.mem_map_of_mem (List.mem_filter.mpr ⟨present, decide_eq_true own⟩)
      have lives := sinceBegan.live caller lock (toBegan.live caller lock (live rfl))
      apply Ensures.bind _ (kept_deleteAccount caller _ (more lock) lives alone
        settledThen.numbered)
      rintro _ _ final written ⟨departure, ids, shares, codes, moment, rfl, rfl, kept, alive,
        doomed, shed⟩
      apply Ensures.commitTransaction
      intro later toLater settledLater _
      have doomedLater := doomed.later (Relies.fewer kept toLater) (more lock)
      have aliveLater := toLater.live departure.user (kept (more lock)) alive
      refine ⟨settled_deletes settledLater doomedLater (shed.later toLater) aliveLater, ?_, trivial⟩
      intro others apart
      exact relies_performAll
        (deletes_free (Set.disjoint_left.mp apart (kept (more lock)))) later

end FrontDashboard.Deletion
