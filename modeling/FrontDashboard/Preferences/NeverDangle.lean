import FrontDashboard.Preferences.Reach
import FrontDashboard.Preferences.Routes

/-! # Preferences never dangle

Every request leaves the preferences of every user naming only dashboards that are live
and that the user owns or shares: what a request makes unreachable for a user it takes
out of that user's document.
-/

namespace FrontDashboard.Preferences

open Outcomes
open Access (Accessible Dashboard ShareRow Store UserId eq_of_id loadDashboardAccess_eq_ok
  normalizeAccessibleDashboardIds normalize_eq_ok normalize_iff readIds_eq_ok)
open FrontDashboard.Membership (ShareRole effectiveRole_eq_owner)

/-! ## The invariant -/

/-- **Preferences name what their user reaches.** -/
def NeverDangle (rows : Rows) : Prop :=
  ∀ user ∈ rows.users, Tidy (Accessible rows.store user.view) user.preferences

structure Sound (rows : Rows) : Prop extends Numbered rows where
  tidy : ∀ user ∈ rows.users, Tidy (Reaches rows.store user.id) user.preferences

variable {rows : Rows}

/-- Access that only grows keeps every document tidy. -/
theorem Sound.of_reaches {after : Rows} (sound : Sound rows) (numbered : Numbered after)
    (users : after.users = rows.users)
    (keeps : ∀ user id, Reaches rows.store user id → Reaches after.store user id) :
    Sound after where
  toNumbered := numbered
  tidy := by
    rw [users]
    intro user present
    exact (sound.tidy user present).mono fun id => keeps user.id id

/-- Access that ends for the users who forget the dashboard, and for nobody else. -/
theorem Sound.forget {after : Rows} (sound : Sound rows) (numbered : Numbered after)
    {names : List UserId} {gone : Uuid} (users : after.users = (rows.forget names gone).users)
    (keeps : ∀ user id, Reaches rows.store user id → ¬ (user ∈ names ∧ id = gone) →
      Reaches after.store user id) : Sound after where
  toNumbered := numbered
  tidy := by
    rw [users]
    intro user present
    obtain ⟨before, earlier, rfl⟩ := List.mem_map.mp present
    have tidy := sound.tidy before earlier
    unfold UserRow.forget
    split
    next listed =>
      apply (tidy.removeDashboard gone).mono
      intro id ⟨reached, different⟩
      exact keeps before.id id reached fun ended => different ended.2
    next unlisted =>
      apply tidy.mono
      intro id reached
      exact keeps before.id id reached fun ended => unlisted ended.1

/-! ## Dashboards -/

/-- The user that is found is there. -/
theorem getCurrentUser_eq_ok {caller : UserId} {user : UserRow}
    (found : getCurrentUser caller rows = .ok user) : user ∈ rows.users ∧ user.id = caller := by
  unfold getCurrentUser at found
  split at found
  · cases found
  next row located =>
    cases found
    have fits : user.id = caller ∧ user.deletedAt = none := by
      simpa using List.find?_some located
    exact ⟨List.mem_of_find?_eq_some located, fits.1⟩

/-- A dashboard that is added takes access from nobody. -/
theorem sound_addDashboard {after : Rows} {id : Uuid} {userId : UserId} {name : String}
    (sound : Sound rows) (ran : rows.addDashboard id userId name = .ok after) :
    Sound after ∧ after.users = rows.users ∧ Reaches after.store userId id := by
  unfold Rows.addDashboard at ran
  split at ran
  next fresh =>
    cases ran
    refine ⟨sound.of_reaches ⟨sound.ids, sound.fresh⟩ rfl ?_, rfl, ?_⟩
    · exact fun user named reached => @Reaches.insert _ _ _ _ fresh reached
    · exact ⟨_, List.mem_append_right _ (List.mem_singleton.mpr rfl), rfl, rfl, .inl rfl⟩
  next => cases ran

theorem sound_register {after : Rows} {user : UserId} {dashboard : Uuid} (sound : Sound rows)
    (ran : register user dashboard rows = .ok after) : Sound after := by
  unfold register at ran
  split at ran
  · cases ran
  obtain ⟨added, inserted, done⟩ := bind_eq_ok.mp ran
  cases done
  obtain ⟨kept, -, reached⟩ := sound_addDashboard sound inserted
  refine ⟨⟨kept.ids, kept.fresh⟩, ?_⟩
  intro row present
  rcases List.mem_append.mp present with earlier | new
  · exact kept.tidy row earlier
  · rw [List.mem_singleton.mp new]
    constructor
    · intro value stored
      exact .inr ⟨dashboard, (Option.some.inj stored).symm, reached⟩
    · intro value stored
      exact ⟨[], (Option.some.inj stored).symm, List.nodup_nil, List.forall_mem_nil _⟩

theorem sound_createDashboard {after : Rows} {settings : Settings} {caller : UserId} {id : Uuid}
    {name : String} (sound : Sound rows)
    (ran : createDashboard settings caller id name rows = .ok after) : Sound after := by
  obtain ⟨_, _, ran⟩ := bind_eq_ok.mp ran
  split at ran
  · cases ran
  · exact (sound_addDashboard sound ran).1

/-- Whoever reaches a dashboard is its owner or one of the principals that were read. -/
theorem mem_members {store : Store} {user : UserId} {dashboard : Dashboard}
    (present : dashboard ∈ store.dashboards) (reached : Reaches store user dashboard.id) :
    user ∈ dashboard.userId :: (store.sharesOf dashboard.id).map (·.principal) := by
  obtain ⟨other, among, named, -, entitled⟩ := reached
  obtain rfl := eq_of_id among present named
  rcases entitled with owns | ⟨share, held, type, resource, mine⟩
  · exact List.mem_cons.mpr (.inl owns.symm)
  · exact List.mem_cons_of_mem _
      (List.mem_map.mpr ⟨share, mem_sharesOf.mpr ⟨held, type, resource⟩, mine⟩)

/-- **A deleted dashboard** is forgotten by everyone who could reach it. -/
theorem sound_deleteDashboard {after : Rows} {caller : UserId} {id : Uuid} (sound : Sound rows)
    (ran : deleteDashboard caller id rows = .ok after) : Sound after := by
  obtain ⟨user, _, ran⟩ := bind_eq_ok.mp ran
  obtain ⟨⟨dashboard, shares, role⟩, loaded, ran⟩ := bind_eq_ok.mp ran
  obtain ⟨_, _, done⟩ := bind_eq_ok.mp ran
  cases done
  obtain ⟨⟨present, -, -⟩, rfl, -⟩ := loadDashboardAccess_eq_ok.mp loaded
  refine sound.forget ?_ rfl ?_
  · exact ⟨sound.ids, sound.fresh⟩
  intro other named reached spared
  apply reached.stamp
  left
  intro same
  subst same
  exact spared ⟨mem_members present reached, rfl⟩

/-- The dashboard that is found is in the trash. -/
theorem trashedDashboard_eq_ok {caller : UserId} {id : Uuid} {dashboard : Dashboard}
    (found : trashedDashboard caller id rows = .ok dashboard) :
    dashboard ∈ rows.store.dashboards ∧ dashboard.deletedAt ≠ none := by
  unfold trashedDashboard at found
  split at found
  · cases found
  next row located =>
    cases found
    have fits : dashboard.id = id ∧ dashboard.userId = caller ∧ dashboard.deletedAt ≠ none := by
      simpa using List.find?_some located
    exact ⟨List.mem_of_find?_eq_some located, fits.2.2⟩

/-- Restoring keeps the rows sound. -/
theorem sound_restoreDashboard {after : Rows} {caller : UserId} {id : Uuid} (sound : Sound rows)
    (ran : restoreDashboard caller id rows = .ok after) : Sound after := by
  obtain ⟨_, _, ran⟩ := bind_eq_ok.mp ran
  obtain ⟨dashboard, _, done⟩ := bind_eq_ok.mp ran
  cases done
  refine sound.of_reaches ?_ rfl ?_
  · exact ⟨sound.ids, sound.fresh⟩
  exact fun user named reached => reached.stamp _ (.inr rfl)

/-- **Purging** what is in the trash takes nothing that anyone reaches. -/
theorem Sound.purge (sound : Sound rows) {doomed : Dashboard → Bool}
    (trashed : ∀ dashboard ∈ rows.store.dashboards, doomed dashboard = true →
      dashboard.deletedAt ≠ none) : Sound (rows.purge doomed) := by
  refine sound.of_reaches ?_ rfl ?_
  · exact sound.toNumbered.of_sublist List.filter_sublist rfl
  intro user id reached
  apply reached.remove
  intro dashboard present _ alive
  rw [Bool.eq_false_iff]
  exact fun goes => trashed dashboard present goes alive

theorem sound_purgeTrashedDashboard {after : Rows} {caller : UserId} {id : Uuid}
    (sound : Sound rows) (ran : purgeTrashedDashboard caller id rows = .ok after) :
    Sound after := by
  obtain ⟨_, _, ran⟩ := bind_eq_ok.mp ran
  obtain ⟨dashboard, found, done⟩ := bind_eq_ok.mp ran
  cases done
  obtain ⟨present, trashed⟩ := trashedDashboard_eq_ok found
  apply sound.purge
  intro other among same
  rw [eq_of_id among present (beq_iff_eq.mp same)]
  exact trashed

/-- The reaper purges what is in the trash. -/
theorem sound_reapExpiredTrash {after : Rows} {settings : Settings} (sound : Sound rows)
    (ran : reapExpiredTrash settings rows = .ok after) : Sound after := by
  cases ran
  apply sound.purge
  intro dashboard _ expired alive
  rw [alive] at expired
  cases expired

/-! ## Invites and memberships -/

theorem sound_createInvite {after : Rows} {settings : Settings} {caller : UserId} {id : Uuid}
    {role : ShareRole} {code : Nat} (sound : Sound rows)
    (ran : createInvite settings caller id role code rows = .ok after) : Sound after := by
  obtain ⟨_, _, ran⟩ := bind_eq_ok.mp ran
  obtain ⟨_, _, ran⟩ := bind_eq_ok.mp ran
  obtain ⟨_, _, ran⟩ := bind_eq_ok.mp ran
  split at ran
  · cases ran
  · cases ran
    exact sound.of_reaches ⟨sound.ids, sound.fresh⟩ rfl fun _ _ reached => reached

/-- A share row that is added keeps the rows sound. -/
theorem Sound.createShare (sound : Sound rows) (id : Uuid) (principal : UserId)
    (role : ShareRole) (grantedBy : UserId) :
    Sound (rows.createShare id principal role grantedBy) := by
  apply sound.of_reaches (sound.toNumbered.createShare id principal role grantedBy)
  · exact createShare_users rows id principal role grantedBy
  · exact fun user named reached => reached.createShare id principal role grantedBy

theorem sound_acceptInvite {after : Rows} {caller : UserId} {code : Nat} (sound : Sound rows)
    (ran : acceptInvite caller code rows = .ok after) : Sound after := by
  obtain ⟨_, _, ran⟩ := bind_eq_ok.mp ran
  obtain ⟨invite, _, ran⟩ := bind_eq_ok.mp ran
  split at ran
  · cases ran
  next dashboard _ =>
    split at ran
    · cases ran
    split at ran
    · cases ran
      exact sound
    dsimp only at ran
    split at ran
    · cases ran
      exact sound
    · cases ran
      have used : Sound { rows with invites := rows.invites.map (.use code caller rows.now) } :=
        sound.of_reaches ⟨sound.ids, sound.fresh⟩ rfl fun _ _ reached => reached
      exact used.createShare _ _ _ _

/-- **A removed member** forgets the dashboard. -/
theorem Sound.removeMember (sound : Sound rows) {share : ShareRow}
    (present : share ∈ rows.store.shares) :
    Sound ((rows.forget [share.principal] share.resourceId).deleteShare share.id) := by
  refine sound.forget ?_ rfl ?_
  · have numbered := sound.toNumbered.deleteShare share.id
    exact ⟨numbered.ids, numbered.fresh⟩
  intro user id reached spared
  apply reached.deleteShare sound.toNumbered present
  rw [List.mem_singleton] at spared
  exact spared

theorem sound_deleteDashboardShare {after : Rows} {caller : UserId} {id : Uuid} {shareId : Nat}
    (sound : Sound rows) (ran : deleteDashboardShare caller id shareId rows = .ok after) :
    Sound after := by
  obtain ⟨user, _, ran⟩ := bind_eq_ok.mp ran
  obtain ⟨⟨dashboard, shares, role⟩, loaded, ran⟩ := bind_eq_ok.mp ran
  obtain ⟨_, _, ran⟩ := bind_eq_ok.mp ran
  obtain ⟨⟨-, rfl, -⟩, -, -⟩ := loadDashboardAccess_eq_ok.mp loaded
  split at ran
  · cases ran
  next share found =>
    cases ran
    obtain ⟨held, -, resource⟩ := mem_sharesOf.mp (List.mem_of_find?_eq_some found)
    rw [← resource]
    exact sound.removeMember held

/-- The share that is found is the one of the user. -/
theorem shareOf_eq_some {store : Store} {id : Uuid} {user : UserId} {share : ShareRow}
    (found : shareOf (store.sharesOf id) user = some share) :
    share ∈ store.shares ∧ share.resourceId = id ∧ share.principal = user := by
  obtain ⟨held, -, resource⟩ := mem_sharesOf.mp (List.mem_of_find?_eq_some found)
  exact ⟨held, resource, by simpa using List.find?_some found⟩

/-- A member who leaves is removed. -/
theorem sound_leaveDashboard {after : Rows} {caller : UserId} {id : Uuid} (sound : Sound rows)
    (ran : leaveDashboard caller id rows = .ok after) : Sound after := by
  obtain ⟨user, _, ran⟩ := bind_eq_ok.mp ran
  obtain ⟨⟨dashboard, shares, role⟩, loaded, ran⟩ := bind_eq_ok.mp ran
  obtain ⟨-, rfl, -⟩ := loadDashboardAccess_eq_ok.mp loaded
  dsimp only at ran
  split at ran
  · cases ran
  split at ran
  · cases ran
  next share found =>
    cases ran
    obtain ⟨held, resource, rfl⟩ := shareOf_eq_some found
    rw [← resource]
    exact sound.removeMember held

/-- Who reaches a dashboard without owning it holds a share row of it. -/
theorem exists_share {store : Store} {user : UserId} {dashboard : Dashboard}
    (present : dashboard ∈ store.dashboards) (reached : Reaches store user dashboard.id)
    (other : dashboard.userId ≠ user) : ∃ share ∈ store.shares,
      share.resourceType = .dashboard ∧ share.resourceId = dashboard.id ∧
        share.principal = user := by
  obtain ⟨row, among, named, -, entitled⟩ := reached
  obtain rfl := eq_of_id among present named
  exact entitled.resolve_left other

/-- **A transfer** takes access from nobody: the new owner owns, the old one is granted a
share, and the share row that goes was the new owner's. -/
theorem Sound.transfer (sound : Sound rows) {dashboard : Dashboard} {share : ShareRow}
    (present : dashboard ∈ rows.store.dashboards) (alive : dashboard.deletedAt = none)
    (held : share ∈ rows.store.shares) (resource : share.resourceId = dashboard.id) :
    Sound (({ rows with
        store := setOwner rows.store dashboard.id share.principal rows.now }.deleteShare
          share.id).createShare dashboard.id dashboard.userId .editor share.principal) := by
  have numbered : Numbered
      { rows with store := setOwner rows.store dashboard.id share.principal rows.now } :=
    ⟨sound.ids, sound.fresh⟩
  have handed : { dashboard with userId := share.principal, updatedAt := rows.now } ∈
      (setOwner rows.store dashboard.id share.principal rows.now).dashboards :=
    List.mem_map.mpr ⟨dashboard, present, if_pos rfl⟩
  refine sound.of_reaches ?_ (createShare_users _ _ _ _ _) ?_
  · exact (numbered.deleteShare share.id).createShare _ _ _ _
  intro user named reached
  by_cases isNew : user = share.principal ∧ named = dashboard.id
  · obtain ⟨rfl, rfl⟩ := isNew
    refine ⟨{ dashboard with userId := share.principal, updatedAt := rows.now }, ?_, rfl, alive,
      .inl rfl⟩
    rw [createShare_dashboards]
    exact handed
  by_cases isOld : user = dashboard.userId ∧ named = dashboard.id
  · obtain ⟨rfl, rfl⟩ := isOld
    exact @reaches_createShare _
      { dashboard with userId := share.principal, updatedAt := rows.now } handed alive _ _ _
  · apply Reaches.createShare
    apply Reaches.deleteShare _ numbered held
    · rw [resource]
      exact isNew
    apply reached.setOwner
    by_cases here : named = dashboard.id
    · subst here
      exact .inr (exists_share present reached fun same => isOld ⟨same.symm, rfl⟩)
    · exact .inl here

theorem sound_transferDashboardOwnership {after : Rows} {caller : UserId} {id : Uuid}
    {user : UserId} (sound : Sound rows)
    (ran : transferDashboardOwnership caller id user rows = .ok after) : Sound after := by
  obtain ⟨current, resolved, ran⟩ := bind_eq_ok.mp ran
  obtain ⟨⟨dashboard, shares, role⟩, loaded, ran⟩ := bind_eq_ok.mp ran
  obtain ⟨_, manages, ran⟩ := bind_eq_ok.mp ran
  obtain ⟨⟨present, -, alive⟩, rfl, given⟩ := loadDashboardAccess_eq_ok.mp loaded
  obtain ⟨-, rfl⟩ := getCurrentUser_eq_ok resolved
  have owns : dashboard.userId = current.id := by
    unfold assertCanManageShares at manages
    split at manages
    next isOwner =>
      rw [isOwner] at given
      exact effectiveRole_eq_owner.mp given
    next => cases manages
  split at ran
  · cases ran
  split at ran
  · cases ran
  next share found =>
    obtain ⟨held, resource, rfl⟩ := shareOf_eq_some found
    split at ran
    next =>
      cases ran
      rw [← owns]
      exact sound.transfer present alive held resource
    next => cases ran

/-! ## Accounts -/

/-- Nobody shares a live dashboard of the user. -/
theorem sharedDashboardsOwnedBy_eq_nil {user : UserId}
    (alone : sharedDashboardsOwnedBy user rows = []) :
    ∀ dashboard ∈ rows.store.dashboards, dashboard.userId = user → dashboard.deletedAt = none →
      ∀ share ∈ rows.store.shares, share.resourceId ≠ dashboard.id := by
  intro dashboard present owns alive share held same
  have unsorted := (List.perm_insertionSort (· ≤ ·) _).symm.trans (List.Perm.of_eq alone)
  have none_ := List.map_eq_nil_iff.mp (List.perm_nil.mp unsorted)
  apply List.filter_eq_nil_iff.mp none_ dashboard present
  exact decide_eq_true ⟨owns, alive, share, held, same⟩

/-- **A deleted account** takes with it only dashboards that nobody else reaches. -/
theorem sound_deleteAccount {user : UserId} (sound : Sound rows)
    (alone : ∀ dashboard ∈ rows.store.dashboards, dashboard.userId = user →
      dashboard.deletedAt = none → ∀ share ∈ rows.store.shares, share.resourceId ≠ dashboard.id) :
    Sound (deleteAccount user rows) := by
  have numbered : Numbered (deleteAccount user rows) :=
    sound.toNumbered.of_sublist (List.filter_sublist.trans List.filter_sublist) rfl
  refine ⟨numbered, ?_⟩
  intro row member
  obtain ⟨before, earlier, rfl⟩ := List.mem_map.mp member
  split
  · exact tidy_nil
  next other =>
    apply (sound.tidy before earlier).mono
    intro id reached
    apply Reaches.dropPrincipal _ other
    apply reached.remove
    intro dashboard present named alive
    subst named
    rw [beq_eq_false_iff_ne]
    intro owned
    have different : dashboard.userId ≠ before.id := fun same => other (same.symm.trans owned)
    obtain ⟨share, held, -, resource, -⟩ := exists_share present reached different
    exact alone dashboard present owned alive share held resource

theorem sound_deleteOwnAccount {after : Rows} {caller : UserId} {password : Bool}
    (sound : Sound rows) (ran : deleteOwnAccount caller password rows = .ok after) :
    Sound after := by
  obtain ⟨_, _, ran⟩ := bind_eq_ok.mp ran
  split at ran
  · cases ran
  split at ran
  · cases ran
  next alone =>
    cases ran
    exact sound_deleteAccount sound (sharedDashboardsOwnedBy_eq_nil (not_not.mp alone))

/-! ## Preferences -/

/-- What the check of preferences lets through: ids that the user reaches, each once. -/
theorem normalized_ids {store : Store} {user : Access.User} {texts normalized : List String}
    (ran : normalizeAccessibleDashboardIds store texts user = .ok normalized) :
    ∃ ids : List Uuid, normalized = ids.map Uuid.text ∧ ids.Nodup ∧
      ∀ id ∈ ids, Accessible store user id := by
  obtain ⟨ids, read, rfl⟩ := normalize_eq_ok ran
  have reads := readIds_eq_ok .nil read
  refine ⟨ids, rfl, reads.nodup, ?_⟩
  intro id member
  rcases reads.only id member with seen | ⟨text, among, named⟩
  · cases seen
  · obtain ⟨other, named', accessible⟩ := normalize_iff.mp ⟨_, ran⟩ text among
    cases named.symm.trans named'
    exact accessible

/-- A value that is checked is the one that was sent. -/
theorem mapM_eq_ok {α β ε : Type} {f : α → Except ε β} {given : Option α} {result : Option β}
    (ran : given.mapM f = .ok result) :
    ∀ value ∈ result, ∃ source, given = some source ∧ f source = .ok value := by
  cases given with
  | none =>
      cases ran
      exact nofun
  | some source =>
      obtain ⟨value, ok, done⟩ := bind_eq_ok.mp ran
      cases done
      intro other same
      cases same
      exact ⟨source, rfl, ok⟩

/-- The home that is stored is none, or accessible. -/
theorem validatedHome_eq_ok {store : Store} {user : Access.User} {sent : Option String}
    {value : Json} (ran : validatedHome store user sent = .ok value) :
    value = .null ∨ ∃ id, value = .text id.text ∧ Accessible store user id := by
  cases sent with
  | none =>
      cases ran
      exact .inl rfl
  | some text =>
      obtain ⟨normalized, checked, done⟩ := bind_eq_ok.mp ran
      cases done
      obtain ⟨ids, rfl, -, accessible⟩ := normalized_ids checked
      cases ids with
      | nil => exact .inl rfl
      | cons id rest => exact .inr ⟨id, rfl, accessible id List.mem_cons_self⟩

/-- The favorites that are stored are accessible. -/
theorem validatedFavorites_eq_ok {store : Store} {user : Access.User} {sent : Option (List String)}
    {value : Json} (ran : validatedFavorites store user sent = .ok value) :
    ∃ ids : List Uuid, value = .array (ids.map fun id => .text id.text) ∧ ids.Nodup ∧
      ∀ id ∈ ids, Accessible store user id := by
  cases sent with
  | none =>
      cases ran
      exact ⟨[], rfl, List.nodup_nil, List.forall_mem_nil _⟩
  | some texts =>
      obtain ⟨normalized, checked, done⟩ := bind_eq_ok.mp ran
      cases done
      obtain ⟨ids, rfl, nodup, accessible⟩ := normalized_ids checked
      exact ⟨ids, by rw [List.map_map]; rfl, nodup, accessible⟩

/-- **Updated preferences** are checked against what the user reaches now. -/
theorem sound_updatePreferences {after : Rows} {caller : UserId} {body : PreferencesUpdate}
    (sound : Sound rows) (ran : updatePreferences caller body rows = .ok after) :
    Sound after := by
  obtain ⟨user, resolved, ran⟩ := bind_eq_ok.mp ran
  split at ran
  · cases ran
  obtain ⟨home, homeChecked, ran⟩ := bind_eq_ok.mp ran
  obtain ⟨favorites, favoritesChecked, done⟩ := bind_eq_ok.mp ran
  cases done
  obtain ⟨present, rfl⟩ := getCurrentUser_eq_ok resolved
  have tidy := sound.tidy user present
  have withHome : Tidy (Reaches rows.store user.id) (merged homeKey home user.preferences) := by
    cases home with
    | none => exact tidy
    | some value =>
        obtain ⟨sent, -, ok⟩ := mapM_eq_ok homeChecked value rfl
        exact tidy.setHome (validatedHome_eq_ok ok)
  have withFavorites : Tidy (Reaches rows.store user.id)
      (merged favoritesKey favorites (merged homeKey home user.preferences)) := by
    cases favorites with
    | none => exact withHome
    | some value =>
        obtain ⟨sent, -, ok⟩ := mapM_eq_ok favoritesChecked value rfl
        obtain ⟨ids, rfl, nodup, accessible⟩ := validatedFavorites_eq_ok ok
        exact withHome.setFavorites nodup accessible
  refine ⟨⟨sound.ids, sound.fresh⟩, ?_⟩
  intro row member
  obtain ⟨before, earlier, rfl⟩ := List.mem_map.mp member
  split
  next same =>
    change Tidy (Reaches rows.store before.id) _
    rw [same]
    exact withFavorites
  next => exact sound.tidy before earlier

/-! ## Runs -/

variable {settings : Settings}

/-- Every request that succeeds keeps preferences tidy. -/
theorem sound_handle {request : Request} {after : Rows} (sound : Sound rows)
    (ran : handle settings request rows = .ok after) : Sound after := by
  cases request with
  | register user dashboard => exact sound_register sound ran
  | createDashboard caller id name => exact sound_createDashboard sound ran
  | deleteDashboard caller id => exact sound_deleteDashboard sound ran
  | restoreDashboard caller id => exact sound_restoreDashboard sound ran
  | purgeTrashedDashboard caller id => exact sound_purgeTrashedDashboard sound ran
  | reapExpiredTrash => exact sound_reapExpiredTrash sound ran
  | createInvite caller id role code => exact sound_createInvite sound ran
  | acceptInvite caller code => exact sound_acceptInvite sound ran
  | deleteDashboardShare caller id share => exact sound_deleteDashboardShare sound ran
  | transferDashboardOwnership caller id user => exact sound_transferDashboardOwnership sound ran
  | leaveDashboard caller id => exact sound_leaveDashboard sound ran
  | deleteOwnAccount caller password => exact sound_deleteOwnAccount sound ran
  | updatePreferences caller body => exact sound_updatePreferences sound ran

/-- The rows begin sound. -/
theorem sound_of_initial (begins : rows.Initial) : Sound rows where
  ids := by simp [begins.shares]
  fresh := by simp [begins.shares]
  tidy := by simp [begins.users]

/-- **and in every run** stay so. -/
theorem sound_of_reachable (reached : (system settings).Reachable rows) : Sound rows := by
  apply reached.invariant
  · exact fun _ => sound_of_initial
  intro before action after sound _ moved
  cases action with
  | request request =>
      simp only [system] at moved
      split at moved
      next ran =>
        cases moved
        exact sound_handle sound ran
      next =>
        cases moved
        exact sound
  | elapse span =>
      cases moved
      exact ⟨⟨sound.ids, sound.fresh⟩, sound.tidy⟩

/-- **Preferences never dangle**, after any sequence of requests. -/
theorem never_dangle (reached : (system settings).Reachable rows) : NeverDangle rows := by
  intro user present
  exact (sound_of_reachable reached).tidy user present

def daily : Settings where
  quotaDashboardsPerUser := 100
  dashboardInviteExpire := 1000
  trashRetention := 1000

def firstBoard : Uuid := ⟨List.replicate 32 10, rfl⟩

def secondBoard : Uuid := ⟨List.replicate 32 11, rfl⟩

def empty : Rows := ⟨0, ⟨[], [], List.nodup_nil⟩, 0, [], []⟩

/-- User 2 is let into the dashboard of user 1, makes it home, and is removed. -/
def visit : List Action :=
  [.register 1 firstBoard, .register 2 secondBoard, .createInvite 1 firstBoard .viewer 7,
    .acceptInvite 2 7, .updatePreferences 2 ⟨some (some firstBoard.text), none⟩,
    .deleteDashboardShare 1 firstBoard 0].map .request

theorem empty_initial : (system daily).Initial empty := ⟨rfl, rfl, rfl, rfl⟩

/-- The owner keeps it as home, and user 2 names it no more. -/
theorem never_dangle_after_visit :
    ∃ rows : Rows, rows.users.map (fun user => isHome firstBoard user.preferences) = [true, false] ∧
      NeverDangle rows := by
  obtain ⟨rows, reached, shape⟩ := TransitionSystem.exists_reachable_of_run empty_initial visit
    (fun rows => decide
      (rows.users.map (fun user => isHome firstBoard user.preferences) = [true, false])) (by decide)
  exact ⟨rows, of_decide_eq_true shape, never_dangle reached⟩

end FrontDashboard.Preferences
