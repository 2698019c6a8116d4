import FrontDashboard.Access.Paths
import FrontDashboard.Membership.Routes
import FrontDashboard.Preferences.Document

/-! # The requests that move dashboards and people

Signing up, the life of a dashboard, invites and memberships, deleting an account, and
`update_preferences`, each as what it makes of the rows; a request that fails changes
nothing. An address that already has an account signs up in vain and is left out, as are
the frames, the notifications and the rows that no access depends on.
-/

namespace FrontDashboard.Preferences

/-! ## Users and what they can reach

The users with their preferences, beside the dashboards, the share rows and the invites
that decide what they can see, and the row changes that the routes make.
-/

open Access (Dashboard ShareRow Store UserId)
open FrontDashboard.Membership (ShareRole)

/-- A row of `users`. -/
structure UserRow where
  id : UserId
  deletedAt : Option Int
  preferences : Document

/-- A value as an entry of favorites. -/
def Json.asText : Json → Option String
  | .text value => some value
  | _ => none

/-- The user as the queries of access see them. -/
def UserRow.view (user : UserRow) : Access.User :=
  ⟨user.id, (Json.items (user.preferences.get favoritesKey)).map Json.asText⟩

structure DashboardInvite extends Membership.DashboardInvite where
  dashboardId : Uuid

structure Rows where
  now : Int
  store : Store
  nextShareId : Nat
  users : List UserRow
  invites : List DashboardInvite

/-! ## Changes of dashboards -/

/-- Some dashboards change, and none its id. -/
def changeDashboards (store : Store) (change : Dashboard → Dashboard)
    (keeps : ∀ dashboard, (change dashboard).id = dashboard.id) : Store where
  dashboards := store.dashboards.map change
  shares := store.shares
  unique := by
    have same : (store.dashboards.map change).map Dashboard.id = store.dashboards.map
      Dashboard.id := by
      rw [List.map_map]
      exact List.map_congr_left fun dashboard _ => keeps dashboard
    rw [same]
    exact store.unique

/-- Set `deleted_at` of a dashboard. -/
def stamp (store : Store) (id : Uuid) (deletedAt : Option Int) (now : Int) : Store :=
  changeDashboards store
    (fun dashboard =>
      if dashboard.id = id then { dashboard with deletedAt, updatedAt := now } else dashboard)
    (by intro dashboard; split <;> rfl)

/-- Set the owner of a dashboard. -/
def setOwner (store : Store) (id : Uuid) (userId : UserId) (now : Int) : Store :=
  changeDashboards store
    (fun dashboard =>
      if dashboard.id = id then { dashboard with userId, updatedAt := now } else dashboard)
    (by intro dashboard; split <;> rfl)

/-- A new dashboard, under an id that is not taken. -/
def insertDashboard (store : Store) (dashboard : Dashboard)
    (fresh : dashboard.id ∉ store.dashboards.map Dashboard.id) : Store where
  dashboards := store.dashboards ++ [dashboard]
  shares := store.shares
  unique := by
    rw [List.map_append, List.map_singleton, ← List.concat_eq_append]
    exact store.unique.concat fresh

/-- The doomed dashboards go, and with them their share rows. -/
def removeDashboards (store : Store) (doomed : Dashboard → Bool) : Store where
  dashboards := store.dashboards.filter fun dashboard => !doomed dashboard
  shares := store.shares.filter fun share =>
    !store.dashboards.any fun dashboard => doomed dashboard && dashboard.id == share.resourceId
  unique := store.unique.sublist (List.filter_sublist.map _)

/-- `purge_dashboard` of each doomed one: its invites go too. -/
def Rows.purge (rows : Rows) (doomed : Dashboard → Bool) : Rows :=
  { rows with
    store := removeDashboards rows.store doomed
    invites := rows.invites.filter fun invite =>
      !rows.store.dashboards.any fun dashboard =>
        doomed dashboard && dashboard.id == invite.dashboardId }

/-! ## Share rows -/

def ShareRow.targets (id : Uuid) (principal : UserId) (share : ShareRow) : Bool :=
  share.resourceType = .dashboard && share.resourceId == id && share.principal == principal

/-- `create_share`'s upsert: the role of the row there is, or a new row. -/
def Rows.createShare (rows : Rows) (id : Uuid) (principal : UserId) (role : ShareRole)
    (grantedBy : UserId) : Rows :=
  if rows.store.shares.any (ShareRow.targets id principal) then
    { rows with
      store := { rows.store with
        shares := rows.store.shares.map fun share =>
          if ShareRow.targets id principal share then { share with role } else share } }
  else
    { rows with
      nextShareId := rows.nextShareId + 1
      store := { rows.store with
        shares := rows.store.shares ++
          [{ id := rows.nextShareId, principal, role, grantedBy
             resourceType := .dashboard, resourceId := id }] } }

def Rows.deleteShare (rows : Rows) (id : Nat) : Rows :=
  { rows with
    store := { rows.store with shares := rows.store.shares.filter fun share => share.id ≠ id } }

/-! ## Users -/

/-- One of the users stops naming a dashboard. -/
def UserRow.forget (users : List UserId) (id : Uuid) (user : UserRow) : UserRow :=
  if user.id ∈ users then { user with preferences := removeDashboard user.preferences id } else user

/-- `remove_dashboard_from_preferences` of some users. -/
def Rows.forget (rows : Rows) (users : List UserId) (id : Uuid) : Rows :=
  { rows with users := rows.users.map (.forget users id) }

def DashboardInvite.use (code user : Nat) (moment : Int) (invite : DashboardInvite) :
    DashboardInvite :=
  if invite.code = code then { invite with usedAt := some moment, redeemedBy := some user }
  else invite

/-! ## The statements -/

open Access (Dashboard ShareRow Store UserId dashboardNotFound loadDashboardAccess
  normalizeAccessibleDashboardIds)
open Calendar (HttpError)
open FrontDashboard.Membership (EffectiveRole ShareRole heldRole inviteDetail isAtLeast)

structure Settings where
  quotaDashboardsPerUser : Nat
  dashboardInviteExpire : Int
  trashRetention : Int

variable (settings : Settings)

abbrev Outcome := Except HttpError Rows

/-- `get_current_user`, of a caller who has a session as long as the account is live. -/
def getCurrentUser (caller : UserId) (rows : Rows) : Except HttpError UserRow :=
  match rows.users.find? fun user => user.id = caller ∧ user.deletedAt = none with
  | none => .error ⟨401, "Session is no longer valid"⟩
  | some user => .ok user

def integrityError : HttpError := ⟨500, "Internal Server Error"⟩

/-- `assert_can_delete`. -/
def assertCanDelete (role : EffectiveRole) : Except HttpError Unit :=
  if role = .owner then .ok () else .error ⟨403, "Only the owner can delete"⟩

/-- `assert_can_manage_shares`. -/
def assertCanManageShares (role : EffectiveRole) : Except HttpError Unit :=
  if role = .owner then .ok () else .error ⟨403, "Only the owner can manage sharing"⟩

/-- Insert a row of `dashboards`. -/
def Rows.addDashboard (rows : Rows) (id : Uuid) (userId : UserId) (name : String) : Outcome :=
  if fresh : id ∉ rows.store.dashboards.map Dashboard.id then
    .ok { rows with
      store := insertDashboard rows.store ⟨id, userId, name, none, 0, rows.now, rows.now⟩ fresh }
  else .error integrityError

/-- `register`, with the ids that are drawn. -/
def register (user : UserId) (dashboard : Uuid) (rows : Rows) : Outcome :=
  if user ∈ rows.users.map UserRow.id then .error integrityError
  else do
    let rows ← rows.addDashboard dashboard user "My Dashboard"
    let preferences : Document :=
      [(homeKey, .text dashboard.text), (favoritesKey, .array [])]
    .ok { rows with users := rows.users ++ [⟨user, none, preferences⟩] }

/-! ## Dashboards -/

/-- `create_dashboard`. -/
def createDashboard (caller : UserId) (id : Uuid) (name : String) (rows : Rows) : Outcome := do
  let _ ← getCurrentUser caller rows
  if settings.quotaDashboardsPerUser ≤
      (rows.store.dashboards.filter fun dashboard => dashboard.userId = caller).length then
    .error ⟨422, "You have reached the limit of " ++ toString settings.quotaDashboardsPerUser ++
      " dashboards. Delete some to make room — anything already in the trash keeps its space " ++
      "until you delete it permanently."⟩
  else rows.addDashboard id caller name

/-- `delete_dashboard`. -/
def deleteDashboard (caller : UserId) (id : Uuid) (rows : Rows) : Outcome := do
  let user ← getCurrentUser caller rows
  let (dashboard, shares, role) ← loadDashboardAccess rows.store id user.view
  assertCanDelete role
  let rows := { rows with store := stamp rows.store dashboard.id (some rows.now) rows.now }
  .ok (rows.forget (dashboard.userId :: shares.map (·.principal)) dashboard.id)

/-- The caller's own dashboard in the trash. -/
def trashedDashboard (caller : UserId) (id : Uuid) (rows : Rows) : Except HttpError Dashboard :=
  match rows.store.dashboards.find? fun dashboard =>
      dashboard.id = id ∧ dashboard.userId = caller ∧ dashboard.deletedAt ≠ none with
  | none => .error dashboardNotFound
  | some dashboard => .ok dashboard

/-- `restore_dashboard`. -/
def restoreDashboard (caller : UserId) (id : Uuid) (rows : Rows) : Outcome := do
  let _ ← getCurrentUser caller rows
  let dashboard ← trashedDashboard caller id rows
  .ok { rows with store := stamp rows.store dashboard.id none rows.now }

/-- `purge_trashed_dashboard`. -/
def purgeTrashedDashboard (caller : UserId) (id : Uuid) (rows : Rows) : Outcome := do
  let _ ← getCurrentUser caller rows
  let dashboard ← trashedDashboard caller id rows
  .ok (rows.purge fun row => row.id == dashboard.id)

/-- `reap_expired_trash`. -/
def reapExpiredTrash (rows : Rows) : Outcome :=
  .ok (rows.purge fun dashboard =>
    dashboard.deletedAt.any fun moment => moment < rows.now - settings.trashRetention)

/-! ## Invites and memberships -/

/-- `create_invite`, with the code that is drawn. -/
def createInvite (caller : UserId) (id : Uuid) (role : ShareRole) (code : Nat) (rows : Rows) :
    Outcome := do
  let user ← getCurrentUser caller rows
  let (dashboard, _, access) ← loadDashboardAccess rows.store id user.view
  assertCanManageShares access
  if code ∈ rows.invites.map (·.code) then .error integrityError
  else
    .ok { rows with
      invites := rows.invites ++
        [{ code, role, createdBy := caller, expiresAt := rows.now + settings.dashboardInviteExpire
           usedAt := none, redeemedBy := none, revokedAt := none, dashboardId := dashboard.id }] }

def inviteGone : HttpError := ⟨404, inviteDetail⟩

/-- `load_live_invite`. -/
def loadLiveInvite (code : Nat) (rows : Rows) : Except HttpError DashboardInvite :=
  match rows.invites.find? fun invite => invite.code == code && invite.live rows.now with
  | none => .error inviteGone
  | some invite => .ok invite

/-- `accept_invite`. -/
def acceptInvite (caller : UserId) (code : Nat) (rows : Rows) : Outcome := do
  let _ ← getCurrentUser caller rows
  let invite ← loadLiveInvite code rows
  match rows.store.dashboards.find? fun dashboard => dashboard.id = invite.dashboardId with
  | none => .error inviteGone
  | some dashboard =>
      if dashboard.deletedAt ≠ none then .error inviteGone
      else if dashboard.userId = caller then .ok rows
      else
        let held :=
          heldRole caller ((rows.store.sharesOf dashboard.id).map ShareRow.toResourceShare)
        if held.any fun role => isAtLeast role.effective invite.role.effective then .ok rows
        else
          let rows := { rows with invites := rows.invites.map (.use code caller rows.now) }
          .ok (rows.createShare dashboard.id caller invite.role invite.createdBy)

/-- `delete_dashboard_share`. -/
def deleteDashboardShare (caller : UserId) (id : Uuid) (shareId : Nat) (rows : Rows) :
    Outcome := do
  let user ← getCurrentUser caller rows
  let (dashboard, _, role) ← loadDashboardAccess rows.store id user.view
  assertCanManageShares role
  match (rows.store.sharesOf id).find? fun share => share.id = shareId with
  | none => .error ⟨404, "Share not found"⟩
  | some share => .ok ((rows.forget [share.principal] dashboard.id).deleteShare share.id)

/-- The share row of a user among those of a dashboard. -/
def shareOf (shares : List ShareRow) (user : UserId) : Option ShareRow :=
  shares.find? fun share => share.principal = user

/-- `transfer_dashboard_ownership`. -/
def transferDashboardOwnership (caller : UserId) (id : Uuid) (user : UserId) (rows : Rows) :
    Outcome := do
  let current ← getCurrentUser caller rows
  let (dashboard, shares, role) ← loadDashboardAccess rows.store id current.view
  assertCanManageShares role
  if user = caller then .error ⟨409, "You already own this dashboard"⟩
  else
    match shareOf shares user with
    | none => .error ⟨409, "The new owner must already be a member of this dashboard"⟩
    | some share =>
        if rows.users.any fun row => row.id = user && row.deletedAt.isNone then
          let rows := { rows with store := setOwner rows.store dashboard.id user rows.now }
          .ok ((rows.deleteShare share.id).createShare dashboard.id caller .editor user)
        else .error ⟨409, "The new owner must already be a member of this dashboard"⟩

/-- `leave_dashboard`. -/
def leaveDashboard (caller : UserId) (id : Uuid) (rows : Rows) : Outcome := do
  let user ← getCurrentUser caller rows
  let (dashboard, shares, role) ← loadDashboardAccess rows.store id user.view
  if role = .owner then
    .error ⟨409, "The owner cannot leave their own dashboard — delete it instead"⟩
  else
    match shareOf shares caller with
    | none => .error ⟨404, "Share not found"⟩
    | some share => .ok ((rows.forget [caller] dashboard.id).deleteShare share.id)

/-! ## Accounts -/

/-- `shared_dashboards_owned_by`. -/
def sharedDashboardsOwnedBy (user : UserId) (rows : Rows) : List String :=
  ((rows.store.dashboards.filter fun dashboard =>
    dashboard.userId = user ∧ dashboard.deletedAt = none ∧
      ∃ share ∈ rows.store.shares, share.resourceId = dashboard.id).map
        Dashboard.name).insertionSort
    (· ≤ ·)

/-- `delete_account`. -/
def deleteAccount (user : UserId) (rows : Rows) : Rows :=
  let purged := rows.purge fun dashboard => dashboard.userId == user
  { purged with
    store := { purged.store with
      shares := purged.store.shares.filter fun share => share.principal ≠ user }
    invites := purged.invites.filter fun invite => invite.createdBy ≠ user
    users := purged.users.map fun row =>
      if row.id = user then { row with deletedAt := some rows.now, preferences := [] } else row }

/-- `delete_own_account`, with whether the password is the account's. -/
def deleteOwnAccount (caller : UserId) (password : Bool) (rows : Rows) : Outcome := do
  let _ ← getCurrentUser caller rows
  if !password then .error ⟨403, "Password is incorrect"⟩
  else if sharedDashboardsOwnedBy caller rows ≠ [] then
    .error ⟨409, "Hand over or delete the dashboards you share first: " ++
      ", ".intercalate (sharedDashboardsOwnedBy caller rows)⟩
  else .ok (deleteAccount caller rows)

/-! ## Preferences -/

/-- `PreferencesUpdate`: a key that is not sent, sent as null, or sent with a value. -/
structure PreferencesUpdate where
  homeDashboardId : Option (Option String)
  favoriteDashboardIds : Option (Option (List String))

/-- The value that is stored for the home dashboard. -/
def validatedHome (store : Store) (user : Access.User) : Option String → Except HttpError Json
  | none => .ok .null
  | some id => do
      let normalized ← normalizeAccessibleDashboardIds store [id] user
      .ok (normalized.head?.elim .null .text)

/-- The value that is stored for the favorites. -/
def validatedFavorites (store : Store) (user : Access.User) :
    Option (List String) → Except HttpError Json
  | none => .ok (.array [])
  | some ids => do
      let normalized ← normalizeAccessibleDashboardIds store ids user
      .ok (.array (normalized.map .text))

/-- The document with a value, where there is one. -/
def merged (key : String) (value : Option Json) (document : Document) : Document :=
  value.elim document fun value => document.set key value

/-- `update_preferences`. -/
def updatePreferences (caller : UserId) (body : PreferencesUpdate) (rows : Rows) : Outcome := do
  let user ← getCurrentUser caller rows
  if body.homeDashboardId = none ∧ body.favoriteDashboardIds = none then
    .error ⟨422, "Value error, At least one field must be provided"⟩
  else do
    let home ← body.homeDashboardId.mapM (validatedHome rows.store user.view)
    let favorites ← body.favoriteDashboardIds.mapM (validatedFavorites rows.store user.view)
    let preferences := merged favoritesKey favorites (merged homeKey home user.preferences)
    .ok { rows with
      users := rows.users.map fun row => if row.id = caller then { row with preferences } else row }

/-! ## The system -/

inductive Request
  | register (user : UserId) (dashboard : Uuid)
  | createDashboard (caller : UserId) (id : Uuid) (name : String)
  | deleteDashboard (caller : UserId) (id : Uuid)
  | restoreDashboard (caller : UserId) (id : Uuid)
  | purgeTrashedDashboard (caller : UserId) (id : Uuid)
  | reapExpiredTrash
  | createInvite (caller : UserId) (id : Uuid) (role : ShareRole) (code : Nat)
  | acceptInvite (caller : UserId) (code : Nat)
  | deleteDashboardShare (caller : UserId) (id : Uuid) (share : Nat)
  | transferDashboardOwnership (caller : UserId) (id : Uuid) (user : UserId)
  | leaveDashboard (caller : UserId) (id : Uuid)
  | deleteOwnAccount (caller : UserId) (password : Bool)
  | updatePreferences (caller : UserId) (body : PreferencesUpdate)

def handle (request : Request) (rows : Rows) : Outcome :=
  match request with
  | .register user dashboard => register user dashboard rows
  | .createDashboard caller id name => createDashboard settings caller id name rows
  | .deleteDashboard caller id => deleteDashboard caller id rows
  | .restoreDashboard caller id => restoreDashboard caller id rows
  | .purgeTrashedDashboard caller id => purgeTrashedDashboard caller id rows
  | .reapExpiredTrash => reapExpiredTrash settings rows
  | .createInvite caller id role code => createInvite settings caller id role code rows
  | .acceptInvite caller code => acceptInvite caller code rows
  | .deleteDashboardShare caller id share => deleteDashboardShare caller id share rows
  | .transferDashboardOwnership caller id user => transferDashboardOwnership caller id user rows
  | .leaveDashboard caller id => leaveDashboard caller id rows
  | .deleteOwnAccount caller password => deleteOwnAccount caller password rows
  | .updatePreferences caller body => updatePreferences caller body rows

inductive Action
  | request (request : Request)
  | elapse (span : Nat)

/-- A database without rows. -/
structure Rows.Initial (rows : Rows) : Prop where
  dashboards : rows.store.dashboards = []
  shares : rows.store.shares = []
  users : rows.users = []
  invites : rows.invites = []

/-- One request after the other, and time between them. -/
def system : TransitionSystem Rows Action where
  Initial := Rows.Initial
  step rows action :=
    match action with
    | .request request =>
        match handle settings request rows with
        | .ok next => some next
        | .error _ => some rows
    | .elapse span => some { rows with now := rows.now + span }

end FrontDashboard.Preferences
