import FrontDashboard.Calendar.Routes
import FrontDashboard.Links.Routes
import FrontDashboard.Membership.Routes
import Mathlib.Data.List.Sort

/-! # Deleting an account, and the requests beside it

`delete_own_account` with `delete_account`, `create_dashboard`, `create_invite`,
`accept_invite`, `transfer_dashboard_ownership` and `leave_dashboard`, each as the program
of its database statements. A request is authenticated by its first statement. A statement
that changes a row waits for the row's lock. The frames that the requests send, and the
rows of no dashboard, share or invite that a deletion removes, are left out.
-/

namespace FrontDashboard.Deletion

/-! ## The rows that a deletion meets

The accounts, the dashboards that they own, the share rows and the invites. Dashboards and
share rows get their ids in the order in which they are committed.

Some fields record history and influence no statement: who created a dashboard, which
deletions were committed, with the ids that the next rows were to get when it read what the
account owned and when it deleted the account's share rows, and which dashboards the
deletions removed, with the live accounts that had access to them at that moment.
-/

open Links (User)
open FrontDashboard.Membership (Time DashboardInvite ResourceShare ShareRole members)

abbrev UserId := Nat

abbrev DashboardId := Nat

structure Dashboard where
  id : DashboardId
  userId : UserId
  name : String
  deletedAt : Option Time
  createdBy : UserId
  deriving DecidableEq

/-- A row of `resource_shares`, with the dashboard that it is for. -/
structure Share extends ResourceShare where
  resourceId : DashboardId
  deriving DecidableEq

structure Invite extends DashboardInvite where
  dashboardId : DashboardId
  deriving DecidableEq

/-- A deletion that was committed. -/
structure Departure where
  user : UserId
  dashboardsRead : DashboardId
  sharesDeleted : Nat
  deriving DecidableEq

/-- A dashboard that a deletion removed: of which account, who else had access, and the id
that the next dashboard was to get when the deletion locked those of the account. -/
structure Removal where
  dashboard : Dashboard
  account : UserId
  others : List UserId
  locked : DashboardId
  deriving DecidableEq

structure Rows where
  now : Time
  users : List User
  dashboards : List Dashboard
  shares : List Share
  invites : List Invite
  nextDashboardId : DashboardId
  nextShareId : Nat
  departures : List Departure
  removals : List Removal

/-- One row change. -/
inductive Write
  | insertDashboard (user : UserId) (name : String)
  | setOwner (dashboard : DashboardId) (user : UserId)
  | upsertShare (dashboard : DashboardId) (principal : UserId) (role : ShareRole)
      (grantedBy : UserId)
  | deleteShares (ids : List Nat)
  | insertInvite (invite : Invite)
  | useInvite (code : Nat) (user : UserId) (moment : Time)
  | deleteInvites (codes : List Nat)
  | deleteDashboard (dashboard : DashboardId) (account : UserId) (locked : DashboardId)
  | tombstone (departure : Departure) (moment : Time)

namespace Rows

def user? (rows : Rows) (id : UserId) : Option User := rows.users.find? (·.id = id)

def liveUser? (rows : Rows) (id : UserId) : Option User :=
  (rows.user? id).filter (·.deletedAt.isNone)

def tombstoned (rows : Rows) (id : UserId) : Bool := (rows.user? id).any (·.deletedAt.isSome)

/-- The share rows of a dashboard. -/
def sharesOf (rows : Rows) (id : DashboardId) : List ResourceShare :=
  (rows.shares.filter (·.resourceId = id)).map (·.toResourceShare)

/-- The dashboards of an account, the trashed ones included. -/
def ownedBy (rows : Rows) (user : UserId) : List Dashboard :=
  rows.dashboards.filter (·.userId = user)

/-- The live accounts that have access to a dashboard, but for one. -/
def othersWith (rows : Rows) (dashboard : Dashboard) (account : UserId) : List UserId :=
  (members dashboard.userId (rows.sharesOf dashboard.id)).filter fun user =>
    user ≠ account && !rows.tombstoned user

/-- `create_share`'s upsert: the role of the row there is, or a new row. -/
def upsertShare (rows : Rows) (dashboard : DashboardId) (principal : UserId) (role : ShareRole)
    (grantedBy : UserId) : Rows :=
  if rows.shares.any fun share => share.resourceId = dashboard && share.principal = principal then
    { rows with
      shares := rows.shares.map fun share =>
        if share.resourceId = dashboard ∧ share.principal = principal then { share with role }
        else share }
  else
    { rows with
      shares := rows.shares ++ [⟨⟨rows.nextShareId, principal, role, grantedBy⟩, dashboard⟩]
      nextShareId := rows.nextShareId + 1 }

/-- A deleted dashboard takes its share rows and its invites with it. -/
def perform (rows : Rows) : Write → Rows
  | .insertDashboard user name =>
      { rows with
        dashboards := rows.dashboards ++ [⟨rows.nextDashboardId, user, name, none, user⟩]
        nextDashboardId := rows.nextDashboardId + 1 }
  | .setOwner dashboard user =>
      { rows with
        dashboards := rows.dashboards.map fun row =>
          if row.id = dashboard then { row with userId := user } else row }
  | .upsertShare dashboard principal role grantedBy =>
      rows.upsertShare dashboard principal role grantedBy
  | .deleteShares ids => { rows with shares := rows.shares.filter (·.id ∉ ids) }
  | .insertInvite invite => { rows with invites := rows.invites ++ [invite] }
  | .useInvite code user moment =>
      { rows with
        invites := rows.invites.map fun invite =>
          { invite with toDashboardInvite := invite.toDashboardInvite.use code user moment } }
  | .deleteInvites codes => { rows with invites := rows.invites.filter (·.code ∉ codes) }
  | .deleteDashboard dashboard account locked =>
      { rows with
        dashboards := rows.dashboards.filter (·.id ≠ dashboard)
        shares := rows.shares.filter (·.resourceId ≠ dashboard)
        invites := rows.invites.filter (·.dashboardId ≠ dashboard)
        removals := rows.removals ++ (rows.dashboards.filter (·.id = dashboard)).map fun row =>
          ⟨row, account, rows.othersWith row account, locked⟩ }
  | .tombstone departure moment =>
      { rows with
        users := rows.users.map fun user =>
          if user.id = departure.user then user.tombstone moment else user
        departures := rows.departures ++ [departure] }

/-- Time passing. -/
def elapse (rows : Rows) (span : Nat) : Rows := { rows with now := rows.now + span }

end Rows

/-! ## The statements -/

open ReadCommitted ReadCommitted.Program
open Links (User)
open FrontDashboard.Membership (Time DashboardInvite EffectiveRole Failure ResourceShare ShareRole
  effectiveRole heldRole inviteDetail isAtLeast)

/-- The advisory lock of an account, and the locks of rows. -/
inductive Lock
  | account (user : UserId)
  | dashboard (id : DashboardId)
  | share (id : Nat)
  deriving DecidableEq

abbrev Handler := Program Rows Write Lock Failure

structure Settings where
  quotaDashboardsPerUser : Nat
  dashboardInviteExpire : Time

variable (settings : Settings)

/-- `get_current_user`, of a caller who has a session as long as the account is live. -/
def getCurrentUser (caller : UserId) : Handler User := do
  match ← query fun rows => rows.liveUser? caller with
  | none => raise ⟨401, "Session is no longer valid"⟩
  | some user => pure user

/-- `load_dashboard_access`. -/
def loadDashboardAccess (id : DashboardId) (user : UserId) :
    Handler (Dashboard × List ResourceShare × EffectiveRole) := do
  match ← query fun rows => rows.dashboards.find? fun row => row.id = id &&
    row.deletedAt.isNone with
  | none => raise ⟨404, "Dashboard not found"⟩
  | some dashboard => do
    let shares ← query fun rows => rows.sharesOf id
    match effectiveRole dashboard.userId user shares with
    | none => raise ⟨404, "Not found"⟩
    | some role => pure (dashboard, shares, role)

/-- `assert_can_manage_shares`. -/
def assertCanManageShares (role : EffectiveRole) : Handler Unit :=
  if role = .owner then pure () else raise ⟨403, "Only the owner can manage sharing"⟩

/-- `create_dashboard`. -/
def createDashboard (caller : UserId) (name : String) : Handler Unit := do
  let _ ← getCurrentUser caller
  let count ← query fun rows => (rows.ownedBy caller).length
  if settings.quotaDashboardsPerUser ≤ count then
    raise ⟨422, "You have reached the limit of " ++
      Calendar.thousands settings.quotaDashboardsPerUser ++
        " dashboards. Delete some to make room " ++
      "— anything already in the trash keeps its space until you delete it permanently."⟩
  else do
    update fun _ => [.insertDashboard caller name]
    commitTransaction

/-- `create_invite`. The row can only be inserted for a dashboard that is there. -/
def createInvite (caller : UserId) (id : DashboardId) (role : ShareRole) (code : Nat) :
    Handler Unit := do
  let _ ← getCurrentUser caller
  let (_, _, held) ← loadDashboardAccess id caller
  assertCanManageShares held
  let found ← updateReturning
    (fun rows => [.insertInvite
      ⟨⟨code, role, caller, rows.now + settings.dashboardInviteExpire, none, none, none⟩, id⟩])
    fun rows => rows.dashboards.any (·.id = id)
  if !found then raise ⟨500, "Internal Server Error"⟩ else commitTransaction

/-- `load_live_invite`. -/
def loadLiveInvite (code : Nat) (rows : Rows) : Option Invite :=
  rows.invites.find? fun invite => invite.code = code && invite.live rows.now

/-- `create_share`. -/
def createShare (id : DashboardId) (principal : UserId) (role : ShareRole) (grantedBy : UserId) :
    Handler Unit :=
  update fun _ => [.upsertShare id principal role grantedBy]

/-- `accept_invite`. -/
def acceptInvite (caller : UserId) (code : Nat) : Handler Unit := do
  let _ ← getCurrentUser caller
  match ← query (loadLiveInvite code) with
  | none => raise ⟨404, inviteDetail⟩
  | some invite => do
    acquire (.dashboard invite.dashboardId)
    match ← query fun rows => rows.dashboards.find? fun row =>
        row.id = invite.dashboardId && row.deletedAt.isNone with
    | none => raise ⟨404, inviteDetail⟩
    | some dashboard =>
      if dashboard.userId = caller then pure ()
      else do
        let held ← query fun rows => heldRole caller (rows.sharesOf dashboard.id)
        if held.any fun role => isAtLeast role.effective invite.role.effective then pure ()
        else do
          let taken ← updateReturning
            (fun rows =>
              if (loadLiveInvite code rows).isSome then [.useInvite code caller rows.now] else [])
            fun rows => (loadLiveInvite code rows).isSome
          if !taken then raise ⟨404, inviteDetail⟩
          else do
            createShare dashboard.id caller invite.role invite.createdBy
            commitTransaction

/-- `accounts.lock_live_user`. -/
def lockLiveUser (user : UserId) : Handler (Option User) := do
  acquire (.account user)
  query fun rows => rows.liveUser? user

/-- A share row is deleted; that there is none to delete is only warned of. -/
def deleteShare (id : Nat) : Handler Unit := do
  acquire (.share id)
  update fun _ => [.deleteShares [id]]

/-- `transfer_dashboard_ownership`, from `caller` to `user`. -/
def transferDashboardOwnership (caller : UserId) (id : DashboardId) (user : UserId) :
    Handler Unit := do
  let refused : Failure := ⟨409, "The new owner must already be a member of this dashboard"⟩
  let _ ← getCurrentUser caller
  let (dashboard, shares, role) ← loadDashboardAccess id caller
  assertCanManageShares role
  if user = caller then raise ⟨409, "You already own this dashboard"⟩
  else
    match shares.find? (·.principal = user) with
    | none => raise refused
    | some share => do
      match ← lockLiveUser user with
      | none => raise refused
      | some _ => do
        acquire (.dashboard dashboard.id)
        let found ← updateReturning (fun _ => [.setOwner dashboard.id user]) fun rows =>
          rows.dashboards.any (·.id = dashboard.id)
        if !found then raise ⟨500, "Internal Server Error"⟩
        else do
          deleteShare share.id
          createShare dashboard.id caller .editor user
          commitTransaction

/-- `leave_dashboard`. -/
def leaveDashboard (caller : UserId) (id : DashboardId) : Handler Unit := do
  let _ ← getCurrentUser caller
  let (_, shares, role) ← loadDashboardAccess id caller
  if role = .owner then
    raise ⟨409, "The owner cannot leave their own dashboard — delete it instead"⟩
  else
    match shares.find? (·.principal = caller) with
    | none => raise ⟨404, "Share not found"⟩
    | some share => do
      deleteShare share.id
      commitTransaction

/-! ## Deletion -/

/-- `shared_dashboards_owned_by`. -/
def sharedDashboardsOwnedBy (user : UserId) (rows : Rows) : List String :=
  (((rows.ownedBy user).filter fun dashboard =>
    dashboard.deletedAt.isNone && !(rows.sharesOf dashboard.id).isEmpty).map
      (·.name)).insertionSort (· ≤ ·)

/-- `purge_dashboard` of some dashboards. -/
def purgeAll (account : UserId) (locked : DashboardId) : List DashboardId → Handler Unit
  | [] => pure ()
  | id :: rest => do
      acquire (.dashboard id)
      update fun _ => [.deleteDashboard id account locked]
      purgeAll account locked rest

/-- `delete_account`, where the account's dashboards were locked before that with the
id `locked`. -/
def deleteAccount (user : UserId) (locked : DashboardId) : Handler Unit := do
  let (owned, dashboardsRead) ← query fun rows =>
    ((rows.ownedBy user).map (·.id), rows.nextDashboardId)
  purgeAll user locked owned
  let (shares, sharesDeleted) ← query fun rows =>
    ((rows.shares.filter (·.principal = user)).map (·.id), rows.nextShareId)
  acquireAll (shares.map .share)
  update fun _ => [.deleteShares shares]
  update fun rows =>
    [.deleteInvites ((rows.invites.filter (·.createdBy = user)).map (·.code))]
  update fun rows => [.tombstone ⟨user, dashboardsRead, sharesDeleted⟩ rows.now]

/-- `delete_own_account`. -/
def deleteOwnAccount (caller : UserId) (password : String) : Handler Unit := do
  let user ← getCurrentUser caller
  if user.password ≠ some password then raise ⟨403, "Password is incorrect"⟩
  else do
    match ← lockLiveUser caller with
    | none => pure ()
    | some _ => do
      let (owned, locked) ← query fun rows =>
        (((rows.ownedBy caller).map (·.id)).insertionSort (· ≤ ·), rows.nextDashboardId)
      acquireAll (owned.map .dashboard)
      let shared ← query (sharedDashboardsOwnedBy caller)
      if shared ≠ [] then
        raise ⟨409, "Hand over or delete the dashboards you share first: " ++
          ", ".intercalate shared⟩
      else do
        deleteAccount caller locked
        commitTransaction

/-! ## The service -/

inductive Request
  | createDashboard (caller : UserId) (name : String)
  | createInvite (caller : UserId) (dashboard : DashboardId) (role : ShareRole) (code : Nat)
  | acceptInvite (caller : UserId) (code : Nat)
  | transferDashboardOwnership (caller : UserId) (dashboard : DashboardId) (user : UserId)
  | leaveDashboard (caller : UserId) (dashboard : DashboardId)
  | deleteOwnAccount (caller : UserId) (password : String)

def handler : Request → Handler Unit
  | .createDashboard caller name => createDashboard settings caller name
  | .createInvite caller dashboard role code => createInvite settings caller dashboard role code
  | .acceptInvite caller code => acceptInvite caller code
  | .transferDashboardOwnership caller dashboard user =>
      transferDashboardOwnership caller dashboard user
  | .leaveDashboard caller dashboard => leaveDashboard caller dashboard
  | .deleteOwnAccount caller password => deleteOwnAccount caller password

/-- Rows as the database keeps them, with no deletion on record. -/
structure Rows.Initial (rows : Rows) : Prop where
  dashboardIds : (rows.dashboards.map (·.id)).Nodup
  dashboardsBefore : ∀ dashboard ∈ rows.dashboards, dashboard.id < rows.nextDashboardId
  sharesBefore : ∀ share ∈ rows.shares, share.id < rows.nextShareId
  sharedBefore : ∀ share ∈ rows.shares, share.resourceId < rows.nextDashboardId
  invitedBefore : ∀ invite ∈ rows.invites, invite.dashboardId < rows.nextDashboardId
  departures : rows.departures = []
  removals : rows.removals = []

def service : Service Rows Write Lock Failure Unit Request Nat where
  perform := Rows.perform
  handler := fun _ => handler settings
  environment := Rows.elapse
  Initial := Rows.Initial

end FrontDashboard.Deletion
