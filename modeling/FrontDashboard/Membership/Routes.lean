import FrontDashboard.Membership.Dashboard

/-! # The membership routes

`transfer_dashboard_ownership`, `accept_invite`, `update_dashboard_share`,
`delete_dashboard_share` and `leave_dashboard`, and beside them two content writes,
`update_item` and `delete_item`, each as the program of its database statements. A
statement that changes a row waits for the row's lock.
-/

namespace FrontDashboard.Membership

open ReadCommitted ReadCommitted.Program

/-- The dashboard's row lock, the advisory lock of an account, and the row locks of
shares. -/
inductive Lock
  | dashboard
  | account (user : Nat)
  | share (id : Nat)
  deriving DecidableEq

/-- An `HTTPException`. -/
structure Failure where
  statusCode : Nat
  detail : String
  deriving DecidableEq, Repr

abbrev Handler := Program Rows Write Lock Failure

/-- `load_dashboard_access`. -/
def loadDashboardAccess (user : Nat) : Handler Access := do
  match ← query fun rows =>
      if rows.deletedAt.isNone then some (rows.owner, rows.transfers) else none with
  | none => raise ⟨404, "Dashboard not found"⟩
  | some (owner, transfersBefore) => do
    let (shares, transfersThen, turnsThen) ← query fun rows =>
      (rows.shares, rows.transfers, rows.turns.length)
    match effectiveRole owner user shares with
    | none => raise ⟨404, "Not found"⟩
    | some role => pure ⟨owner, shares, role, transfersBefore, transfersThen, turnsThen⟩

/-- `assert_can_manage_shares`. -/
def assertCanManageShares (role : EffectiveRole) : Handler Unit :=
  if role = .owner then pure () else raise ⟨403, "Only the owner can manage sharing"⟩

/-- `assert_can_edit`. -/
def assertCanEdit (role : EffectiveRole) : Handler Unit :=
  if isAtLeast role .editor then pure () else raise ⟨403, "Editor access required"⟩

/-- `get_resource_share`. -/
def getResourceShare (id : Nat) : Handler (Option ResourceShare) :=
  query fun rows => rows.shares.find? (·.id == id)

/-- `lock_live_user`, answering whether the account is live. -/
def lockLiveUser (user : Nat) : Handler Bool := do
  acquire (.account user)
  query fun rows => user ∉ rows.tombstones

/-- A share row is deleted; that there is none to delete is only warned of. -/
def deleteShare (id : Nat) (cause : Cause) : Handler Unit := do
  acquire (.share id)
  update fun _ => [.deleteShare id cause]

/-- `create_share`. -/
def createShare (principal : Nat) (role : ShareRole) (grantedBy : Nat) : Handler Unit :=
  update fun _ => [.upsertShare principal role grantedBy]

/-- `transfer_dashboard_ownership`, from `caller` to `user`. -/
def transferDashboardOwnership (caller user : Nat) : Handler Unit := do
  let access ← loadDashboardAccess caller
  assertCanManageShares access.role
  if user = caller then raise ⟨409, "You already own this dashboard"⟩
  else
    match access.shares.find? (·.principal == user) with
    | none => raise ⟨409, "The new owner must already be a member of this dashboard"⟩
    | some share => do
      let live ← lockLiveUser user
      if !live then raise ⟨409, "The new owner must already be a member of this dashboard"⟩
      else do
        acquire .dashboard
        update fun _ => [.setOwner user caller share.id]
        deleteShare share.id .transferred
        createShare caller .editor user
        commitTransaction

/-- `_is_live`. -/
def DashboardInvite.live (now : Time) (invite : DashboardInvite) : Bool :=
  invite.usedAt.isNone && invite.revokedAt.isNone && invite.expiresAt > now

def inviteDetail : String := "This invite link is no longer valid"

/-- `load_live_invite`. -/
def loadLiveInvite (code : Nat) : Handler (Option DashboardInvite) :=
  query fun rows => rows.invites.find? fun invite => invite.code == code && invite.live rows.now

/-- Whether `consume_invite`'s UPDATE matches a row. -/
def consumable (code : Nat) (rows : Rows) : Bool :=
  rows.invites.any fun invite => invite.code == code && invite.live rows.now

/-- `consume_invite`, answering whether it took the code. -/
def consumeInvite (code user : Nat) : Handler Bool :=
  updateReturning
    (fun rows => if consumable code rows then [.useInvite code user rows.now] else [])
    (consumable code)

/-- The strongest role the user holds by a share row. -/
def heldRole (user : Nat) (shares : List ResourceShare) : Option ShareRole :=
  highestRole ((shares.filter fun share => share.principal = user).map (·.role))

/-- `accept_invite`. -/
def acceptInvite (caller code : Nat) : Handler Unit := do
  match ← loadLiveInvite code with
  | none => raise ⟨404, inviteDetail⟩
  | some invite => do
    acquire .dashboard
    match ← query fun rows => if rows.deletedAt.isNone then some rows.owner else none with
    | none => raise ⟨404, inviteDetail⟩
    | some owner =>
      if owner = caller then pure ()
      else do
        let held ← query fun rows => heldRole caller rows.shares
        if held.any fun role => isAtLeast role.effective invite.role.effective then pure ()
        else do
          let taken ← consumeInvite code caller
          if !taken then raise ⟨404, inviteDetail⟩
          else do
            createShare caller invite.role invite.createdBy
            commitTransaction

/-- `update_dashboard_share`. The role compared is the one read with the access, where
the row was among those. -/
def updateDashboardShare (caller shareId : Nat) (role : ShareRole) : Handler Unit := do
  let access ← loadDashboardAccess caller
  assertCanManageShares access.role
  match ← getResourceShare shareId with
  | none => raise ⟨404, "Share not found"⟩
  | some share =>
    if ((access.shares.find? (·.id == shareId)).getD share).role = role then pure ()
    else do
      acquire (.share shareId)
      let found ← updateReturning (fun _ => [.setShareRole shareId role])
        fun rows => rows.shares.any (·.id == shareId)
      if !found then raise ⟨500, "Internal Server Error"⟩ else commitTransaction

/-- `delete_dashboard_share`. -/
def deleteDashboardShare (caller shareId : Nat) : Handler Unit := do
  let access ← loadDashboardAccess caller
  assertCanManageShares access.role
  match ← getResourceShare shareId with
  | none => raise ⟨404, "Share not found"⟩
  | some _ => do
    deleteShare shareId .removed
    commitTransaction

/-- `leave_dashboard`. -/
def leaveDashboard (caller : Nat) : Handler Unit := do
  let access ← loadDashboardAccess caller
  if access.role = .owner then
    raise ⟨409, "The owner cannot leave their own dashboard — delete it instead"⟩
  else
    match access.shares.find? (·.principal == caller) with
    | none => raise ⟨404, "Share not found"⟩
    | some share => do
      deleteShare share.id .left
      commitTransaction

/-! ## Content -/

/-- `_get_list_access`. -/
def getListAccess (listId caller : Nat) : Handler (ListRow × Access) := do
  match ← query fun rows => rows.lists.find? (·.id == listId) with
  | none => raise ⟨404, "List not found"⟩
  | some list => do
    let access ← loadDashboardAccess caller
    pure (list, access)

/-- The item of a list. -/
def getItem (listId itemId : Nat) : Handler (Option ListItem) :=
  query fun rows => rows.items.find? fun item => item.id == itemId && item.listId == listId

/-- `commit_and_broadcast` with the frame of `dashboard_fanout`. -/
def commitAndBroadcast (eventType : String) (list : ListRow) (itemId : Nat)
    (fields : List ItemField) (access : Access) : Handler Unit := do
  update fun _ => [.sendFrame
    ⟨eventType, list.id, list.name, itemId, fields,
      dashboardAudienceUserIds access.owner access.shares⟩ access]
  commitTransaction

def ItemField.isChecked : ItemField → Bool
  | .checked _ => true
  | _ => false

/-- `update_item`. Nothing is written of an item left as it was read. -/
def updateItem (caller listId itemId : Nat) (fields : List ItemField) : Handler Unit := do
  let (list, access) ← getListAccess listId caller
  match ← getItem listId itemId with
  | none => raise ⟨404, "Item not found"⟩
  | some item => do
    assertCanEdit access.role
    let found ← updateReturning
      (fun _ => if item.patched fields caller = item then [] else [.setItem itemId fields caller])
      fun rows => item.patched fields caller = item || rows.items.any (·.id == itemId)
    if !found then raise ⟨500, "Internal Server Error"⟩
    else
      let eventType :=
        if fields.any ItemField.isChecked then "list_item_checked" else "list_item_updated"
      commitAndBroadcast eventType list itemId fields access

/-- `delete_item`. -/
def deleteItem (caller listId itemId : Nat) : Handler Unit := do
  let (list, access) ← getListAccess listId caller
  assertCanEdit access.role
  match ← getItem listId itemId with
  | none => raise ⟨404, "Item not found"⟩
  | some _ => do
    update fun _ => [.deleteItem itemId]
    commitAndBroadcast "list_item_deleted" list itemId [] access

/-! ## The service -/

inductive Request
  | transferDashboardOwnership (caller user : Nat)
  | acceptInvite (caller code : Nat)
  | updateDashboardShare (caller share : Nat) (role : ShareRole)
  | deleteDashboardShare (caller share : Nat)
  | leaveDashboard (caller : Nat)
  | updateItem (caller list item : Nat) (fields : List ItemField)
  | deleteItem (caller list item : Nat)

def handler : Request → Handler Unit
  | .transferDashboardOwnership caller user => transferDashboardOwnership caller user
  | .acceptInvite caller code => acceptInvite caller code
  | .updateDashboardShare caller share role => updateDashboardShare caller share role
  | .deleteDashboardShare caller share => deleteDashboardShare caller share
  | .leaveDashboard caller => leaveDashboard caller
  | .updateItem caller list item fields => updateItem caller list item fields
  | .deleteItem caller list item => deleteItem caller list item

/-- A dashboard as the database keeps it: its share rows have different ids and
different principals, none of them the owner, and nothing is on record. -/
structure Rows.Initial (rows : Rows) : Prop where
  ids : (rows.shares.map (·.id)).Nodup
  fresh : ∀ share ∈ rows.shares, share.id < rows.nextShareId
  principals : (rows.shares.map (·.principal)).Nodup
  owner : ∀ share ∈ rows.shares, share.principal ≠ rows.owner
  standing : rows.standing = members rows.owner rows.shares
  frames : rows.frames = []

/-- The routes of one dashboard as a service; time passes outside the requests. -/
def service : Service Rows Write Lock Failure Unit Request Nat where
  perform := Rows.perform
  handler := fun _ => handler
  environment := Rows.elapse
  Initial := Rows.Initial

end FrontDashboard.Membership
