import Mathlib.Data.List.Dedup
import FrontDashboard.Library.ReadCommitted

/-! # The rows of one dashboard

The `dashboards` row of one dashboard with its share rows, its invites and its
list items, and the writes the routes make to them. Raw invite codes occur only
through the row their hash selects, so presenting a code is naming its row.

Some fields record history and influence no statement. `standing` lists the users who
have gained access and were not removed and did not leave since, `frames` the content
frames sent with the users who had access when their write committed, `transfers` how
often the owner was set, and `turns` the users whose access has begun or ended, one after
the other. An `Access` remembers how far these were when its rows were read.
-/

namespace FrontDashboard.Membership

/-- Microseconds. -/
abbrev Time := Int

inductive EffectiveRole
  | viewer
  | editor
  | owner
  deriving DecidableEq, Repr

/-- The roles a share row may store. -/
inductive ShareRole
  | viewer
  | editor
  deriving DecidableEq, Repr

def ShareRole.effective : ShareRole → EffectiveRole
  | .viewer => .viewer
  | .editor => .editor

/-- A row of `resource_shares`. -/
structure ResourceShare where
  id : Nat
  principal : Nat
  role : ShareRole
  grantedBy : Nat
  deriving DecidableEq, Repr

structure DashboardInvite where
  code : Nat
  role : ShareRole
  createdBy : Nat
  expiresAt : Time
  usedAt : Option Time
  redeemedBy : Option Nat
  revokedAt : Option Time
  deriving DecidableEq, Repr

/-- A live row of `lists`. -/
structure ListRow where
  id : Nat
  name : String
  deriving DecidableEq, Repr

inductive ItemPriority
  | low
  | medium
  | high
  deriving DecidableEq, Repr

structure ListItem where
  id : Nat
  listId : Nat
  text : String
  checked : Bool
  dueDate : Option String
  priority : Option ItemPriority
  category : Option String
  assignedTo : Option Nat
  updatedBy : Nat
  deriving DecidableEq, Repr

/-- A field of `ListItemUpdate` that the request sets. -/
inductive ItemField
  | text (value : String)
  | checked (value : Bool)
  | dueDate (value : Option String)
  | priority (value : Option ItemPriority)
  | category (value : Option String)
  | assignedTo (value : Option Nat)
  deriving DecidableEq, Repr

def ItemField.set (item : ListItem) : ItemField → ListItem
  | .text value => { item with text := value }
  | .checked value => { item with checked := value }
  | .dueDate value => { item with dueDate := value }
  | .priority value => { item with priority := value }
  | .category value => { item with category := value }
  | .assignedTo value => { item with assignedTo := value }

/-- The item with the fields of a request. -/
def ListItem.patched (fields : List ItemField) (updatedBy : Nat) (item : ListItem) : ListItem :=
  { fields.foldl ItemField.set item with updatedBy }

/-- What `load_dashboard_access` answers, with how many transfers there had been when the
dashboard was read, and how many transfers and turns when its shares were. -/
structure Access where
  owner : Nat
  shares : List ResourceShare
  role : EffectiveRole
  transfersBefore : Nat
  transfersThen : Nat
  turnsThen : Nat
  deriving DecidableEq, Repr

/-- A content frame, by its audience. -/
structure Frame where
  eventType : String
  listId : Nat
  listName : String
  entityId : Nat
  fields : List ItemField
  audience : List Nat
  deriving DecidableEq, Repr

/-- A frame sent, and who had access when its write committed. -/
structure Sent where
  frame : Frame
  entitled : List Nat
  deriving DecidableEq, Repr

structure Rows where
  now : Time
  owner : Nat
  deletedAt : Option Time
  shares : List ResourceShare
  nextShareId : Nat
  invites : List DashboardInvite
  tombstones : List Nat
  lists : List ListRow
  items : List ListItem
  standing : List Nat
  frames : List Sent
  transfers : Nat
  turns : List Nat

/-- Why a share row goes. -/
inductive Cause
  | removed
  | left
  | transferred
  deriving DecidableEq, Repr

/-- One row change. `setOwner` also carries who hands the dashboard over and the
share row that goes with it, and `sendFrame` the access its audience was computed from. -/
inductive Write
  | setOwner (user caller share : Nat)
  | deleteShare (id : Nat) (cause : Cause)
  | setShareRole (id : Nat) (role : ShareRole)
  | upsertShare (principal : Nat) (role : ShareRole) (grantedBy : Nat)
  | useInvite (code user : Nat) (moment : Time)
  | setItem (id : Nat) (fields : List ItemField) (updatedBy : Nat)
  | deleteItem (id : Nat)
  | sendFrame (frame : Frame) (access : Access)

/-! ## Who has access -/

/-- `_ROLE_RANK`. -/
def EffectiveRole.rank : EffectiveRole → Nat
  | .viewer => 0
  | .editor => 1
  | .owner => 2

/-- `is_at_least`. -/
def isAtLeast (role required : EffectiveRole) : Bool := required.rank ≤ role.rank

/-- `highest_role`: the first of the strongest, as `max` picks it. -/
def highestRole : List ShareRole → Option ShareRole
  | [] => none
  | role :: roles =>
      some (roles.foldl (fun best next =>
        if best.effective.rank < next.effective.rank then next else best) role)

/-- `effective_role`, with `none` for the 404. -/
def effectiveRole (owner user : Nat) (shares : List ResourceShare) : Option EffectiveRole :=
  if owner = user then some .owner
  else
    (highestRole ((shares.filter fun share => share.principal = user).map (·.role))).map
      ShareRole.effective

/-- The owner and the principals of the share rows. -/
def members (owner : Nat) (shares : List ResourceShare) : List Nat :=
  owner :: shares.map (·.principal)

/-- `dashboard_audience_user_ids`. -/
def dashboardAudienceUserIds (owner : Nat) (shares : List ResourceShare) : List Nat :=
  owner :: shares.map (·.principal)

theorem highestRole_eq_none {roles : List ShareRole} : highestRole roles = none ↔ roles = [] := by
  cases roles <;> simp [highestRole]

/-- **Access** is owning the dashboard, or holding a share row. -/
theorem effectiveRole_isSome {owner user : Nat} {shares : List ResourceShare} :
    (effectiveRole owner user shares).isSome = true ↔ user ∈ members owner shares := by
  unfold effectiveRole members
  by_cases same : owner = user
  · simp [same]
  · rw [if_neg same, Option.isSome_map, Option.isSome_iff_ne_none, Ne, highestRole_eq_none]
    simp [Ne.symm same]

/-- Only the owner's role is owner. -/
theorem effectiveRole_eq_owner {owner user : Nat} {shares : List ResourceShare} :
    effectiveRole owner user shares = some .owner ↔ owner = user := by
  unfold effectiveRole
  constructor
  · intro owns
    by_contra different
    rw [if_neg different] at owns
    obtain ⟨role, -, stored⟩ := Option.map_eq_some_iff.mp owns
    cases role <;> cases stored
  · intro same
    rw [if_pos same]

/-! ## Writes -/

/-- `create_share`'s upsert: the role of the row there is, or a new row. -/
def Rows.upsert (principal : Nat) (role : ShareRole) (grantedBy : Nat) (rows : Rows) : Rows :=
  if principal ∈ rows.shares.map (·.principal) then
    { rows with
      shares := rows.shares.map fun share =>
        if share.principal = principal then { share with role } else share }
  else
    { rows with
      shares := rows.shares ++ [⟨rows.nextShareId, principal, role, grantedBy⟩]
      nextShareId := rows.nextShareId + 1 }

/-- The users still standing once a share row is gone. -/
def Cause.standing (id : Nat) (rows : Rows) : Cause → List Nat
  | .transferred => rows.standing
  | .removed | .left =>
      rows.standing.filter fun user => ¬ ∃ share ∈ rows.shares, share.id = id ∧
        share.principal = user

def DashboardInvite.use (code user : Nat) (moment : Time) (invite : DashboardInvite) :
    DashboardInvite :=
  if invite.code = code then { invite with usedAt := some moment, redeemedBy := some user }
  else invite

/-- What a write makes of the rows. -/
def Rows.write (rows : Rows) : Write → Rows
  | .setOwner user _ _ =>
      { rows with
        owner := user, standing := user :: rows.standing, transfers := rows.transfers + 1 }
  | .deleteShare id cause =>
      { rows with
        shares := rows.shares.filter fun share => share.id ≠ id
        standing := cause.standing id rows }
  | .setShareRole id role =>
      { rows with
        shares := rows.shares.map fun share => if share.id = id then
          { share with role } else share }
  | .upsertShare principal role grantedBy =>
      { rows.upsert principal role grantedBy with standing := principal :: rows.standing }
  | .useInvite code user moment =>
      { rows with invites := rows.invites.map (.use code user moment) }
  | .setItem id fields updatedBy =>
      { rows with
        items := rows.items.map fun item =>
          if item.id = id then item.patched fields updatedBy else item }
  | .deleteItem id => { rows with items := rows.items.filter fun item => item.id ≠ id }
  | .sendFrame frame _ =>
      { rows with frames := rows.frames ++ [⟨frame, members rows.owner rows.shares⟩] }

/-- The users who have access to one of two states and not to the other. -/
def turned (before after : Rows) : List Nat :=
  let first := members before.owner before.shares
  let second := members after.owner after.shares
  (first ++ second).dedup.filter fun user => decide (user ∈ first) != decide (user ∈ second)

def Rows.perform (rows : Rows) (write : Write) : Rows :=
  { rows.write write with turns := rows.turns ++ turned rows (rows.write write) }

/-- Time passing. -/
def Rows.elapse (rows : Rows) (span : Nat) : Rows := { rows with now := rows.now + span }

end FrontDashboard.Membership
