import FrontDashboard.Library.Journal
import FrontDashboard.Membership.Routes

/-! # The invites of one dashboard

The share rows and the invites of one dashboard, the row changes that redeeming and
revoking make to them, and the two atomic steps they amount to: an invite is redeemed,
or it is revoked. `opening` and `history` are on record only and no statement reads
them: the tables at first, and the steps committed since.
-/

namespace FrontDashboard.Invites

open ReadCommitted ReadCommitted.Program
open FrontDashboard.Membership (EffectiveRole Failure ResourceShare ShareRole Time effectiveRole
  heldRole highestRole inviteDetail isAtLeast)

/-- A row of `dashboard_invites`. Its hash stands for the code it selects. -/
structure DashboardInvite extends Membership.DashboardInvite where
  id : Nat
  deriving DecidableEq, Repr

structure Tables where
  shares : List ResourceShare
  nextShareId : Nat
  invites : List DashboardInvite
  deriving DecidableEq

/-- A redeemed code: who asked with it and when it was looked up, and the invite claimed,
with the moment from which it counts as used. -/
structure Redemption where
  invite : Nat
  code : Nat
  user : Nat
  role : ShareRole
  grantedBy : Nat
  asked : Time
  moment : Time
  deriving DecidableEq

inductive Step
  | redeemed (redemption : Redemption)
  | revoked (invite : Nat) (moment : Time)
  deriving DecidableEq

/-- The invite that a step uses up. -/
def Step.invite : Step → Nat
  | .redeemed redemption => redemption.invite
  | .revoked invite _ => invite

/-! ## Row changes -/

def DashboardInvite.use (id user : Nat) (moment : Time) (invite : DashboardInvite) :
    DashboardInvite :=
  if invite.id = id then { invite with usedAt := some moment, redeemedBy := some user }
  else invite

def DashboardInvite.revoke (id : Nat) (moment : Time) (invite : DashboardInvite) :
    DashboardInvite :=
  if invite.id = id then { invite with revokedAt := some moment } else invite

def Tables.useInvite (id user : Nat) (moment : Time) (tables : Tables) : Tables :=
  { tables with invites := tables.invites.map (.use id user moment) }

def Tables.revokeInvite (id : Nat) (moment : Time) (tables : Tables) : Tables :=
  { tables with invites := tables.invites.map (.revoke id moment) }

/-- `create_share`'s upsert: the role of the row there is, or a new row. -/
def Tables.upsertShare (principal : Nat) (role : ShareRole) (grantedBy : Nat)
    (tables : Tables) : Tables :=
  if principal ∈ tables.shares.map (·.principal) then
    { tables with
      shares := tables.shares.map fun share =>
        if share.principal = principal then { share with role } else share }
  else
    { tables with
      shares := tables.shares ++ [⟨tables.nextShareId, principal, role, grantedBy⟩]
      nextShareId := tables.nextShareId + 1 }

/-- What a step does to the tables. -/
def Tables.take (tables : Tables) : Step → Tables
  | .redeemed redemption =>
      (tables.useInvite redemption.invite redemption.user redemption.moment).upsertShare
        redemption.user redemption.role redemption.grantedBy
  | .revoked invite moment => tables.revokeInvite invite moment

structure Rows where
  now : Time
  owner : Nat
  deletedAt : Option Time
  tables : Tables
  opening : Tables
  history : List Step

/-- One row change. `upsertShare` carries the redemption it belongs to. -/
inductive Write
  | useInvite (id user : Nat) (moment : Time)
  | upsertShare (redemption : Redemption)
  | revokeInvite (id : Nat) (moment : Time)

def Rows.perform (rows : Rows) : Write → Rows
  | .useInvite id user moment => { rows with tables := rows.tables.useInvite id user moment }
  | .upsertShare redemption =>
      { rows with
        tables := rows.tables.upsertShare redemption.user redemption.role redemption.grantedBy
        history := rows.history ++ [.redeemed redemption] }
  | .revokeInvite id moment =>
      { rows with
        tables := rows.tables.revokeInvite id moment
        history := rows.history ++ [.revoked id moment] }

/-- Time passing. -/
def Rows.elapse (rows : Rows) (span : Nat) : Rows := { rows with now := rows.now + span }

/-! ## The rows that a change leaves alone -/

/-- What an invite was issued with, which nothing changes. -/
structure Terms where
  id : Nat
  code : Nat
  role : ShareRole
  createdBy : Nat
  expiresAt : Time
  deriving DecidableEq

def DashboardInvite.terms (invite : DashboardInvite) : Terms :=
  ⟨invite.id, invite.code, invite.role, invite.createdBy, invite.expiresAt⟩

@[simp] theorem DashboardInvite.terms_use (id user : Nat) (moment : Time)
    (invite : DashboardInvite) : (invite.use id user moment).terms = invite.terms := by
  unfold DashboardInvite.use
  split <;> rfl

@[simp] theorem DashboardInvite.terms_revoke (id : Nat) (moment : Time)
    (invite : DashboardInvite) : (invite.revoke id moment).terms = invite.terms := by
  unfold DashboardInvite.revoke
  split <;> rfl

@[simp] theorem upsertShare_invites (principal : Nat) (role : ShareRole) (grantedBy : Nat)
    (tables : Tables) : (tables.upsertShare principal role grantedBy).invites = tables.invites := by
  unfold Tables.upsertShare
  split <;> rfl

/-- No step changes what an invite was issued with. -/
theorem terms_take (tables : Tables) (step : Step) :
    (tables.take step).invites.map (·.terms) = tables.invites.map (·.terms) := by
  cases step with
  | redeemed redemption => simp [Tables.take, Tables.useInvite]
  | revoked invite moment => simp [Tables.take, Tables.revokeInvite]

/-- The principals after an upsert are those there were and the one it names. -/
theorem principal_of_mem_upsertShare {principal : Nat} {role : ShareRole} {grantedBy : Nat}
    {tables : Tables} {share : ResourceShare}
    (present : share ∈ (tables.upsertShare principal role grantedBy).shares) :
    share.principal = principal ∨ ∃ before ∈ tables.shares, before.principal = share.principal := by
  unfold Tables.upsertShare at present
  split at present
  · obtain ⟨before, earlier, made⟩ := List.mem_map.mp present
    refine .inr ⟨before, earlier, ?_⟩
    rw [← made]
    split <;> rfl
  · rcases List.mem_append.mp present with earlier | fresh
    · exact .inr ⟨share, earlier, rfl⟩
    · rw [List.mem_singleton.mp fresh]
      exact .inl rfl

/-! ## The role held after an upsert -/

theorem highestRole_of_forall {roles : List ShareRole} {role : ShareRole} (some_ : roles ≠ [])
    (same : ∀ held ∈ roles, held = role) : highestRole roles = some role := by
  cases roles with
  | nil => exact absurd rfl some_
  | cons first rest =>
      obtain rfl : first = role := same first List.mem_cons_self
      have others : ∀ held ∈ rest, held = first :=
        fun held member => same held (List.mem_cons_of_mem first member)
      have folded : rest.foldl (fun best next =>
          if best.effective.rank < next.effective.rank then next else best) first = first := by
        clear same some_
        induction rest with
        | nil => rfl
        | cons next rest ih =>
            obtain rfl : next = first := others next List.mem_cons_self
            rw [List.foldl_cons, if_neg (Nat.lt_irrefl _)]
            exact ih fun held member => others held (List.mem_cons_of_mem _ member)
      simp only [highestRole, folded]

/-- An upsert gives the principal exactly the role, and nobody else another one. -/
theorem heldRole_upsertShare (principal user : Nat) (role : ShareRole) (grantedBy : Nat)
    (tables : Tables) :
    heldRole user (tables.upsertShare principal role grantedBy).shares =
      if user = principal then some role else heldRole user tables.shares := by
  unfold Tables.upsertShare
  by_cases held : principal ∈ tables.shares.map (·.principal)
  · rw [if_pos held]
    have kept : ∀ share : ResourceShare,
        (if share.principal = principal then { share with role } else share).principal =
          share.principal := by
      intro share
      split <;> rfl
    unfold heldRole
    simp only [List.filter_map, Function.comp_def, kept, List.map_map]
    split
    next same =>
      subst same
      apply highestRole_of_forall
      · simpa using held
      · simp only [List.mem_map, List.mem_filter, decide_eq_true_eq]
        rintro _ ⟨share, ⟨-, mine⟩, rfl⟩
        rw [if_pos mine]
    next other =>
      congr 1
      apply List.map_congr_left
      intro share member
      obtain rfl : share.principal = user := by simpa using (List.mem_filter.mp member).2
      rw [if_neg other]
  · rw [if_neg held]
    unfold heldRole
    simp only [List.filter_append, List.map_append]
    split
    next same =>
      subst same
      have absent : tables.shares.filter (fun share => share.principal = user) = [] := by
        simpa [List.filter_eq_nil_iff] using held
      simp [absent, highestRole]
    next other => simp [Ne.symm other]

/-! ## Redeeming and revoking

`accept_invite` and `delete_invite`, each as the program of its database statements. An
UPDATE locks the row that it finds and matches it again before it writes.
-/

/-- The row locks of the dashboard and of its invites. -/
inductive Lock
  | dashboard
  | invite (id : Nat)
  deriving DecidableEq

/-- What the routes answer: the role that the redeemer holds, or no content. -/
inductive Answer
  | role (held : EffectiveRole)
  | noContent
  deriving DecidableEq, Repr

abbrev Handler := Program Rows Write Lock Failure

/-! ## The invite service -/

/-- `_is_live` for the invite of a code. -/
def redeemable (code : Nat) (now : Time) (invite : DashboardInvite) : Bool :=
  invite.code == code && invite.live now

/-- `load_live_invite`, with the moment it asks at. -/
def loadLiveInvite (code : Nat) : Handler (Option DashboardInvite × Time) :=
  query fun rows => (rows.tables.invites.find? (redeemable code rows.now), rows.now)

/-- Whether the condition still selects the row of an id. -/
def stillSelects (selects : DashboardInvite → Bool) (id : Nat) (rows : Rows) : Bool :=
  rows.tables.invites.any fun row => row.id == id && selects row

/-- One UPDATE of the invite that a condition selects, answering the id it changed. -/
def updateInvite (selects : DashboardInvite → Bool) (change : Nat → Write) :
    Handler (Option Nat) := do
  match ← query fun rows => rows.tables.invites.find? selects with
  | none => pure none
  | some invite => do
    acquire (.invite invite.id)
    let changed ← updateReturning
      (fun rows => if stillSelects selects invite.id rows then [change invite.id] else [])
      (stillSelects selects invite.id)
    pure (if changed then some invite.id else none)

/-- `consume_invite`, answering the invite it took and the moment it did. -/
def consumeInvite (code redeemedBy : Nat) : Handler (Option (Nat × Time)) := do
  let now ← query fun rows => rows.now
  let taken ← updateInvite (redeemable code now) fun id => .useInvite id redeemedBy now
  pure (taken.map fun id => (id, now))

/-- `revoke_invite`, answering whether there was an invite to revoke. -/
def revokeInvite (id : Nat) : Handler Bool := do
  let now ← query fun rows => rows.now
  let revoked ← updateInvite
    (fun invite => invite.id == id && invite.usedAt.isNone && invite.revokedAt.isNone)
    fun id => .revokeInvite id now
  pure revoked.isSome

/-! ## The routes -/

/-- `accept_invite`. -/
def acceptInvite (caller code : Nat) : Handler Answer := do
  let (found, asked) ← loadLiveInvite code
  match found with
  | none => raise ⟨404, inviteDetail⟩
  | some invite => do
    acquire .dashboard
    match ← query fun rows => if rows.deletedAt.isNone then some rows.owner else none with
    | none => raise ⟨404, inviteDetail⟩
    | some owner =>
      if owner = caller then pure (.role .owner)
      else do
        let held ← query fun rows => heldRole caller rows.tables.shares
        match held.filter fun role => isAtLeast role.effective invite.role.effective with
        | some role => pure (.role role.effective)
        | none => do
          match ← consumeInvite code caller with
          | none => raise ⟨404, inviteDetail⟩
          | some (id, moment) => do
            update fun _ => [.upsertShare
              ⟨id, code, caller, invite.role, invite.createdBy, asked, moment⟩]
            commitTransaction
            pure (.role invite.role.effective)

/-- `_dashboard_for_share_management`. -/
def dashboardForShareManagement (user : Nat) : Handler Unit := do
  match ← query fun rows => if rows.deletedAt.isNone then some rows.owner else none with
  | none => raise ⟨404, "Dashboard not found"⟩
  | some owner => do
    let shares ← query fun rows => rows.tables.shares
    match effectiveRole owner user shares with
    | none => raise ⟨404, "Not found"⟩
    | some role =>
      if role = .owner then pure () else raise ⟨403, "Only the owner can manage sharing"⟩

/-- `delete_invite`. -/
def deleteInvite (caller id : Nat) : Handler Answer := do
  dashboardForShareManagement caller
  let revoked ← revokeInvite id
  if revoked then do
    commitTransaction
    pure .noContent
  else raise ⟨404, "Invite not found"⟩

inductive Request
  | acceptInvite (caller code : Nat)
  | deleteInvite (caller id : Nat)

def handler : Request → Handler Answer
  | .acceptInvite caller code => acceptInvite caller code
  | .deleteInvite caller id => deleteInvite caller id

/-- A dashboard as the database keeps it: its invites have different ids and different
codes, its owner holds no share row, and nothing is on record. -/
structure Rows.Initial (rows : Rows) : Prop where
  ids : (rows.tables.invites.map (·.id)).Nodup
  codes : (rows.tables.invites.map (·.code)).Nodup
  owner : ∀ share ∈ rows.tables.shares, share.principal ≠ rows.owner
  opening : rows.opening = rows.tables
  history : rows.history = []

/-- The requests of any number of users; time passes outside them. -/
def service : Service Rows Write Lock Failure Answer Request Nat where
  perform := Rows.perform
  handler := fun _ => handler
  environment := Rows.elapse
  Initial := Rows.Initial

end FrontDashboard.Invites
