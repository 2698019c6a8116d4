import FrontDashboard.Auth.Routes
import FrontDashboard.Library.Sweep
import FrontDashboard.Membership.Routes
import Mathlib.Data.List.Nodup

/-! # The rows that authenticate

Sessions, the links that are mailed, and invites, with the users and dashboards they lead
to. A raw token or code occurs only through the row that its hash selects, so presenting
one is naming its row; the token of a session is its id.
-/

namespace FrontDashboard.Reaper

open Auth (Failure emailChangeDetail resetDetail tooCommonDetail unprocessable)
open FrontDashboard.Membership (EffectiveRole ResourceShare ShareRole heldRole inviteDetail
  isAtLeast)

/-- Microseconds. -/
abbrev Time := Int

abbrev UserId := Nat

/-- A row of `users`. No password verifies against the hash of a tombstone. -/
structure User where
  id : UserId
  email : String
  password : Option String
  displayName : String
  emailVerifiedAt : Option Time
  deletedAt : Option Time
  deriving DecidableEq

structure UserSession where
  id : Nat
  userId : UserId
  createdAt : Time
  lastUsedAt : Time
  expiresAt : Time
  revokedAt : Option Time
  deviceName : Option String
  deriving DecidableEq

/-- A row of `email_verification_tokens` or of `password_reset_tokens`. -/
structure AuthToken where
  token : Nat
  userId : UserId
  expiresAt : Time
  usedAt : Option Time
  deriving DecidableEq

structure EmailChangeToken extends AuthToken where
  newEmail : String
  deriving DecidableEq

structure Dashboard where
  id : Nat
  userId : UserId
  name : String
  deletedAt : Option Time
  deriving DecidableEq

structure DashboardInvite extends Membership.DashboardInvite where
  dashboardId : Nat
  deriving DecidableEq

/-- A row of `resource_shares`. -/
structure ShareRow extends ResourceShare where
  dashboardId : Nat
  deriving DecidableEq

/-! ## Sessions -/

/-- The table of sessions: different ids, each drawn before the next one. -/
@[ext] structure Sessions where
  rows : List UserSession
  next : Nat
  unique : (rows.map UserSession.id).Nodup
  drawn : ∀ session ∈ rows, session.id < next

namespace Sessions

/-- Some sessions change, and none its id. -/
def change (sessions : Sessions) (change : UserSession → UserSession)
    (keeps : ∀ session, (change session).id = session.id) : Sessions where
  rows := sessions.rows.map change
  next := sessions.next
  unique := by
    have same : (sessions.rows.map change).map UserSession.id = sessions.rows.map
      UserSession.id := by
      rw [List.map_map]
      exact List.map_congr_left fun session _ => keeps session
    rw [same]
    exact sessions.unique
  drawn := by
    intro session member
    obtain ⟨before, earlier, rfl⟩ := List.mem_map.mp member
    rw [keeps]
    exact sessions.drawn before earlier

/-- Set `last_used_at` of a session. -/
def slide (sessions : Sessions) (id : Nat) (now : Time) : Sessions :=
  sessions.change
    (fun session => if session.id = id then { session with lastUsedAt := now } else session)
    (by intro session; split <;> rfl)

/-- `revoke_user_sessions`. -/
def revoke (sessions : Sessions) (user : UserId) (now : Time) : Sessions :=
  sessions.change
    (fun session =>
      if session.userId = user ∧ session.revokedAt = none then
        { session with revokedAt := some now }
      else session)
    (by intro session; split <;> rfl)

/-- `start_session`. -/
def start (sessions : Sessions) (user : UserId) (now expiresAt : Time)
    (deviceName : Option String) : Sessions where
  rows := sessions.rows ++ [⟨sessions.next, user, now, now, expiresAt, none, deviceName⟩]
  next := sessions.next + 1
  unique := by
    rw [List.map_append, List.map_singleton, ← List.concat_eq_append]
    apply sessions.unique.concat
    intro member
    obtain ⟨session, present, same⟩ := List.mem_map.mp member
    exact absurd same (Nat.ne_of_lt (sessions.drawn session present))
  drawn := by
    intro session member
    rcases List.mem_append.mp member with earlier | added
    · exact Nat.lt_succ_of_lt (sessions.drawn session earlier)
    · rw [List.mem_singleton.mp added]
      exact Nat.lt_succ_self _

/-- Only the sessions that are kept. -/
def sweep (sessions : Sessions) (keep : UserSession → Bool) : Sessions where
  rows := sessions.rows.filter keep
  next := sessions.next
  unique := sessions.unique.sublist (List.filter_sublist.map _)
  drawn := fun session member => sessions.drawn session (List.mem_filter.mp member).1

end Sessions

@[ext] structure Rows where
  now : Time
  users : List User
  sessions : Sessions
  verifications : List AuthToken
  resets : List AuthToken
  changes : List EmailChangeToken
  dashboards : List Dashboard
  invites : List DashboardInvite
  shares : List ShareRow
  nextShareId : Nat

/-- Time passing. -/
def Rows.elapse (rows : Rows) (span : Nat) : Rows := { rows with now := rows.now + span }

structure Settings where
  sessionIdle : Time
  sessionAbsolute : Time
  commonPassword : String → Bool
  /-- The `lower` of the index on addresses. -/
  lower : String → String

/-! ## The reaper -/

/-- The row can still be redeemed, or could until now. -/
def unexpired (now expiresAt : Time) : Bool := !decide (expiresAt < now)

/-- Neither clock of the session has run out. -/
def inUse (settings : Settings) (now : Time) (session : UserSession) : Bool :=
  !(decide (session.expiresAt < now) || decide (session.lastUsedAt < now - settings.sessionIdle))

/-- `reap_expired_auth_rows`. -/
def reapExpiredAuthRows (settings : Settings) (rows : Rows) : Rows :=
  { rows with
    verifications := rows.verifications.filter fun token => unexpired rows.now token.expiresAt
    resets := rows.resets.filter fun token => unexpired rows.now token.expiresAt
    changes := rows.changes.filter fun token => unexpired rows.now token.expiresAt
    invites := rows.invites.filter fun invite => unexpired rows.now invite.expiresAt
    sessions := rows.sessions.sweep (inUse settings rows.now) }

/-! ## Authenticating, one request after the other

Resolving sessions, verifying an address, resetting a password, confirming a change of
address, and previewing and redeeming invites, each as its answer and the rows it leaves.
A request that fails leaves what it committed before, which is the slid clock of its
session. `pause` is how long a request takes between two readings of the clock.
-/

variable (settings : Settings)

/-- What a request answers. -/
inductive Reply
  | context (session : UserSession) (user : User)
  | live (answer : Bool)
  | verified (user : User) (session : Nat)
  | noContent
  | preview (dashboardName invitedBy : String) (role : ShareRole)
  | accepted (dashboardId : Nat) (dashboardName : String) (role : EffectiveRole)
  | elapsed
  deriving DecidableEq

abbrev Outcome := Except Failure Reply

/-! ## Sessions -/

/-- `_live`. -/
def UserSession.live (now : Time) (session : UserSession) : Bool :=
  session.revokedAt.isNone && decide (session.expiresAt > now) &&
    decide (session.lastUsedAt > now - settings.sessionIdle)

def liveUser (id : UserId) (rows : Rows) : Option User :=
  rows.users.find? fun user => user.id == id && user.deletedAt.isNone

/-- `resolve_session`. -/
def resolveSession (token : Nat) (rows : Rows) : Option (UserSession × User) :=
  match rows.sessions.rows.find? fun session =>
      session.id == token && session.live settings rows.now with
  | none => none
  | some session => (liveUser session.userId rows).map fun user => (session, user)

/-- `slide_idle_clock`, with the session as it is from then on. -/
def slideIdleClock (session : UserSession) (rows : Rows) : UserSession × Rows :=
  if rows.now - session.lastUsedAt < 60000000 then (session, rows)
  else
    ({ session with lastUsedAt := rows.now },
      { rows with sessions := rows.sessions.slide session.id rows.now })

/-- `_resolve_auth_context`. -/
def resolveAuthContext (token : Option Nat) (pause : Nat) (rows : Rows) :
    Except Failure (UserSession × User) × Rows :=
  match token with
  | none => (.error ⟨"session", "no_cookie", 401, "Not authenticated"⟩, rows)
  | some token =>
      match resolveSession settings token rows with
      | none => (.error ⟨"session", "not_resolvable", 401, "Session is no longer valid"⟩, rows)
      | some (session, user) =>
          let (session, rows) := slideIdleClock session (rows.elapse pause)
          (.ok (session, user), rows)

def resolve (token : Option Nat) (pause : Nat) (rows : Rows) : Outcome × Rows :=
  let (context, rows) := resolveAuthContext settings token pause rows
  (context.map fun (session, user) => .context session user, rows)

/-- `session_is_live`. -/
def sessionIsLive (id : Nat) (rows : Rows) : Bool :=
  (resolveSession settings id rows).isSome

/-! ## Mailed links -/

def verifyDetail : String := "Invalid or expired verification link"

/-- The links of a user that are not used are used now. -/
def AuthToken.void (user : UserId) (now : Time) (token : AuthToken) : AuthToken :=
  if token.userId = user ∧ token.usedAt = none then { token with usedAt := some now } else token

def EmailChangeToken.void (user : UserId) (now : Time) (token : EmailChangeToken) :
    EmailChangeToken :=
  if token.userId = user ∧ token.usedAt = none then { token with usedAt := some now } else token

/-- A user's row changes. -/
def Rows.changeUser (rows : Rows) (id : UserId) (change : User → User) : Rows :=
  { rows with users := rows.users.map fun user => if user.id = id then change user else user }

/-- `verify_email`. -/
def verifyEmail (token : Nat) (deviceName : Option String) (rows : Rows) : Outcome × Rows :=
  match rows.verifications.find? fun row => row.token == token &&
    decide (row.expiresAt > rows.now) with
  | none => (.error ⟨"email_verify", "invalid_token", 400, verifyDetail⟩, rows)
  | some row =>
      match liveUser row.userId rows with
      | none => (.error ⟨"email_verify", "unknown_user", 400, verifyDetail⟩, rows)
      | some user =>
          if user.emailVerifiedAt.isSome then
            (.error ⟨"email_verify", "already_verified", 409,
              "Email already verified. Please sign in."⟩, rows)
          else if row.usedAt.isSome then
            (.error ⟨"email_verify", "invalid_token", 400, verifyDetail⟩, rows)
          else
            (.ok (.verified { user with emailVerifiedAt := some rows.now } rows.sessions.next),
              { rows.changeUser user.id fun user =>
                  { user with emailVerifiedAt := some rows.now } with
                verifications := rows.verifications.map (.void user.id rows.now)
                sessions := rows.sessions.start user.id rows.now
                  (rows.now + settings.sessionAbsolute) deviceName })

/-- The reset token can be spent. -/
def spendable (token : Nat) (now : Time) (row : AuthToken) : Bool :=
  row.token == token && row.usedAt.isNone && decide (row.expiresAt > now)

/-- `reset_token_is_live`. -/
def resetTokenIsLive (token : Nat) (rows : Rows) : Bool :=
  (rows.resets.find? (spendable token rows.now)).isSome

/-- `consume_password_reset_token`, answering whose the token is. -/
def consumePasswordResetToken (token : Nat) (rows : Rows) : Option (UserId × Rows) :=
  match rows.resets.find? fun row => row.token == token with
  | none => none
  | some _ =>
      match rows.resets.find? (spendable token rows.now) with
      | none => none
      | some row =>
          some (row.userId, { rows with
            resets := rows.resets.map fun row =>
              if spendable token rows.now row then { row with usedAt := some rows.now } else row })

/-- `confirm_password_reset`. -/
def confirmPasswordReset (token : Nat) (newPassword : String) (rows : Rows) : Outcome × Rows :=
  if settings.commonPassword newPassword then (.error (unprocessable tooCommonDetail), rows)
  else
    match consumePasswordResetToken token rows with
    | none => (.error ⟨"password_reset", "invalid_token", 400, resetDetail⟩, rows)
    | some (id, spent) =>
        match liveUser id spent with
        | none => (.error ⟨"password_reset", "unknown_user", 400, resetDetail⟩, rows)
        | some user =>
            (.ok .noContent,
              { spent.changeUser user.id fun user => { user with password := some newPassword } with
                changes := spent.changes.map (.void user.id rows.now)
                sessions := spent.sessions.revoke user.id rows.now })

/-- The change token can be spent. -/
def confirmable (token : Nat) (now : Time) (row : EmailChangeToken) : Bool :=
  spendable token now row.toAuthToken

/-- Another account has the address. -/
def addressTaken (id : UserId) (email : String) (rows : Rows) : Bool :=
  rows.users.any fun user =>
    decide (user.id ≠ id) && settings.lower user.email == settings.lower email

/-- `confirm_own_email_change`. -/
def confirmOwnEmailChange (token : Nat) (rows : Rows) : Outcome × Rows :=
  let refused : Outcome × Rows :=
    (.error ⟨"email_change", "invalid_token", 400, emailChangeDetail⟩, rows)
  match rows.changes.find? (confirmable token rows.now) with
  | none => refused
  | some row =>
      match liveUser row.userId rows with
      | none => refused
      | some user =>
          if addressTaken settings user.id row.newEmail rows then refused
          else
            (.ok .noContent,
              { rows.changeUser user.id fun user => { user with email := row.newEmail } with
                resets := rows.resets.map (.void user.id rows.now)
                changes := rows.changes.map fun row =>
                  if confirmable token rows.now row then { row with usedAt := some rows.now }
                  else row })

/-! ## Invites -/

def inviteGone : Failure := ⟨"", "", 404, inviteDetail⟩

/-- `_is_live` for the invite of a code. -/
def redeemable (code : Nat) (now : Time) (invite : DashboardInvite) : Bool :=
  invite.code == code && invite.live now

/-- `load_live_invite`. -/
def loadLiveInvite (code : Nat) (rows : Rows) : Option DashboardInvite :=
  rows.invites.find? (redeemable code rows.now)

/-- The dashboard of an invite, unless it is in the trash. -/
def dashboardOf (invite : DashboardInvite) (rows : Rows) : Option Dashboard :=
  (rows.dashboards.find? fun dashboard => dashboard.id == invite.dashboardId).filter
    fun dashboard => dashboard.deletedAt.isNone

/-- `preview_invite`. -/
def previewInvite (code : Nat) (rows : Rows) : Outcome :=
  match loadLiveInvite code rows with
  | none => .error inviteGone
  | some invite =>
      match dashboardOf invite rows with
      | none => .error inviteGone
      | some dashboard =>
          let inviter := rows.users.find? fun user => user.id == invite.createdBy
          .ok (.preview dashboard.name (inviter.elim "Someone" User.displayName) invite.role)

/-- `consume_invite`. -/
def consumeInvite (code : Nat) (redeemedBy : UserId) (rows : Rows) : Option Rows :=
  match rows.invites.find? (redeemable code rows.now) with
  | none => none
  | some _ =>
      some { rows with
        invites := rows.invites.map fun invite =>
          if redeemable code rows.now invite then
            { invite with usedAt := some rows.now, redeemedBy := some redeemedBy }
          else invite }

/-- `create_share`'s upsert: the role of the row there is, or a new row. -/
def createShare (dashboard principal : Nat) (role : ShareRole) (grantedBy : Nat) (rows : Rows) :
    Rows :=
  if ∃ share ∈ rows.shares, share.dashboardId = dashboard ∧ share.principal = principal then
    { rows with
      shares := rows.shares.map fun share =>
        if share.dashboardId = dashboard ∧ share.principal = principal then { share with role }
        else share }
  else
    { rows with
      shares := rows.shares ++
        [{ id := rows.nextShareId, principal, role, grantedBy, dashboardId := dashboard }]
      nextShareId := rows.nextShareId + 1 }

/-- `accept_invite` once the caller is known. -/
def redeem (caller : UserId) (code pause : Nat) (rows : Rows) : Outcome × Rows :=
  match loadLiveInvite code rows with
  | none => (.error inviteGone, rows)
  | some invite =>
      match dashboardOf invite rows with
      | none => (.error inviteGone, rows)
      | some dashboard =>
          if dashboard.userId = caller then
            (.ok (.accepted dashboard.id dashboard.name .owner), rows)
          else
            let shares := rows.shares.filter fun share => share.dashboardId = dashboard.id
            match (heldRole caller (shares.map ShareRow.toResourceShare)).filter fun held =>
                isAtLeast held.effective invite.role.effective with
            | some held => (.ok (.accepted dashboard.id dashboard.name held.effective), rows)
            | none =>
                let later := rows.elapse pause
                match consumeInvite code caller later with
                | none => (.error inviteGone, later)
                | some taken =>
                    (.ok (.accepted dashboard.id dashboard.name invite.role.effective),
                      createShare dashboard.id caller invite.role invite.createdBy taken)

/-- `accept_invite`. -/
def acceptInvite (token : Option Nat) (code : Nat) (pauses : Nat × Nat) (rows : Rows) :
    Outcome × Rows :=
  match resolveAuthContext settings token pauses.1 rows with
  | (.error failure, rows) => (.error failure, rows)
  | (.ok (_, user), rows) => redeem user.id code pauses.2 rows

/-! ## Runs -/

inductive Request
  | resolve (token : Option Nat) (pause : Nat)
  | sessionIsLive (id : Nat)
  | verifyEmail (token : Nat) (deviceName : Option String)
  | checkPasswordResetToken (token : Nat)
  | confirmPasswordReset (token : Nat) (newPassword : String)
  | confirmOwnEmailChange (token : Nat)
  | previewInvite (code : Nat)
  | acceptInvite (token : Option Nat) (code : Nat) (pauses : Nat × Nat)
  | elapse (span : Nat)

/-- One request, or time passing. -/
def handle (rows : Rows) : Request → Outcome × Rows
  | .resolve token pause => resolve settings token pause rows
  | .sessionIsLive id => (.ok (.live (sessionIsLive settings id rows)), rows)
  | .verifyEmail token deviceName => verifyEmail settings token deviceName rows
  | .checkPasswordResetToken token => (.ok (.live (resetTokenIsLive token rows)), rows)
  | .confirmPasswordReset token newPassword => confirmPasswordReset settings token newPassword rows
  | .confirmOwnEmailChange token => confirmOwnEmailChange settings token rows
  | .previewInvite code => (previewInvite code rows, rows)
  | .acceptInvite token code pauses => acceptInvite settings token code pauses rows
  | .elapse span => (.ok .elapsed, rows.elapse span)

end FrontDashboard.Reaper
