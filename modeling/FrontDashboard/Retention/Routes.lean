import FrontDashboard.Auth.Routes

/-! # The sweep of abandoned signups

`reap_abandoned_signups`, `resend_verification_link` and `verify_email`, each as the
program of its database statements, beside whatever a verified account does.
-/

namespace FrontDashboard.Retention

open ReadCommitted ReadCommitted.Program
open Auth (Failure)

/-! ## Accounts, and the rows that go with them

The `users` table, the dashboards, the verification tokens, and the other tables as far
as their rows name a user or a dashboard. `removals`, `drawn` and `verifications` are no
columns: what sweeps have removed, the ids that dashboards have ever had, and the accounts
that have been verified, one after the other.
-/

/-- Microseconds. -/
abbrev Time := Int

abbrev UserId := Nat

abbrev DashboardId := Nat

abbrev TokenId := Nat

structure User where
  id : UserId
  email : String
  emailVerifiedAt : Option Time
  createdAt : Time
  deletedAt : Option Time
  deriving DecidableEq

structure Dashboard where
  id : DashboardId
  userId : UserId
  deriving DecidableEq

/-- A row of `email_verification_tokens`, by what its hash selects. -/
structure EmailVerificationToken where
  id : TokenId
  userId : UserId
  createdAt : Time
  expiresAt : Time
  usedAt : Option Time
  deriving DecidableEq

/-- A row of another table, by the users and the dashboards it names. A `content` is of
`lists`, `list_items`, `calendar_events` or the tables of overrides and participants. -/
inductive Row
  | share (resourceId : DashboardId) (principalId grantedBy : UserId)
  | notification (id : Nat) (userId : UserId)
  | activityEvent (id : Nat) (actorId : UserId)
  | invite (dashboardId : DashboardId) (createdBy : UserId)
  | session (id : Nat) (userId : UserId)
  | passwordReset (id : TokenId) (userId : UserId)
  | content (dashboardId : DashboardId) (users : List UserId)
  | widget (dashboardId : DashboardId)
  deriving DecidableEq

namespace Row

/-- The account that a session or a notification is of. -/
def account : Row → Option UserId
  | .notification _ user => some user
  | .session _ user => some user
  | _ => none

/-- The dashboard that the row goes with (`ON DELETE CASCADE`). -/
def goesWithDashboard : Row → Option DashboardId
  | .share dashboard _ _ => some dashboard
  | .invite dashboard _ => some dashboard
  | .widget dashboard => some dashboard
  | _ => none

/-- The user that the row goes with. -/
def goesWithUser : Row → Option UserId
  | .notification _ user => some user
  | .invite _ user => some user
  | .session _ user => some user
  | .passwordReset _ user => some user
  | _ => none

/-- The users that cannot go while the row is there. -/
def keepsUsers : Row → List UserId
  | .share _ principal grantedBy => [principal, grantedBy]
  | .content _ users => users
  | _ => []

/-- The dashboard that cannot go while the row is there. -/
def keepsDashboard : Row → Option DashboardId
  | .content dashboard _ => some dashboard
  | _ => none

end Row

inductive Removed
  | account (id : UserId)
  | dashboard (dashboard : Dashboard)
  | row (row : Row)
  deriving DecidableEq

/-- What a sweep has removed, and whether it was a verified account or of one. -/
structure Removal where
  removed : Removed
  ofVerified : Bool
  deriving DecidableEq

structure Rows where
  now : Time
  users : List User
  dashboards : List Dashboard
  tokens : List EmailVerificationToken
  rows : List Row
  drawn : List DashboardId
  removals : List Removal
  verifications : List UserId

/-- One row change: of a sweep, of a verification, or any other. A sweep deletes accounts
that it `selected` when so many had been verified. A transfer is of a dashboard that the
owner named still has. -/
inductive Write
  | sweepRows (gone : List Row)
  | sweepTokens (ids : List TokenId)
  | sweepDashboards (ids : List DashboardId)
  | sweepUsers (ids : List UserId) (selected : Nat)
  | insertToken (token : EmailVerificationToken)
  | useTokens (ids : List TokenId) (moment : Time)
  | verify (user : UserId) (moment : Time)
  | insertRow (row : Row)
  | deleteRow (row : Row)
  | insertDashboard (dashboard : Dashboard)
  | transferDashboard (id : DashboardId) (owner recipient : UserId)
  | deleteDashboard (id : DashboardId)
  | tombstone (user : UserId) (moment : Time)

def EmailVerificationToken.use (ids : List TokenId) (moment : Time)
    (token : EmailVerificationToken) : EmailVerificationToken :=
  if token.id ∈ ids then { token with usedAt := some moment } else token

def User.verify (id : UserId) (moment : Time) (user : User) : User :=
  if user.id = id then { user with emailVerifiedAt := some moment } else user

def User.tombstone (id : UserId) (moment : Time) (user : User) : User :=
  if user.id = id then { user with deletedAt := some moment } else user

def Dashboard.transfer (id : DashboardId) (owner recipient : UserId) (dashboard : Dashboard) :
    Dashboard :=
  if dashboard.id = id ∧ dashboard.userId = owner then { dashboard with userId := recipient }
  else dashboard

namespace Rows

variable (rows : Rows)

/-- The account's email is verified. -/
def verified (id : UserId) : Bool :=
  rows.users.any fun user => user.id = id && user.emailVerifiedAt.isSome

/-- The removal of a row. -/
def removal (row : Row) : Removal := ⟨.row row, row.account.any rows.verified⟩

/-- The rows without some dashboards, and without what goes with these. -/
def withoutDashboards (ids : List DashboardId) : Rows :=
  { rows with
    dashboards := rows.dashboards.filter fun dashboard => dashboard.id ∉ ids
    rows := rows.rows.filter fun row => !row.goesWithDashboard.any (· ∈ ids) }

def perform : Write → Rows
  | .sweepRows gone =>
      { rows with
        rows := rows.rows.filter (· ∉ gone)
        removals := rows.removals ++ (rows.rows.filter (· ∈ gone)).map rows.removal }
  | .sweepTokens ids => { rows with tokens := rows.tokens.filter fun token => token.id ∉ ids }
  | .sweepDashboards ids =>
      { rows.withoutDashboards ids with
        removals := rows.removals ++
          (rows.dashboards.filter fun dashboard => dashboard.id ∈ ids).map fun dashboard =>
            ⟨.dashboard dashboard, rows.verified dashboard.userId⟩ }
  | .sweepUsers ids _ =>
      { rows with
        users := rows.users.filter fun user => user.id ∉ ids
        tokens := rows.tokens.filter fun token => token.userId ∉ ids
        rows := rows.rows.filter fun row => !row.goesWithUser.any (· ∈ ids)
        removals := rows.removals ++
          (rows.rows.filter fun row => row.goesWithUser.any (· ∈ ids)).map rows.removal ++
          (rows.users.filter fun user => user.id ∈ ids).map fun user =>
            ⟨.account user.id, user.emailVerifiedAt.isSome⟩ }
  | .insertToken token => { rows with tokens := rows.tokens ++ [token] }
  | .useTokens ids moment => { rows with tokens := rows.tokens.map (.use ids moment) }
  | .verify user moment =>
      { rows with
        users := rows.users.map (.verify user moment)
        verifications := rows.verifications ++ [user] }
  | .insertRow row => { rows with rows := rows.rows ++ [row] }
  | .deleteRow row => { rows with rows := rows.rows.filter (· ≠ row) }
  | .insertDashboard dashboard =>
      if dashboard.id ∈ rows.drawn then rows
      else { rows with
        dashboards := rows.dashboards ++ [dashboard], drawn := dashboard.id :: rows.drawn }
  | .transferDashboard id owner recipient =>
      { rows with dashboards := rows.dashboards.map (.transfer id owner recipient) }
  | .deleteDashboard id => rows.withoutDashboards [id]
  | .tombstone user moment => { rows with users := rows.users.map (.tombstone user moment) }

/-- Time passing. -/
def elapse (span : Nat) : Rows := { rows with now := rows.now + span }

end Rows

/-! ## The requests and their locks -/

/-- The sweep's advisory lock, the lock namespace of accounts, and the locks of rows. -/
inductive Lock
  | reaper
  | account (id : UserId)
  | user (id : UserId)
  | dashboard (id : DashboardId)
  deriving DecidableEq

abbrev Handler := Program Rows Write Lock Failure

structure Settings where
  unverifiedRetention : Time
  emailVerificationShipped : Time
  emailVerificationExpire : Time
  resendCooldown : Time

variable (settings : Settings)

/-! ## The sweep -/

/-- `disqualifying`: the user is named by a row that the sweep leaves, or owns a dashboard
with a widget. -/
def disqualified (rows : Rows) (user : UserId) : Bool :=
  (rows.rows.any fun row =>
    match row with
    | .content _ users => user ∈ users
    | .share _ _ grantedBy => grantedBy = user
    | _ => false) ||
  rows.dashboards.any fun dashboard =>
    dashboard.userId = user && rows.rows.any fun row =>
      match row with
      | .widget dashboardId => dashboardId = dashboard.id
      | _ => false

/-- `eligible`. -/
def eligible (cutoff : Time) (user : User) : Bool :=
  user.emailVerifiedAt.isNone && user.createdAt < cutoff &&
    settings.emailVerificationShipped ≤ user.createdAt

def candidateIds (cutoff : Time) (rows : Rows) : List UserId :=
  (rows.users.filter fun user => eligible settings cutoff user && !disqualified rows user.id).map
    (·.id)

/-- The user that a row of one table is deleted with. -/
def shareOf : Row → Option UserId
  | .share _ principal _ => some principal
  | _ => none

def notificationOf : Row → Option UserId
  | .notification _ user => some user
  | _ => none

def activityEventOf : Row → Option UserId
  | .activityEvent _ actor => some actor
  | _ => none

def inviteOf : Row → Option UserId
  | .invite _ createdBy => some createdBy
  | _ => none

def sessionOf : Row → Option UserId
  | .session _ user => some user
  | _ => none

def passwordResetOf : Row → Option UserId
  | .passwordReset _ user => some user
  | _ => none

/-- The `DELETE`s of some tables, one after the other. -/
def sweepTables (candidates : List UserId) : List (Row → Option UserId) → Handler Unit
  | [] => pure ()
  | table :: rest => do
      update fun rows => [.sweepRows (rows.rows.filter fun row => (table row).any (· ∈ candidates))]
      sweepTables candidates rest

/-- An error of the database that no handler catches. -/
def integrityError : Failure := ⟨"", "", 500, "Internal Server Error"⟩

/-- `reap_abandoned_signups`, in the transaction of `run_reaper_once`. -/
def reapAbandonedSignups : Handler Unit := do
  acquire .reaper
  let now ← query (·.now)
  let (candidates, selected) ← query fun rows =>
    (candidateIds settings (now - settings.unverifiedRetention) rows, rows.verifications.length)
  if candidates = [] then commitTransaction
  else do
    sweepTables candidates [shareOf, notificationOf, activityEventOf, inviteOf, sessionOf]
    update fun rows =>
      [.sweepTokens ((rows.tokens.filter fun token => token.userId ∈ candidates).map (·.id))]
    sweepTables candidates [passwordResetOf]
    let doomed ← query fun rows =>
      (rows.dashboards.filter fun dashboard => dashboard.userId ∈ candidates).map (·.id)
    acquireAll (doomed.map .dashboard)
    let filled ← updateReturning (fun _ => [.sweepDashboards doomed]) fun rows =>
      rows.rows.any fun row => row.keepsDashboard.any (· ∈ doomed)
    if filled then raise integrityError
    else do
      acquireAll (candidates.map .user)
      let named ← updateReturning (fun _ => [.sweepUsers candidates selected]) fun rows =>
        (rows.rows.any fun row => row.keepsUsers.any (· ∈ candidates)) ||
          rows.dashboards.any fun dashboard => dashboard.userId ∈ candidates
      if named then raise integrityError else commitTransaction

/-! ## Verification -/

/-- `accounts.lock_live_user`. -/
def lockLiveUser (id : UserId) : Handler (Option User) := do
  acquire (.account id)
  query fun rows => rows.users.find? fun user => user.id = id && user.deletedAt.isNone

/-- `resend_verification_link`, with the token that it mints. -/
def resendVerificationLink (email : String) (token : TokenId) : Handler Unit := do
  match ← query fun rows => rows.users.find? fun user =>
      user.email = email && user.deletedAt.isNone with
  | none => pure ()
  | some found => do
    match ← lockLiveUser found.id with
    | none => pure ()
    | some user =>
      if user.emailVerifiedAt.isSome then pure ()
      else do
        let recent ← query fun rows => rows.tokens.any fun row =>
          row.userId = user.id && row.createdAt > rows.now - settings.resendCooldown
        if recent then pure ()
        else do
          let there ← updateReturning
            (fun rows => [.insertToken
              ⟨token, user.id, rows.now, rows.now + settings.emailVerificationExpire, none⟩])
            fun rows => rows.users.any fun row => row.id = user.id
          if !there then raise integrityError else commitTransaction

def verifyDetail : String := "Invalid or expired verification link"

/-- `verify_email`, with the session that it starts. -/
def verifyEmail (token : TokenId) (session : Nat) : Handler Unit := do
  let now ← query (·.now)
  match ← query fun rows => rows.tokens.find? fun row => row.id = token && row.expiresAt > now with
  | none => raise ⟨"email_verify", "invalid_token", 400, verifyDetail⟩
  | some token => do
    match ← lockLiveUser token.userId with
    | none => raise ⟨"email_verify", "unknown_user", 400, verifyDetail⟩
    | some user =>
      if user.emailVerifiedAt.isSome then
        raise ⟨"email_verify", "already_verified", 409, "Email already verified. Please sign in."⟩
      else if token.usedAt.isSome then
        raise ⟨"email_verify", "invalid_token", 400, verifyDetail⟩
      else do
        update fun rows => [.useTokens ((rows.tokens.filter fun row =>
          row.userId = user.id && row.usedAt.isNone).map (·.id)) now]
        acquire (.user user.id)
        let there ← updateReturning
          (fun _ => [.verify user.id now, .insertRow (.session session user.id)])
          fun rows => rows.users.any fun row => row.id = user.id
        if !there then raise integrityError else commitTransaction

/-! ## The service -/

/-- What an account writes that neither verifies nor sweeps: rows of any kind, and
transfers of its own dashboards. -/
def Write.Everyday (caller : UserId) : Write → Prop
  | .insertRow _ => True
  | .deleteRow _ => True
  | .insertDashboard _ => True
  | .transferDashboard _ owner _ => owner = caller
  | .deleteDashboard _ => True
  | .tombstone _ _ => True
  | _ => False

inductive Request
  | reapAbandonedSignups
  | resendVerification (email : String) (token : TokenId)
  | verifyEmail (token : TokenId) (session : Nat)
  | act (caller : UserId) (program : Handler Unit)
      (everyday : program.Writes (Write.Everyday caller))

/-- The requests of an account reach their code once its email is verified. -/
def act (caller : UserId) (program : Handler Unit) : Handler Unit := do
  let verified ← query fun rows => rows.verified caller
  if !verified then raise ⟨"session", "unverified_email", 403, "Email verification required"⟩
  else program

def handler : Request → Handler Unit
  | .reapAbandonedSignups => reapAbandonedSignups settings
  | .resendVerification email token => resendVerificationLink settings email token
  | .verifyEmail token session => verifyEmail token session
  | .act caller program _ => act caller program

/-- Any accounts, of which no sweep has removed anything yet, and time that passes. -/
structure Rows.Initial (rows : Rows) : Prop where
  unswept : rows.removals = []
  userIds : (rows.users.map (·.id)).Nodup
  dashboardIds : (rows.dashboards.map (·.id)).Nodup
  drawn : ∀ dashboard ∈ rows.dashboards, dashboard.id ∈ rows.drawn

def service : Service Rows Write Lock Failure Unit Request Nat where
  perform := Rows.perform
  handler := fun _ => handler settings
  environment := Rows.elapse
  Initial := Rows.Initial

end FrontDashboard.Retention
