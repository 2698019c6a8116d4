import FrontDashboard.Auth.Routes

/-! # Email verification

The `users` row of one account with its verification links and the sessions that redeeming
these started; `verify_email`, `resend_verification_link` and, as far as it touches these
rows, `delete_account`, each as the program of its database statements. A raw token occurs
only through the row that its hash selects, so presenting a link is naming its row.

No statement reads `history`: the links issued and the sessions started, in the order of
their commits.
-/

namespace FrontDashboard.Verification

open ReadCommitted ReadCommitted.Program
open Auth (AccountLock Failure SessionId Time)

abbrev TokenId := Nat

structure User where
  email : String
  emailVerifiedAt : Option Time
  deletedAt : Option Time
  deriving DecidableEq

structure EmailVerificationToken where
  id : TokenId
  createdAt : Time
  expiresAt : Time
  usedAt : Option Time
  deriving DecidableEq

structure UserSession where
  id : SessionId
  lastUsedAt : Time
  expiresAt : Time
  deriving DecidableEq

inductive Event
  | issued (token : TokenId)
  | started (session : SessionId)
  deriving DecidableEq

structure Rows where
  now : Time
  user : User
  tokens : List EmailVerificationToken
  sessions : List UserSession
  history : List Event

inductive Write
  | insertToken (token : EmailVerificationToken)
  | spendTokens (ids : List TokenId) (moment : Time)
  | verify (moment : Time)
  | insertSession (session : UserSession)
  | deleteTokens
  | tombstone (moment : Time)

def EmailVerificationToken.spend (ids : List TokenId) (moment : Time)
    (token : EmailVerificationToken) : EmailVerificationToken :=
  if token.id ∈ ids then { token with usedAt := some moment } else token

def Rows.perform (rows : Rows) : Write → Rows
  | .insertToken token =>
      { rows with tokens := rows.tokens ++ [token], history := rows.history ++ [.issued token.id] }
  | .spendTokens ids moment => { rows with tokens := rows.tokens.map (.spend ids moment) }
  | .verify moment => { rows with user := { rows.user with emailVerifiedAt := some moment } }
  | .insertSession session =>
      { rows with
        sessions := rows.sessions ++ [session], history := rows.history ++ [.started session.id] }
  | .deleteTokens => { rows with tokens := [] }
  | .tombstone moment => { rows with user := { rows.user with deletedAt := some moment } }

/-- Time passes, or `reap_expired_auth_rows` sweeps. -/
inductive Outside
  | elapse (span : Nat)
  | reap

def Rows.outside (rows : Rows) : Outside → Rows
  | .elapse span => { rows with now := rows.now + span }
  | .reap => { rows with tokens := rows.tokens.filter fun token => !(token.expiresAt < rows.now) }

structure Settings where
  sessionAbsolute : Time
  emailVerificationExpire : Time
  resendCooldown : Time

variable (settings : Settings)

abbrev Handler := Program Rows Write AccountLock Failure

/-- `accounts.lock_live_user`: the lock first, then the row as it is by then. -/
def lockLiveUser : Handler (Option User) := do
  acquire .account
  query fun rows => if rows.user.deletedAt.isNone then some rows.user else none

def verifyDetail : String := "Invalid or expired verification link"

/-- `_create_session`, of the session that the request names. -/
def createSession (user : User) (session : SessionId) : Handler Unit :=
  if user.emailVerifiedAt.isNone then
    raise ⟨"session", "unverified_email", 403, "Email verification required"⟩
  else update fun rows =>
    [.insertSession ⟨session, rows.now, rows.now + settings.sessionAbsolute⟩]

/-- The tokens that a verification spends. -/
def unusedTokens (rows : Rows) : List TokenId :=
  (rows.tokens.filter fun token => token.usedAt.isNone).map (·.id)

/-- `verify_email`: the link is read before the lock, and not again under it. Its answer is
the session that its cookie carries. -/
def verifyEmail (token : TokenId) (session : SessionId) : Handler (Option SessionId) := do
  let now ← query (·.now)
  match ← query fun rows => rows.tokens.find? fun row => row.id = token && row.expiresAt > now with
  | none => raise ⟨"email_verify", "invalid_token", 400, verifyDetail⟩
  | some link => do
    match ← lockLiveUser with
    | none => raise ⟨"email_verify", "unknown_user", 400, verifyDetail⟩
    | some user =>
      if user.emailVerifiedAt.isSome then
        raise ⟨"email_verify", "already_verified", 409, "Email already verified. Please sign in."⟩
      else if link.usedAt.isSome then
        raise ⟨"email_verify", "invalid_token", 400, verifyDetail⟩
      else do
        update fun rows => [.spendTokens (unusedTokens rows) now]
        update fun _ => [.verify now]
        createSession settings { user with emailVerifiedAt := some now } session
        commitTransaction
        let _ ← query (·.user)
        pure (some session)

/-- `resend_verification_link`, with the token that it mints. The database's clock is that of
the transaction's start. -/
def resendVerificationLink (email : String) (token : TokenId) : Handler (Option SessionId) := do
  let begun ← query (·.now)
  let found ← query fun rows => rows.user.email = email && rows.user.deletedAt.isNone
  if !found then pure none
  else do
    match ← lockLiveUser with
    | none => pure none
    | some user =>
      if user.emailVerifiedAt.isSome then pure none
      else do
        let recent ← query fun rows =>
          rows.tokens.any fun row => row.createdAt > begun - settings.resendCooldown
        if recent then pure none
        else do
          update fun rows =>
            [.insertToken ⟨token, begun, rows.now + settings.emailVerificationExpire, none⟩]
          commitTransaction
          pure none

/-- `delete_account`, of these rows. -/
def deleteAccount : Handler (Option SessionId) := do
  match ← lockLiveUser with
  | none => pure none
  | some _ => do
    update fun _ => [.deleteTokens]
    update fun rows => [.tombstone rows.now]
    commitTransaction
    pure none

inductive Request
  | verifyEmail (token : TokenId)
  | resendVerification (email : String) (token : TokenId)
  | deleteAccount

/-- A request names the session it starts. -/
def handler (process : ProcessId) : Request → Handler (Option SessionId)
  | .verifyEmail token => verifyEmail settings token process
  | .resendVerification email token => resendVerificationLink settings email token
  | .deleteAccount => deleteAccount

/-- An account that is not verified, with any links. -/
structure Rows.Initial (rows : Rows) : Prop where
  unverified : rows.user.emailVerifiedAt = none
  sessions : rows.sessions = []
  history : rows.history = []

def service : Service Rows Write AccountLock Failure (Option SessionId) Request Outside where
  perform := Rows.perform
  handler := handler settings
  environment := Rows.outside
  Initial := Rows.Initial

end FrontDashboard.Verification
