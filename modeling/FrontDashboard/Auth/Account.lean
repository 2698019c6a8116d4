import FrontDashboard.Library.ReadCommitted

/-! # The rows of one account

The `users` row of one account with its sessions, its email-change tokens and
its password-reset tokens, and the writes the authentication routes make to
them. Raw tokens occur only through the row their hash selects, so presenting a
token is naming its row; each row is named by the request that minted it.

Three fields record history and influence no statement: the `generation` of a
password hash counts the password writes up to the one that stored it, `checked`
is the hash against which the password was verified when a session or an
email-change token was minted, and `passwordWrites` lists the committed password
writes.
-/

namespace FrontDashboard.Auth

open ReadCommitted

/-- Microseconds. -/
abbrev Time := Int

abbrev SessionId := ProcessId

abbrev TokenId := ProcessId

/-- An Argon2 hash: what it verifies, and which password write stored it. -/
structure PasswordHash where
  password : String
  generation : Nat
  deriving DecidableEq, Repr

def verifyPassword (password : String) (hashed : PasswordHash) : Bool :=
  password == hashed.password

/-- The hash that replaces `current`. -/
def hashPassword (password : String) (current : PasswordHash) : PasswordHash :=
  ⟨password, current.generation + 1⟩

structure User where
  email : String
  passwordHash : PasswordHash
  emailVerifiedAt : Option Time
  deletedAt : Option Time
  deriving DecidableEq, Repr

structure UserSession where
  id : SessionId
  lastUsedAt : Time
  expiresAt : Time
  revokedAt : Option Time
  checked : PasswordHash
  deriving DecidableEq, Repr

structure EmailChangeToken where
  id : TokenId
  newEmail : String
  expiresAt : Time
  usedAt : Option Time
  checked : PasswordHash
  deriving DecidableEq, Repr

structure PasswordResetToken where
  id : TokenId
  expiresAt : Time
  usedAt : Option Time
  deriving DecidableEq, Repr

/-- A password write, by the generation of its hash and the session it kept. -/
structure PasswordWrite where
  generation : Nat
  spared : Option SessionId
  deriving DecidableEq, Repr

/-- The account's rows, the addresses other accounts hold, and the clock. -/
structure Rows where
  now : Time
  user : User
  otherEmails : List String
  sessions : List UserSession
  emailChangeTokens : List EmailChangeToken
  passwordResetTokens : List PasswordResetToken
  passwordWrites : List PasswordWrite

/-- The configured spans and the screening lists. -/
structure Settings where
  sessionIdle : Time
  sessionAbsolute : Time
  emailChangeExpire : Time
  commonPassword : String → Bool
  disposableEmail : String → Bool

/-- One row change. `revokeSessions` also carries how many session rows its
statement saw. -/
inductive Write
  | insertSession (session : UserSession)
  | slideSession (id : SessionId) (moment : Time)
  | revokeSessions (ids : List SessionId) (moment : Time) (seen : Nat)
  | setPasswordHash (hash : PasswordHash) (spared : Option SessionId)
  | setEmail (email : String)
  | insertEmailChangeToken (token : EmailChangeToken)
  | spendEmailChangeTokens (ids : List TokenId) (moment : Time)
  | spendPasswordResetTokens (ids : List TokenId) (moment : Time)

def UserSession.slide (id : SessionId) (moment : Time) (session : UserSession) : UserSession :=
  if session.id = id then { session with lastUsedAt := moment } else session

def UserSession.revoke (ids : List SessionId) (moment : Time) (session : UserSession) :
    UserSession :=
  if session.id ∈ ids then { session with revokedAt := some moment } else session

def EmailChangeToken.spend (ids : List TokenId) (moment : Time) (token : EmailChangeToken) :
    EmailChangeToken :=
  if token.id ∈ ids then { token with usedAt := some moment } else token

def PasswordResetToken.spend (ids : List TokenId) (moment : Time) (token : PasswordResetToken) :
    PasswordResetToken :=
  if token.id ∈ ids then { token with usedAt := some moment } else token

def Rows.perform (rows : Rows) : Write → Rows
  | .insertSession session => { rows with sessions := rows.sessions ++ [session] }
  | .slideSession id moment => { rows with sessions := rows.sessions.map (.slide id moment) }
  | .revokeSessions ids moment _ => { rows with sessions := rows.sessions.map (.revoke ids moment) }
  | .setPasswordHash hash spared =>
      { rows with
        user := { rows.user with passwordHash := hash }
        passwordWrites := rows.passwordWrites ++ [⟨hash.generation, spared⟩] }
  | .setEmail email => { rows with user := { rows.user with email := email } }
  | .insertEmailChangeToken token =>
      { rows with emailChangeTokens := rows.emailChangeTokens ++ [token] }
  | .spendEmailChangeTokens ids moment =>
      { rows with emailChangeTokens := rows.emailChangeTokens.map (.spend ids moment) }
  | .spendPasswordResetTokens ids moment =>
      { rows with passwordResetTokens := rows.passwordResetTokens.map (.spend ids moment) }

/-- Time passing. -/
def Rows.elapse (rows : Rows) (span : Nat) : Rows := { rows with now := rows.now + span }

/-! ## What the statements select -/

/-- `sessions._live`: the one definition of a session that can still
authenticate. -/
def UserSession.live (settings : Settings) (now : Time) (session : UserSession) : Bool :=
  session.revokedAt.isNone && session.expiresAt > now &&
    session.lastUsedAt > now - settings.sessionIdle

def EmailChangeToken.live (now : Time) (token : EmailChangeToken) : Bool :=
  token.usedAt.isNone && token.expiresAt > now

def PasswordResetToken.live (now : Time) (token : PasswordResetToken) : Bool :=
  token.usedAt.isNone && token.expiresAt > now

/-- `resolve_session`: the session a cookie names, with its user. -/
def resolveSession (settings : Settings) (token : SessionId) (rows : Rows) :
    Option (UserSession × User) :=
  match rows.sessions.find? fun session => session.id == token &&
    session.live settings rows.now with
  | some session => if rows.user.deletedAt.isNone then some (session, rows.user) else none
  | none => none

/-- `void_email_changes`. -/
def voidEmailChanges (rows : Rows) : List Write :=
  [.spendEmailChangeTokens
    ((rows.emailChangeTokens.filter fun token => token.usedAt.isNone).map (·.id)) rows.now]

/-- The sessions `revoke_user_sessions` updates: every unrevoked one, but for the
one spared. -/
def unrevokedSessions (spared : Option SessionId) (rows : Rows) : List SessionId :=
  (rows.sessions.filter fun session =>
    session.revokedAt.isNone && some session.id != spared).map (·.id)

/-- `revoke_user_sessions`. -/
def revokeUserSessions (spared : Option SessionId) (rows : Rows) : List Write :=
  [.revokeSessions (unrevokedSessions spared rows) rows.now rows.sessions.length]

/-- `issue_token` for an email change: supersede every unused token and mint one. -/
def issueEmailChangeToken (settings : Settings) (process : ProcessId) (user : User)
    (newEmail : String) (rows : Rows) : List Write :=
  voidEmailChanges rows ++
    [.insertEmailChangeToken
      { id := process, newEmail := newEmail, expiresAt := rows.now + settings.emailChangeExpire,
        usedAt := none, checked := user.passwordHash }]

/-- `start_session`. -/
def startSession (settings : Settings) (process : ProcessId) (user : User) (rows : Rows) :
    List Write :=
  [.insertSession
    { id := process, lastUsedAt := rows.now, expiresAt := rows.now + settings.sessionAbsolute,
      revokedAt := none, checked := user.passwordHash }]

end FrontDashboard.Auth
