import FrontDashboard.Auth.Account

/-! # The authentication routes

`login`, `change_password`, `confirm_password_reset`, `request_email_change` and
`confirm_own_email_change`, each as the program of its database statements.
-/

namespace FrontDashboard.Auth

open ReadCommitted ReadCommitted.Program

/-- The lock namespace of accounts, of which one account uses one key. -/
inductive AccountLock
  | account
  deriving DecidableEq

/-- A rejected request: the operation and reason counted by `auth_failure` when
it is an authentication failure, the status code and the detail. -/
structure Failure where
  operation : String
  reason : String
  statusCode : Nat
  detail : String
  deriving DecidableEq, Repr

abbrev Handler := Program Rows Write AccountLock Failure

def resetDetail : String := "Invalid or expired reset link"

def emailChangeDetail : String := "Invalid or expired confirmation link"

def tooCommonDetail : String :=
  "That password appears on public lists of breached passwords. Please choose a different one."

def disposableDetail : String :=
  "Disposable email addresses can't be used. Please use a permanent address."

/-- An `HTTPException` that is not an authentication failure. -/
def unprocessable (detail : String) : Failure := ⟨"", "", 422, detail⟩

/-- `accounts.lock_live_user`: the lock first, then the row as it is by then. -/
def lockLiveUser : Handler (Option User) := do
  acquire .account
  query fun rows => if rows.user.deletedAt.isNone then some rows.user else none

/-- `_lock_own_account`, with the re-read row. -/
def lockOwnAccount : Handler User := do
  match ← lockLiveUser with
  | none => raise ⟨"session", "not_resolvable", 401, "Session is no longer valid"⟩
  | some user => pure user

/-- `slide_idle_clock` and the commit of its caller. -/
def slideIdleClock (session : UserSession) : Handler Unit := do
  let now ← query (·.now)
  if now - session.lastUsedAt < 60000000 then pure ()
  else do
    update fun _ => [.slideSession session.id now]
    commitTransaction

/-- `_resolve_auth_context`. -/
def resolveAuthContext (settings : Settings) (token : Option SessionId) :
    Handler (UserSession × User) :=
  match token with
  | none => raise ⟨"session", "no_cookie", 401, "Not authenticated"⟩
  | some token => do
    match ← query (resolveSession settings token) with
    | none => raise ⟨"session", "not_resolvable", 401, "Session is no longer valid"⟩
    | some (session, user) => do
      slideIdleClock session
      pure (session, user)

/-- `_create_session`. -/
def createSession (settings : Settings) (process : ProcessId) (user : User) : Handler Unit :=
  if user.emailVerifiedAt.isNone then
    raise ⟨"session", "unverified_email", 403, "Email verification required"⟩
  else update (startSession settings process user)

/-- `login`. An address that is not this account's finds no row here. -/
def login (settings : Settings) (process : ProcessId) (email password : String) :
    Handler Unit := do
  let found ← query fun rows =>
    if rows.user.email = email ∧ rows.user.deletedAt.isNone then some rows.user else none
  match found with
  | none => raise ⟨"login", "unknown_user", 401, "Invalid credentials"⟩
  | some user =>
    if !verifyPassword password user.passwordHash then
      raise ⟨"login", "bad_password", 401, "Invalid credentials"⟩
    else if user.emailVerifiedAt.isNone then
      raise ⟨"login", "unverified_email", 403, "Email verification required"⟩
    else do
      createSession settings process user
      commitTransaction

/-- The statements with which both password routes end. -/
def replacePassword (user : User) (newPassword : String) (spared : Option SessionId) :
    Handler Unit := do
  update voidEmailChanges
  update fun _ => [.setPasswordHash (hashPassword newPassword user.passwordHash) spared]
  update (revokeUserSessions spared)
  commitTransaction

/-- `change_password`. -/
def changePassword (settings : Settings) (token : Option SessionId)
    (currentPassword newPassword : String) : Handler Unit := do
  let (session, _) ← resolveAuthContext settings token
  let user ← lockOwnAccount
  if !verifyPassword currentPassword user.passwordHash then
    raise ⟨"password_change", "bad_password", 403, "Current password is incorrect"⟩
  else if currentPassword = newPassword then
    raise (unprocessable "New password must be different from the current password")
  else if settings.commonPassword newPassword then raise (unprocessable tooCommonDetail)
  else replacePassword user newPassword (some session.id)

/-- The reset token the link names, while it can be spent. -/
def spendableReset (token : TokenId) (now : Time) (rows : Rows) : List TokenId :=
  (rows.passwordResetTokens.filter fun row => row.id == token && row.live now).map (·.id)

/-- `consume_password_reset_token`, answering whether it spent the token. -/
def consumePasswordResetToken (token : TokenId) : Handler Bool := do
  let now ← query (·.now)
  let known ← query fun rows => rows.passwordResetTokens.any (·.id == token)
  if !known then pure false
  else do
    let _ ← lockLiveUser
    updateReturning (fun rows => [.spendPasswordResetTokens (spendableReset token now rows) now])
      fun rows => !(spendableReset token now rows).isEmpty

/-- `confirm_password_reset`. -/
def confirmPasswordReset (settings : Settings) (token : TokenId) (newPassword : String) :
    Handler Unit := do
  if settings.commonPassword newPassword then raise (unprocessable tooCommonDetail)
  else do
    let spent ← consumePasswordResetToken token
    if !spent then raise ⟨"password_reset", "invalid_token", 400, resetDetail⟩
    else do
      match ← query fun rows => if rows.user.deletedAt.isNone then some rows.user else none with
      | none => raise ⟨"password_reset", "unknown_user", 400, resetDetail⟩
      | some user => replacePassword user newPassword none

/-- `request_email_change`. Whether the address is taken changes only the mail
that is sent. -/
def requestEmailChange (settings : Settings) (process : ProcessId) (token : Option SessionId)
    (newEmail password : String) : Handler Unit := do
  let _ ← resolveAuthContext settings token
  if settings.disposableEmail newEmail then raise (unprocessable disposableDetail)
  else do
    let user ← lockOwnAccount
    if !verifyPassword password user.passwordHash then
      raise ⟨"email_change", "bad_password", 403, "Password is incorrect"⟩
    else do
      update (issueEmailChangeToken settings process user newEmail)
      commitTransaction

/-- The change tokens a link names, while they can be spent. -/
def spendableChange (token : TokenId) (now : Time) (rows : Rows) : List EmailChangeToken :=
  rows.emailChangeTokens.filter fun row => row.id == token && row.live now

/-- `confirm_own_email_change` with `email_change.confirm_email_change`. -/
def confirmOwnEmailChange (token : TokenId) : Handler Unit := do
  let refused : Failure := ⟨"email_change", "invalid_token", 400, emailChangeDetail⟩
  let now ← query (·.now)
  let named ← query fun rows => !(spendableChange token now rows).isEmpty
  if !named then raise refused
  else do
    match ← lockLiveUser with
    | none => raise refused
    | some _ => do
      update fun rows =>
        [.spendPasswordResetTokens
          ((rows.passwordResetTokens.filter fun row => row.usedAt.isNone).map (·.id)) now]
      let spent ← updateReturning
        (fun rows => [.spendEmailChangeTokens ((spendableChange token now rows).map (·.id)) now])
        fun rows => (spendableChange token now rows).head?
      match spent with
      | none => raise refused
      | some change => do
        let taken ← query fun rows => rows.otherEmails.contains change.newEmail
        if taken then raise refused
        else do
          let live ← updateReturning
            (fun rows => if rows.user.deletedAt.isNone then [.setEmail change.newEmail] else [])
            fun rows => rows.user.deletedAt.isNone
          if !live then raise refused else commitTransaction

/-- The requests of the five routes. -/
inductive Request
  | login (email password : String)
  | changePassword (token : Option SessionId) (currentPassword newPassword : String)
  | confirmPasswordReset (token : TokenId) (newPassword : String)
  | requestEmailChange (token : Option SessionId) (newEmail password : String)
  | confirmOwnEmailChange (token : TokenId)

def handler (settings : Settings) (process : ProcessId) : Request → Handler Unit
  | .login email password => login settings process email password
  | .changePassword token currentPassword newPassword =>
      changePassword settings token currentPassword newPassword
  | .confirmPasswordReset token newPassword => confirmPasswordReset settings token newPassword
  | .requestEmailChange token newEmail password =>
      requestEmailChange settings process token newEmail password
  | .confirmOwnEmailChange token => confirmOwnEmailChange token

/-- The account's routes as a service: it starts with any rows on which no
password write has been recorded yet, and time passes outside the requests. -/
def service (settings : Settings) :
    Service Rows Write AccountLock Failure Unit Request Nat where
  perform := Rows.perform
  handler := handler settings
  environment := Rows.elapse
  Initial := fun rows => rows.passwordWrites = []

end FrontDashboard.Auth
