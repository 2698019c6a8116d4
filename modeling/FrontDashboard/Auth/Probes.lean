import FrontDashboard.Auth.Routes

/-! # The authentication routes over all accounts

The routes under `/auth` that take an address, a mailed link or a session, each as one transaction
on the tables of all accounts, with its answer and the mail it sends. The work that some defer until
they have answered is done later, or never.
-/

namespace FrontDashboard.Probes

open Auth (Time disposableDetail emailChangeDetail resetDetail tooCommonDetail)

abbrev UserId := Nat

abbrev DashboardId := Nat

/-- A raw token, which occurs in a table only through its hash. -/
abbrev Token := Nat

/-! ## The tables -/

/-- `passwordHash` is what the hash verifies, if anything. -/
structure User where
  id : UserId
  email : String
  passwordHash : Option String
  displayName : String
  homeDashboardId : Option DashboardId
  emailVerifiedAt : Option Time
  deletedAt : Option Time
  deriving DecidableEq

structure UserSession where
  token : Token
  userId : UserId
  lastUsedAt : Time
  expiresAt : Time
  revokedAt : Option Time
  deriving DecidableEq

structure EmailVerificationToken where
  token : Token
  userId : UserId
  createdAt : Time
  expiresAt : Time
  usedAt : Option Time
  deriving DecidableEq

structure PasswordResetToken where
  token : Token
  userId : UserId
  expiresAt : Time
  usedAt : Option Time
  deriving DecidableEq

structure EmailChangeToken where
  token : Token
  userId : UserId
  newEmail : String
  expiresAt : Time
  usedAt : Option Time
  deriving DecidableEq

structure Tables where
  users : List User
  sessions : List UserSession
  emailVerificationTokens : List EmailVerificationToken
  passwordResetTokens : List PasswordResetToken
  emailChangeTokens : List EmailChangeToken
  deriving DecidableEq

/-- The configured spans, the screening lists, and `lower` of the database. -/
structure Settings extends Auth.Settings where
  emailVerificationExpire : Time
  passwordResetExpire : Time
  lower : String → String

def User.verify (now : Time) (user : User) : User := { user with emailVerifiedAt := some now }

def User.setPassword (password : String) (user : User) : User :=
  { user with passwordHash := some password }

def User.setEmail (email : String) (user : User) : User := { user with email }

def UserSession.live (settings : Settings) (now : Time) (session : UserSession) : Bool :=
  session.revokedAt.isNone && session.expiresAt > now &&
    session.lastUsedAt > now - settings.sessionIdle

def EmailChangeToken.live (now : Time) (row : EmailChangeToken) : Bool :=
  row.usedAt.isNone && row.expiresAt > now

def PasswordResetToken.live (now : Time) (row : PasswordResetToken) : Bool :=
  row.usedAt.isNone && row.expiresAt > now

namespace Tables

variable (tables : Tables)

/-- `lock_live_user`. -/
def lockLiveUser (id : UserId) : Option User :=
  tables.users.find? fun user => user.id = id && user.deletedAt.isNone

/-- The live account of an address. -/
def userOf (email : String) : Option User :=
  tables.users.find? fun user => user.email = email && user.deletedAt.isNone

def setUser (id : UserId) (change : User → User) : Tables :=
  { tables with users := tables.users.map fun user => if user.id = id then change user else user }

def updateSessions (change : UserSession → UserSession) : Tables :=
  { tables with sessions := tables.sessions.map change }

def updateVerifications (change : EmailVerificationToken → EmailVerificationToken) : Tables :=
  { tables with emailVerificationTokens := tables.emailVerificationTokens.map change }

def updateResets (change : PasswordResetToken → PasswordResetToken) : Tables :=
  { tables with passwordResetTokens := tables.passwordResetTokens.map change }

def updateChanges (change : EmailChangeToken → EmailChangeToken) : Tables :=
  { tables with emailChangeTokens := tables.emailChangeTokens.map change }

/-- A verification spends every link of the account. -/
def useVerifications (id : UserId) (now : Time) : Tables :=
  tables.updateVerifications fun row =>
    if row.userId = id ∧ row.usedAt.isNone then { row with usedAt := some now } else row

/-- Every unspent reset link of the account is voided. -/
def useResets (id : UserId) (now : Time) : Tables :=
  tables.updateResets fun row =>
    if row.userId = id ∧ row.usedAt.isNone then { row with usedAt := some now } else row

def spendReset (token : Token) (now : Time) : Tables :=
  tables.updateResets fun row =>
    if row.token = token ∧ row.live now then { row with usedAt := some now } else row

/-- `void_email_changes`. -/
def voidEmailChanges (id : UserId) (now : Time) : Tables :=
  tables.updateChanges fun row =>
    if row.userId = id ∧ row.usedAt.isNone then { row with usedAt := some now } else row

def spendChange (token : Token) (now : Time) : Tables :=
  tables.updateChanges fun row =>
    if row.token = token ∧ row.live now then { row with usedAt := some now } else row

/-- `revoke_user_sessions`. -/
def revokeUserSessions (id : UserId) (spared : Option Token) (now : Time) : Tables :=
  tables.updateSessions fun row =>
    if row.userId = id ∧ row.revokedAt.isNone ∧ some row.token ≠ spared then
      { row with revokedAt := some now }
    else row

/-- `revoke_session`. -/
def revokeSession (token : Token) (now : Time) : Tables :=
  tables.updateSessions fun row =>
    if row.token = token ∧ row.revokedAt.isNone then { row with revokedAt := some now } else row

/-- `slide_idle_clock`. -/
def slideIdleClock (session : UserSession) (now : Time) : Tables :=
  if now - session.lastUsedAt < 60000000 then tables
  else tables.updateSessions fun row =>
    if row.token = session.token then { row with lastUsedAt := now } else row

def insertUser (user : User) : Tables := { tables with users := tables.users ++ [user] }

def insertSession (row : UserSession) : Tables :=
  { tables with sessions := tables.sessions ++ [row] }

def insertVerification (row : EmailVerificationToken) : Tables :=
  { tables with emailVerificationTokens := tables.emailVerificationTokens ++ [row] }

def insertReset (row : PasswordResetToken) : Tables :=
  { tables with passwordResetTokens := tables.passwordResetTokens ++ [row] }

def insertChange (row : EmailChangeToken) : Tables :=
  { tables with emailChangeTokens := tables.emailChangeTokens ++ [row] }

/-- `resolve_session`. -/
def resolveSession (settings : Settings) (now : Time) (token : Token) :
    Option (UserSession × User) :=
  (tables.sessions.find? fun row => row.token = token && row.live settings now).bind fun session =>
    (tables.lockLiveUser session.userId).map fun user => (session, user)

end Tables

/-! ## The routes -/

/-- The body of `UserResponse`. -/
structure UserResponse where
  id : UserId
  email : String
  displayName : String
  homeDashboardId : Option DashboardId
  emailVerifiedAt : Option Time
  deriving DecidableEq

def User.response (user : User) : UserResponse :=
  ⟨user.id, user.email, user.displayName, user.homeDashboardId, user.emailVerifiedAt⟩

/-- What a request is answered. A `signedIn` sets the session cookie. -/
inductive Answer
  | refused (statusCode : Nat) (detail : String)
  | registered (email : String)
  | signedIn (user : UserResponse) (session : Token)
  | profile (user : UserResponse)
  | tokenStatus (valid : Bool)
  | noContent
  deriving DecidableEq

inductive Mail
  | verification (email : String) (token : Token)
  | existingAccount (email : String)
  | passwordReset (email : String) (token : Token)
  | emailChangeConfirmation (newEmail : String) (token : Token)
  | emailChangeNotice (oldEmail newEmail : String)
  deriving DecidableEq

def Mail.recipient : Mail → String
  | .verification email _ | .existingAccount email | .passwordReset email _
  | .emailChangeConfirmation email _ | .emailChangeNotice email _ => email

/-- A unit of work that runs after its request is answered. -/
inductive Deferred
  | resendVerificationLink (email : String)
  | issuePasswordResetLink (email : String)
  deriving DecidableEq

def Deferred.email : Deferred → String
  | .resendVerificationLink email | .issuePasswordResetLink email => email

/-- What a request leaves: nothing of what it did not commit. -/
structure Outcome where
  tables : Tables
  answer : Answer
  mails : List Mail
  deferred : List Deferred

def refuse (tables : Tables) (statusCode : Nat) (detail : String) : Outcome :=
  ⟨tables, .refused statusCode detail, [], []⟩

/-- A route that refuses where it does not find what it needs. -/
def orRefuse {α : Type} (found : Option α) (tables : Tables) (statusCode : Nat) (detail : String)
    (body : α → Outcome) : Outcome :=
  match found with
  | none => refuse tables statusCode detail
  | some row => body row

/-- The clock, and what is drawn at random: the ids and the token that a request mints. -/
structure Supply where
  now : Time
  userId : UserId
  dashboardId : DashboardId
  token : Token

def verifyDetail : String := "Invalid or expired verification link"

variable (settings : Settings) (supply : Supply)

/-- `issue_email_verification`. -/
def issueEmailVerification (id : UserId) (tables : Tables) : Tables :=
  tables.insertVerification
    ⟨supply.token, id, supply.now, supply.now + settings.emailVerificationExpire, none⟩

/-- `start_session`. -/
def startSession (id : UserId) (tables : Tables) : Tables :=
  tables.insertSession ⟨supply.token, id, supply.now, supply.now + settings.sessionAbsolute, none⟩

/-- `register`. A row that differs in case only is found by the unique index. -/
def register (email password displayName : String) (tables : Tables) : Outcome :=
  if settings.disposableEmail email then refuse tables 422 disposableDetail
  else if settings.commonPassword password then refuse tables 422 tooCommonDetail
  else if tables.users.any fun user => user.email = email then
    ⟨tables, .registered email, [.existingAccount email], []⟩
  else if tables.users.any fun user => settings.lower user.email = settings.lower email then
    ⟨tables, .registered email, [.existingAccount email], []⟩
  else
    let user : User :=
      ⟨supply.userId, email, some password, displayName, some supply.dashboardId, none, none⟩
    ⟨issueEmailVerification settings supply user.id (tables.insertUser user), .registered email,
      [.verification email supply.token], []⟩

/-- `verify_email`. -/
def verifyEmail (token : Token) (tables : Tables) : Outcome :=
  orRefuse (tables.emailVerificationTokens.find? fun row =>
      row.token = token && row.expiresAt > supply.now) tables 400 verifyDetail fun row =>
    orRefuse (tables.lockLiveUser row.userId) tables 400 verifyDetail fun user =>
      if user.emailVerifiedAt.isSome then
        refuse tables 409 "Email already verified. Please sign in."
      else if row.usedAt.isSome then refuse tables 400 verifyDetail
      else
        ⟨startSession settings supply user.id
            ((tables.useVerifications user.id supply.now).setUser user.id (.verify supply.now)),
          .signedIn (user.verify supply.now).response supply.token, [], []⟩

/-- `resend_verification`. -/
def resendVerification (email : String) (tables : Tables) : Outcome :=
  ⟨tables, .noContent, [], [.resendVerificationLink email]⟩

/-- `request_password_reset`. -/
def requestPasswordReset (email : String) (tables : Tables) : Outcome :=
  ⟨tables, .noContent, [], [.issuePasswordResetLink email]⟩

/-- `check_password_reset_token`. -/
def checkPasswordResetToken (token : Token) (tables : Tables) : Outcome :=
  ⟨tables,
    .tokenStatus (tables.passwordResetTokens.any fun row =>
      row.token = token && row.live supply.now), [], []⟩

/-- `confirm_password_reset`, with `consume_password_reset_token`. -/
def confirmPasswordReset (token : Token) (newPassword : String) (tables : Tables) : Outcome :=
  if settings.commonPassword newPassword then refuse tables 422 tooCommonDetail
  else
    orRefuse (tables.passwordResetTokens.find? fun row =>
        row.token = token && row.live supply.now) tables 400 resetDetail fun row =>
      orRefuse (tables.lockLiveUser row.userId) tables 400 resetDetail fun user =>
        ⟨(((tables.spendReset token supply.now).voidEmailChanges user.id supply.now).setUser
            user.id (.setPassword newPassword)).revokeUserSessions user.id none supply.now,
          .noContent, [], []⟩

/-- `login`. -/
def login (email password : String) (tables : Tables) : Outcome :=
  orRefuse (tables.userOf email) tables 401 "Invalid credentials" fun user =>
    if user.passwordHash ≠ some password then refuse tables 401 "Invalid credentials"
    else if user.emailVerifiedAt.isNone then refuse tables 403 "Email verification required"
    else
      ⟨startSession settings supply user.id tables, .signedIn user.response supply.token, [], []⟩

/-- `confirm_own_email_change`, with `confirm_email_change`. -/
def confirmOwnEmailChange (token : Token) (tables : Tables) : Outcome :=
  orRefuse (tables.emailChangeTokens.find? fun row =>
      row.token = token && row.live supply.now) tables 400 emailChangeDetail fun row =>
    orRefuse (tables.lockLiveUser row.userId) tables 400 emailChangeDetail fun user =>
      if tables.users.any fun other => other.id ≠ user.id &&
          settings.lower other.email = settings.lower row.newEmail then
        refuse tables 400 emailChangeDetail
      else
        ⟨((tables.useResets user.id supply.now).spendChange token supply.now).setUser user.id
            (.setEmail row.newEmail),
          .noContent, [], []⟩

/-- `_resolve_auth_context`, and the body of a route for whom it finds. -/
def authenticated (token : Option Token) (tables : Tables)
    (body : UserSession → User → Tables → Outcome) : Outcome :=
  orRefuse token tables 401 "Not authenticated" fun token =>
    orRefuse (tables.resolveSession settings supply.now token) tables 401
      "Session is no longer valid" fun found =>
        body found.1 found.2 (tables.slideIdleClock found.1 supply.now)

/-- `me`. -/
def me (token : Option Token) (tables : Tables) : Outcome :=
  authenticated settings supply token tables fun _ user tables =>
    ⟨tables, .profile user.response, [], []⟩

/-- `logout`. -/
def logout (token : Option Token) (tables : Tables) : Outcome :=
  authenticated settings supply token tables fun session _ tables =>
    ⟨tables.revokeSession session.token supply.now, .noContent, [], []⟩

/-- `change_password`. -/
def changePassword (token : Option Token) (currentPassword newPassword : String)
    (tables : Tables) : Outcome :=
  authenticated settings supply token tables fun session user tables =>
    if user.passwordHash ≠ some currentPassword then
      refuse tables 403 "Current password is incorrect"
    else if currentPassword = newPassword then
      refuse tables 422 "New password must be different from the current password"
    else if settings.commonPassword newPassword then refuse tables 422 tooCommonDetail
    else
      ⟨((tables.voidEmailChanges user.id supply.now).setUser user.id
          (.setPassword newPassword)).revokeUserSessions user.id (some session.token) supply.now,
        .noContent, [], []⟩

/-- `request_email_change`. -/
def requestEmailChange (token : Option Token) (newEmail password : String)
    (tables : Tables) : Outcome :=
  authenticated settings supply token tables fun _ user tables =>
    if settings.disposableEmail newEmail then refuse tables 422 disposableDetail
    else if user.passwordHash ≠ some password then refuse tables 403 "Password is incorrect"
    else
      ⟨(tables.voidEmailChanges user.id supply.now).insertChange
          ⟨supply.token, user.id, newEmail, supply.now + settings.emailChangeExpire, none⟩,
        .noContent,
        (if tables.users.any fun other => other.email = newEmail then []
          else [.emailChangeConfirmation newEmail supply.token]) ++
          [.emailChangeNotice user.email newEmail],
        []⟩

inductive Request
  | register (email password displayName : String)
  | verifyEmail (token : Token)
  | resendVerification (email : String)
  | requestPasswordReset (email : String)
  | checkPasswordResetToken (token : Token)
  | confirmPasswordReset (token : Token) (newPassword : String)
  | login (email password : String)
  | confirmOwnEmailChange (token : Token)
  | me (token : Option Token)
  | logout (token : Option Token)
  | changePassword (token : Option Token) (currentPassword newPassword : String)
  | requestEmailChange (token : Option Token) (newEmail password : String)

def handle (tables : Tables) : Request → Outcome
  | .register email password displayName =>
      register settings supply email password displayName tables
  | .verifyEmail token => verifyEmail settings supply token tables
  | .resendVerification email => resendVerification email tables
  | .requestPasswordReset email => requestPasswordReset email tables
  | .checkPasswordResetToken token => checkPasswordResetToken supply token tables
  | .confirmPasswordReset token newPassword =>
      confirmPasswordReset settings supply token newPassword tables
  | .login email password => login settings supply email password tables
  | .confirmOwnEmailChange token => confirmOwnEmailChange settings supply token tables
  | .me token => me settings supply token tables
  | .logout token => logout settings supply token tables
  | .changePassword token currentPassword newPassword =>
      changePassword settings supply token currentPassword newPassword tables
  | .requestEmailChange token newEmail password =>
      requestEmailChange settings supply token newEmail password tables

/-- `resend_verification_link`. -/
def resendVerificationLink (email : String) (tables : Tables) : Tables × List Mail :=
  match tables.userOf email with
  | none => (tables, [])
  | some user =>
      if user.emailVerifiedAt.isSome then (tables, [])
      else if tables.emailVerificationTokens.any fun row =>
          row.userId = user.id && row.createdAt > supply.now - 60000000 then (tables, [])
      else
        (issueEmailVerification settings supply user.id tables,
          [.verification user.email supply.token])

/-- `issue_password_reset_link`. -/
def issuePasswordResetLink (email : String) (tables : Tables) : Tables × List Mail :=
  match tables.userOf email with
  | none => (tables, [])
  | some user =>
      ((tables.useResets user.id supply.now).insertReset
          ⟨supply.token, user.id, supply.now + settings.passwordResetExpire, none⟩,
        [.passwordReset user.email supply.token])

def work (tables : Tables) : Deferred → Tables × List Mail
  | .resendVerificationLink email => resendVerificationLink settings supply email tables
  | .issuePasswordResetLink email => issuePasswordResetLink settings supply email tables

end FrontDashboard.Probes
