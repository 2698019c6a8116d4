import FrontDashboard.Auth.Routes

/-! # Issuing and confirming links

`issue_password_reset_link`, `confirm_password_reset`, `request_email_change`,
`confirm_own_email_change` and `delete_own_account`, each as the program of its
database statements. A request that mints a token has drawn its id.
-/

namespace FrontDashboard.Links

/-! ## The links an account is mailed

The `users` row of one account with its password-reset and email-change tokens. A raw
token occurs only through the row that its hash selects, so presenting a link is naming
its row. No statement reads the last three fields but to say that an id is new or when a link is
mailed: the ids that tokens have had, the passwords that reset links have set, each with
the address that the link was mailed to and the account's address then, and the change
links that were confirmed.
-/

/-- Microseconds. -/
abbrev Time := Int

abbrev TokenId := Nat

/-- No password verifies against the hash of a tombstone. -/
structure User where
  id : Nat
  email : String
  password : Option String
  deletedAt : Option Time
  deriving DecidableEq

/-- An address of the account, and how many changes were confirmed by then. -/
structure Mailing where
  address : String
  changes : Nat
  deriving DecidableEq

structure PasswordResetToken where
  id : TokenId
  mailedTo : Mailing
  expiresAt : Time
  usedAt : Option Time
  deriving DecidableEq

structure EmailChangeToken where
  id : TokenId
  newEmail : String
  expiresAt : Time
  usedAt : Option Time
  deriving DecidableEq

structure PasswordSet where
  token : TokenId
  mailedTo : Mailing
  address : Mailing
  deriving DecidableEq

structure Rows where
  now : Time
  user : User
  otherEmails : List String
  resets : List PasswordResetToken
  changes : List EmailChangeToken
  drawn : List TokenId
  passwordSets : List PasswordSet
  emailsChanged : List TokenId

/-- Where a link is mailed at present. -/
def Rows.mailing (rows : Rows) : Mailing := ⟨rows.user.email, rows.emailsChanged.length⟩

/-- One row change. -/
inductive Write
  | insertReset (token : PasswordResetToken)
  | spendResets (ids : List TokenId) (moment : Time)
  | deleteResets
  | insertChange (token : EmailChangeToken)
  | spendChanges (ids : List TokenId) (moment : Time)
  | deleteChanges
  | setPassword (link : PasswordResetToken) (password : String)
  | setEmail (link : EmailChangeToken)
  | tombstone (moment : Time)

def PasswordResetToken.spend (ids : List TokenId) (moment : Time) (token : PasswordResetToken) :
    PasswordResetToken :=
  if token.id ∈ ids then { token with usedAt := some moment } else token

def EmailChangeToken.spend (ids : List TokenId) (moment : Time) (token : EmailChangeToken) :
    EmailChangeToken :=
  if token.id ∈ ids then { token with usedAt := some moment } else token

/-- What remains of a deleted account. -/
def User.tombstone (user : User) (moment : Time) : User :=
  { user with
    email := toString user.id ++ "@deleted.invalid", password := none, deletedAt := some moment }

def Rows.perform (rows : Rows) : Write → Rows
  | .insertReset token =>
      { rows with resets := rows.resets ++ [token], drawn := token.id :: rows.drawn }
  | .spendResets ids moment => { rows with resets := rows.resets.map (.spend ids moment) }
  | .deleteResets => { rows with resets := [] }
  | .insertChange token =>
      { rows with changes := rows.changes ++ [token], drawn := token.id :: rows.drawn }
  | .spendChanges ids moment => { rows with changes := rows.changes.map (.spend ids moment) }
  | .deleteChanges => { rows with changes := [] }
  | .setPassword link password =>
      { rows with
        user := { rows.user with password := some password }
        passwordSets := rows.passwordSets ++ [⟨link.id, link.mailedTo, rows.mailing⟩] }
  | .setEmail link =>
      { rows with
        user := { rows.user with email := link.newEmail }
        emailsChanged := rows.emailsChanged ++ [link.id] }
  | .tombstone moment => { rows with user := rows.user.tombstone moment }

/-- Time passes, and other accounts take and leave addresses. -/
def Rows.elapse (rows : Rows) (outside : Nat × List String) : Rows :=
  { rows with now := rows.now + outside.1, otherEmails := outside.2 }

def PasswordResetToken.live (now : Time) (token : PasswordResetToken) : Bool :=
  token.usedAt.isNone && token.expiresAt > now

def EmailChangeToken.live (now : Time) (token : EmailChangeToken) : Bool :=
  token.usedAt.isNone && token.expiresAt > now

/-! ## The statements -/

open ReadCommitted ReadCommitted.Program
open Auth (AccountLock Failure disposableDetail emailChangeDetail resetDetail tooCommonDetail
  unprocessable)

abbrev Handler := Program Rows Write AccountLock Failure

structure Settings where
  passwordResetExpire : Time
  emailChangeExpire : Time
  commonPassword : String → Bool
  disposableEmail : String → Bool

variable (settings : Settings)

/-- An error of the database that no handler catches. -/
def integrityError : Failure := ⟨"", "", 500, "Internal Server Error"⟩

/-- `accounts.lock_live_user`. -/
def lockLiveUser : Handler (Option User) := do
  acquire .account
  query fun rows => if rows.user.deletedAt.isNone then some rows.user else none

/-! ## Password resets -/

def unspentResets (rows : Rows) : List TokenId :=
  (rows.resets.filter fun token => token.usedAt.isNone).map (·.id)

/-- `issue_password_reset_link`, up to the mail that it sends to the address. An address
that is not this account's finds no row here. -/
def issuePasswordResetLink (email : String) (token : TokenId) : Handler Unit := do
  let found ← query fun rows => rows.user.email = email && rows.user.deletedAt.isNone
  if !found then pure ()
  else do
    match ← lockLiveUser with
    | none => pure ()
    | some user =>
      if user.email ≠ email then pure ()
      else do
        update fun rows => [.spendResets (unspentResets rows) rows.now]
        let drawn ← updateReturning
          (fun rows => [.insertReset
            ⟨token, ⟨user.email, rows.emailsChanged.length⟩,
              rows.now + settings.passwordResetExpire, none⟩])
          fun rows => decide (token ∈ rows.drawn)
        if drawn then raise integrityError else commitTransaction

/-- The reset token that a link names, while it can be spent. -/
def spendableReset (token : TokenId) (now : Time) (rows : Rows) : List PasswordResetToken :=
  rows.resets.filter fun row => row.id = token && row.live now

/-- `consume_password_reset_token`, answering the token that it has spent. -/
def consumePasswordResetToken (token : TokenId) : Handler (Option PasswordResetToken) := do
  let now ← query (·.now)
  let known ← query fun rows => rows.resets.any fun row => row.id = token
  if !known then pure none
  else do
    let _ ← lockLiveUser
    updateReturning (fun rows => [.spendResets ((spendableReset token now rows).map (·.id)) now])
      fun rows => (spendableReset token now rows).head?

def unspentChanges (rows : Rows) : List TokenId :=
  (rows.changes.filter fun token => token.usedAt.isNone).map (·.id)

/-- `confirm_password_reset`. -/
def confirmPasswordReset (token : TokenId) (newPassword : String) : Handler Unit := do
  if settings.commonPassword newPassword then raise (unprocessable tooCommonDetail)
  else do
    match ← consumePasswordResetToken token with
    | none => raise ⟨"password_reset", "invalid_token", 400, resetDetail⟩
    | some link => do
      let live ← query fun rows => rows.user.deletedAt.isNone
      if !live then raise ⟨"password_reset", "unknown_user", 400, resetDetail⟩
      else do
        update fun rows => [.spendChanges (unspentChanges rows) rows.now]
        update fun _ => [.setPassword link newPassword]
        commitTransaction

/-! ## Changes of address -/

/-- `request_email_change`, of a caller with a session. -/
def requestEmailChange (newEmail password : String) (token : TokenId) : Handler Unit := do
  if settings.disposableEmail newEmail then raise (unprocessable disposableDetail)
  else do
    match ← lockLiveUser with
    | none => raise ⟨"session", "not_resolvable", 401, "Session is no longer valid"⟩
    | some user =>
      if user.password ≠ some password then
        raise ⟨"email_change", "bad_password", 403, "Password is incorrect"⟩
      else do
        update fun rows => [.spendChanges (unspentChanges rows) rows.now]
        let drawn ← updateReturning
          (fun rows => [.insertChange
            ⟨token, newEmail, rows.now + settings.emailChangeExpire, none⟩])
          fun rows => decide (token ∈ rows.drawn)
        if drawn then raise integrityError else commitTransaction

/-- The change tokens that a link names, while they can be spent. -/
def spendableChange (token : TokenId) (now : Time) (rows : Rows) : List EmailChangeToken :=
  rows.changes.filter fun row => row.id = token && row.live now

/-- `confirm_own_email_change` with `confirm_email_change`. -/
def confirmEmailChange (token : TokenId) : Handler Unit := do
  let refused : Failure := ⟨"email_change", "invalid_token", 400, emailChangeDetail⟩
  let now ← query (·.now)
  let named ← query fun rows => !(spendableChange token now rows).isEmpty
  if !named then raise refused
  else do
    match ← lockLiveUser with
    | none => raise refused
    | some _ => do
      update fun rows => [.spendResets (unspentResets rows) now]
      let spent ← updateReturning
        (fun rows => [.spendChanges ((spendableChange token now rows).map (·.id)) now])
        fun rows => (spendableChange token now rows).head?
      match spent with
      | none => raise refused
      | some link => do
        let taken ← query fun rows => rows.otherEmails.contains link.newEmail
        if taken then raise refused
        else do
          let live ← updateReturning
            (fun rows => if rows.user.deletedAt.isNone then [.setEmail link] else [])
            fun rows => rows.user.deletedAt.isNone
          if !live then raise refused else commitTransaction

/-! ## Deletion -/

/-- `delete_own_account` of a caller with a session, and the names of the dashboards that
`shared_dashboards_owned_by` finds. -/
def deleteOwnAccount (password : String) (shared : List String) : Handler Unit := do
  let verifies ← query fun rows => decide (rows.user.password = some password)
  if !verifies then raise ⟨"account_delete", "bad_password", 403, "Password is incorrect"⟩
  else do
    match ← lockLiveUser with
    | none => pure ()
    | some _ =>
      if shared ≠ [] then
        raise ⟨"", "", 409, "Hand over or delete the dashboards you share first: " ++
          ", ".intercalate shared⟩
      else do
        update fun _ => [.deleteResets]
        update fun _ => [.deleteChanges]
        update fun rows => [.tombstone rows.now]
        commitTransaction

/-! ## The service -/

inductive Request
  | issuePasswordResetLink (email : String) (token : TokenId)
  | confirmPasswordReset (token : TokenId) (newPassword : String)
  | requestEmailChange (newEmail password : String) (token : TokenId)
  | confirmEmailChange (token : TokenId)
  | deleteOwnAccount (password : String) (shared : List String)

def handler : Request → Handler Unit
  | .issuePasswordResetLink email token => issuePasswordResetLink settings email token
  | .confirmPasswordReset token newPassword => confirmPasswordReset settings token newPassword
  | .requestEmailChange newEmail password token =>
      requestEmailChange settings newEmail password token
  | .confirmEmailChange token => confirmEmailChange token
  | .deleteOwnAccount password shared => deleteOwnAccount password shared

/-- An account of which nothing is recorded yet. A link that can still be spent was mailed
to its address. -/
structure Rows.Initial (rows : Rows) : Prop where
  unset : rows.passwordSets = []
  unchanged : rows.emailsChanged = []
  live : ∀ token ∈ rows.resets, token.usedAt = none → token.mailedTo = rows.mailing
  drawn : ∀ id ∈ rows.resets.map (·.id) ++ rows.changes.map (·.id), id ∈ rows.drawn

def service : Service Rows Write AccountLock Failure Unit Request (Nat × List String) where
  perform := Rows.perform
  handler := fun _ => handler settings
  environment := Rows.elapse
  Initial := Rows.Initial

end FrontDashboard.Links
