import FrontDashboard.Auth.Visible

/-! # Probes, and what others do

A prober presents no link, session or password of a secret account; it is answered out of what is
visible. Whoever concerns himself with secret accounts only changes nothing that is visible, and
sends no mail to an address that is not secret.
-/

namespace FrontDashboard.Probes

open Auth (disposableDetail tooCommonDetail)

variable (settings : Settings) (supply : Supply) (hidden : String → Bool)

/-! ## Probes -/

/-- What the prober sees of what a request leaves. -/
def Outcome.visible (outcome : Outcome) : Outcome :=
  { outcome with
    tables := outcome.tables.visible settings hidden
    mails := outcome.mails.filter fun mail => !secret settings hidden mail.recipient }

/-- Neither a mailed link nor a session of a secret account is presented, nor its password. -/
def Request.Probing (tables : Tables) : Request → Prop
  | .verifyEmail token => ∀ row ∈ tables.emailVerificationTokens, row.token = token →
      tables.sees settings hidden row.userId = true
  | .checkPasswordResetToken token | .confirmPasswordReset token _ =>
      ∀ row ∈ tables.passwordResetTokens, row.token = token →
        tables.sees settings hidden row.userId = true
  | .confirmOwnEmailChange token => ∀ row ∈ tables.emailChangeTokens, row.token = token →
      tables.sees settings hidden row.userId = true ∧
        secret settings hidden row.newEmail = false
  | .login email password => secret settings hidden email = true →
      ∀ user ∈ tables.users, user.email = email → user.passwordHash ≠ some password
  | .me token | .logout token | .changePassword token _ _ | .requestEmailChange token _ _ =>
      ∀ row ∈ tables.sessions, some row.token = token →
        tables.sees settings hidden row.userId = true
  | .register .. | .resendVerification _ | .requestPasswordReset _ => True

section Probing

variable {settings supply hidden} {tables : Tables} {token : Token} {email password : String}

/-- A refusal looks the same in what is visible. -/
theorem visible_refuse (statusCode : Nat) (detail : String) :
    (refuse tables statusCode detail).visible settings hidden =
      refuse (tables.visible settings hidden) statusCode detail := rfl

/-- Hiding rows twice hides no more. -/
theorem refuse_visible (statusCode : Nat) (detail : String) :
    (refuse tables statusCode detail).visible settings hidden =
      (refuse (tables.visible settings hidden) statusCode detail).visible settings hidden := by
  rw [visible_refuse, visible_refuse, Tables.visible_visible]

/-- What is found as it is seen is gone on with as it is seen. -/
theorem orRefuse_visible {α : Type} {found found' : Option α} {statusCode : Nat} {detail : String}
    {body body' : α → Outcome} (same : found' = found)
    (bodies : ∀ row, found = some row →
      (body row).visible settings hidden = (body' row).visible settings hidden) :
    (orRefuse found tables statusCode detail body).visible settings hidden =
      (orRefuse found' (tables.visible settings hidden) statusCode detail body').visible
        settings hidden := by
  subst same
  cases found' with
  | none => exact refuse_visible statusCode detail
  | some row => exact bodies row rfl

/-- A registration for a secret address leaves nothing to see. -/
theorem register_secret {displayName : String} (covered : secret settings hidden email = true)
    (fresh : tables.Fresh supply.userId) :
    (register settings supply email password displayName tables).visible settings hidden =
      ⟨tables.visible settings hidden,
        if settings.disposableEmail email then .refused 422 disposableDetail
        else if settings.commonPassword password then .refused 422 tooCommonDetail
        else .registered email, [], []⟩ := by
  have unseen : (tables.visible settings hidden).sees settings hidden supply.userId = false :=
    Tables.sees_eq_false.mpr fun user member same => absurd same (fresh.visible.1 user member)
  rw [register]
  split_ifs
  · rfl
  · rfl
  · simp [Outcome.visible, Mail.recipient, covered]
  · simp [Outcome.visible, Mail.recipient, covered]
  · simp [Outcome.visible, Mail.recipient, covered, issueEmailVerification,
      Tables.visible_insertVerification, Tables.visible_insertUser, fresh, unseen]

/-- The requests look the same from the rows that are visible. -/
theorem register_visible {displayName : String} (fresh : tables.Fresh supply.userId) :
    (register settings supply email password displayName tables).visible settings hidden =
      (register settings supply email password displayName
        (tables.visible settings hidden)).visible settings hidden := by
  by_cases covered : secret settings hidden email = true
  · rw [register_secret covered fresh, register_secret covered fresh.visible,
      Tables.visible_visible]
  · have bare := eq_false_of_ne_true covered
    have named : (tables.visible settings hidden).users.any (fun user => user.email = email) =
        tables.users.any fun user => user.email = email :=
      KeyedRows.any_filter fun user _ same => by rw [of_decide_eq_true same, bare]; rfl
    have alike : (tables.visible settings hidden).users.any (fun user =>
        settings.lower user.email = settings.lower email) =
          tables.users.any fun user => settings.lower user.email = settings.lower email :=
      KeyedRows.any_filter fun user _ same => by
        rw [secret_eq_of_lower (of_decide_eq_true same), bare]
        rfl
    rw [register, register, named, alike]
    split_ifs
    · exact refuse_visible _ _
    · exact refuse_visible _ _
    · simp [Outcome.visible]
    · simp [Outcome.visible]
    · simp [Outcome.visible, issueEmailVerification, Tables.visible_insertVerification,
        Tables.visible_insertUser, fresh, fresh.visible, bare]

theorem verifyEmail_visible (distinct : tables.Distinct)
    (probing : Request.Probing settings hidden tables (.verifyEmail token)) :
    (verifyEmail settings supply token tables).visible settings hidden =
      (verifyEmail settings supply token (tables.visible settings hidden)).visible
        settings hidden := by
  refine orRefuse_visible (KeyedRows.find?_filter fun row member passes => ?_) fun row found => ?_
  · exact probing row member (of_decide_eq_true (Bool.and_eq_true_iff.mp passes).1)
  obtain ⟨member, named⟩ := KeyedRows.of_find? found
  have seen := probing row member named
  refine orRefuse_visible (Tables.lockLiveUser_visible distinct seen) fun user _ => ?_
  split_ifs
  · exact refuse_visible _ _
  · exact refuse_visible _ _
  · simp [Outcome.visible, startSession, Tables.visible_insertSession]

theorem checkPasswordResetToken_visible
    (probing : Request.Probing settings hidden tables (.checkPasswordResetToken token)) :
    (checkPasswordResetToken supply token tables).visible settings hidden =
      (checkPasswordResetToken supply token (tables.visible settings hidden)).visible
        settings hidden := by
  have named : (tables.visible settings hidden).passwordResetTokens.any (fun row =>
      row.token = token && row.live supply.now) =
        tables.passwordResetTokens.any fun row => row.token = token && row.live supply.now :=
    KeyedRows.any_filter fun row member passes =>
      probing row member (of_decide_eq_true (Bool.and_eq_true_iff.mp passes).1)
  rw [checkPasswordResetToken, checkPasswordResetToken, named]
  simp [Outcome.visible]

theorem confirmPasswordReset_visible (distinct : tables.Distinct)
    (probing : Request.Probing settings hidden tables (.confirmPasswordReset token password)) :
    (confirmPasswordReset settings supply token password tables).visible settings hidden =
      (confirmPasswordReset settings supply token password
        (tables.visible settings hidden)).visible settings hidden := by
  rw [confirmPasswordReset, confirmPasswordReset]
  split_ifs
  · exact refuse_visible _ _
  refine orRefuse_visible (KeyedRows.find?_filter fun row member passes => ?_) fun row found => ?_
  · exact probing row member (of_decide_eq_true (Bool.and_eq_true_iff.mp passes).1)
  obtain ⟨member, named⟩ := KeyedRows.of_find? found
  have seen := probing row member named
  refine orRefuse_visible (Tables.lockLiveUser_visible distinct seen) fun user _ => ?_
  simp [Outcome.visible]

/-- At a secret address a wrong password is like no account. -/
theorem login_visible
    (probing : Request.Probing settings hidden tables (.login email password)) :
    (login settings supply email password tables).visible settings hidden =
      (login settings supply email password (tables.visible settings hidden)).visible
        settings hidden := by
  by_cases covered : secret settings hidden email = true
  · rw [login, login, Tables.userOf_visible_eq_none covered]
    cases found : tables.userOf email with
    | none => exact refuse_visible _ _
    | some user =>
        obtain ⟨member, named⟩ := Tables.mem_of_userOf found
        simp only [orRefuse, if_pos (probing covered user member named)]
        exact refuse_visible _ _
  · refine orRefuse_visible (Tables.userOf_visible (eq_false_of_ne_true covered)) fun user _ => ?_
    split_ifs
    · exact refuse_visible _ _
    · exact refuse_visible _ _
    · simp [Outcome.visible, startSession, Tables.visible_insertSession]

/-- An address that is not secret is moved to as it is seen. -/
theorem visible_confirmed {id : UserId} (bare : secret settings hidden email = false)
    (covers : ∀ user ∈ tables.users, user.id = id → secret settings hidden user.email = false) :
    (((tables.useResets id supply.now).spendChange token supply.now).setUser id
        (.setEmail email)).visible settings hidden =
      (((tables.visible settings hidden).useResets id supply.now).spendChange token
        supply.now).setUser id (.setEmail email) := by
  have spent : ∀ user ∈ ((tables.useResets id supply.now).spendChange token supply.now).users,
      user.id = id → secret settings hidden user.email = secret settings hidden email :=
    fun user member here => (covers user member here).trans bare.symm
  rw [Tables.visible_setEmail spent, Tables.visible_spendChange, Tables.visible_useResets]

theorem confirmOwnEmailChange_visible (distinct : tables.Distinct)
    (probing : Request.Probing settings hidden tables (.confirmOwnEmailChange token)) :
    (confirmOwnEmailChange settings supply token tables).visible settings hidden =
      (confirmOwnEmailChange settings supply token (tables.visible settings hidden)).visible
        settings hidden := by
  refine orRefuse_visible (KeyedRows.find?_filter fun row member passes => ?_) fun row found => ?_
  · exact (probing row member (of_decide_eq_true (Bool.and_eq_true_iff.mp passes).1)).1
  obtain ⟨member, named⟩ := KeyedRows.of_find? found
  obtain ⟨seen, bare⟩ := probing row member named
  refine orRefuse_visible (Tables.lockLiveUser_visible distinct seen) fun user known => ?_
  have taken : (tables.visible settings hidden).users.any (fun other =>
      other.id ≠ user.id && settings.lower other.email = settings.lower row.newEmail) =
        tables.users.any fun other =>
          other.id ≠ user.id && settings.lower other.email = settings.lower row.newEmail :=
    KeyedRows.any_filter fun other _ passes => by
      rw [secret_eq_of_lower (of_decide_eq_true (Bool.and_eq_true_iff.mp passes).2), bare]
      rfl
  have covers := Tables.covers_of_sees distinct seen
  rw [← (Tables.mem_of_lockLiveUser known).2] at covers
  rw [taken]
  split_ifs
  · exact refuse_visible _ _
  · rw [Outcome.visible, Outcome.visible, visible_confirmed bare covers,
      visible_confirmed bare fun other member => covers other (List.mem_of_mem_filter member),
      Tables.visible_visible]

/-- A route behind a session sees what its body sees. -/
theorem authenticated_visible {token : Option Token} {body : UserSession → User → Tables → Outcome}
    (distinct : tables.Distinct)
    (known : ∀ row ∈ tables.sessions, some row.token = token →
      tables.sees settings hidden row.userId = true)
    (same : ∀ session user rows, (body session user rows).visible settings hidden =
      (body session user (rows.visible settings hidden)).visible settings hidden) :
    (authenticated settings supply token tables body).visible settings hidden =
      (authenticated settings supply token (tables.visible settings hidden) body).visible
        settings hidden := by
  refine orRefuse_visible rfl fun token presented => ?_
  refine orRefuse_visible (Tables.resolveSession_visible distinct fun row member named =>
    known row member ((congrArg some named).trans presented.symm)) fun found _ => ?_
  rw [same, Tables.visible_slideIdleClock]

theorem changePassword_visible {token : Option Token} {newPassword : String}
    (distinct : tables.Distinct)
    (probing : Request.Probing settings hidden tables
      (.changePassword token password newPassword)) :
    (changePassword settings supply token password newPassword tables).visible settings hidden =
      (changePassword settings supply token password newPassword
        (tables.visible settings hidden)).visible settings hidden := by
  refine authenticated_visible distinct probing fun session user rows => ?_
  split_ifs
  · exact refuse_visible _ _
  · exact refuse_visible _ _
  · exact refuse_visible _ _
  · simp [Outcome.visible]

theorem requestEmailChange_visible {token : Option Token} (distinct : tables.Distinct)
    (probing : Request.Probing settings hidden tables
      (.requestEmailChange token email password)) :
    (requestEmailChange settings supply token email password tables).visible settings hidden =
      (requestEmailChange settings supply token email password
        (tables.visible settings hidden)).visible settings hidden := by
  refine authenticated_visible distinct probing fun session user rows => ?_
  by_cases disposable : settings.disposableEmail email = true
  · rw [if_pos disposable, if_pos disposable]
    exact refuse_visible _ _
  rw [if_neg disposable, if_neg disposable]
  by_cases wrong : user.passwordHash ≠ some password
  · rw [if_pos wrong, if_pos wrong]
    exact refuse_visible _ _
  rw [if_neg wrong, if_neg wrong]
  by_cases covered : secret settings hidden email = true
  · simp only [Outcome.visible, List.filter_append]
    rw [Tables.visible_insertChange, Tables.visible_insertChange]
    have silent : ∀ taken : Bool, (if taken = true then ([] : List Mail)
        else [.emailChangeConfirmation email supply.token]).filter
          (fun mail => !secret settings hidden mail.recipient) = [] := by
      intro taken
      cases taken <;> simp [Mail.recipient, covered]
    rw [silent, silent]
    simp
  · have taken : (rows.visible settings hidden).users.any (fun other => other.email = email) =
        rows.users.any fun other => other.email = email :=
      KeyedRows.any_filter fun other _ same => by
        rw [of_decide_eq_true same, eq_false_of_ne_true covered]
        rfl
    rw [taken]
    simp [Outcome.visible, Tables.visible_insertChange]

/-- **A probe is answered out of what is visible.** -/
theorem handle_visible {request : Request} (distinct : tables.Distinct)
    (fresh : tables.Fresh supply.userId)
    (probing : Request.Probing settings hidden tables request) :
    (handle settings supply tables request).visible settings hidden =
      (handle settings supply (tables.visible settings hidden) request).visible
        settings hidden := by
  cases request with
  | register email password displayName => exact register_visible fresh
  | verifyEmail token => exact verifyEmail_visible distinct probing
  | resendVerification email => simp [handle, resendVerification, Outcome.visible]
  | requestPasswordReset email => simp [handle, requestPasswordReset, Outcome.visible]
  | checkPasswordResetToken token => exact checkPasswordResetToken_visible probing
  | confirmPasswordReset token newPassword => exact confirmPasswordReset_visible distinct probing
  | login email password => exact login_visible probing
  | confirmOwnEmailChange token => exact confirmOwnEmailChange_visible distinct probing
  | me _ | logout _ =>
      exact authenticated_visible distinct probing fun _ _ _ => by simp [Outcome.visible]
  | changePassword token currentPassword newPassword =>
      exact changePassword_visible distinct probing
  | requestEmailChange token newEmail password => exact requestEmailChange_visible distinct probing

end Probing

/-! ## What others do -/

/-- Only secret addresses, and rows of accounts that are not seen, are named. -/
def Request.Private (tables : Tables) : Request → Prop
  | .register email _ _ | .resendVerification email | .requestPasswordReset email
  | .login email _ => secret settings hidden email = true
  | .verifyEmail token => ∀ row ∈ tables.emailVerificationTokens, row.token = token →
      tables.sees settings hidden row.userId = false
  | .checkPasswordResetToken token | .confirmPasswordReset token _ =>
      ∀ row ∈ tables.passwordResetTokens, row.token = token →
        tables.sees settings hidden row.userId = false
  | .confirmOwnEmailChange token => ∀ row ∈ tables.emailChangeTokens, row.token = token →
      tables.sees settings hidden row.userId = false ∧
        secret settings hidden row.newEmail = true
  | .me token | .logout token | .changePassword token _ _ => ∀ row ∈ tables.sessions,
      some row.token = token → tables.sees settings hidden row.userId = false
  | .requestEmailChange token newEmail _ => secret settings hidden newEmail = true ∧
      ∀ row ∈ tables.sessions, some row.token = token →
        tables.sees settings hidden row.userId = false

/-- Nothing of it is seen. -/
structure Silent (tables : Tables) (outcome : Outcome) : Prop where
  tables : outcome.tables.visible settings hidden = tables.visible settings hidden
  mails : ∀ mail ∈ outcome.mails, secret settings hidden mail.recipient = true
  deferred : ∀ job ∈ outcome.deferred, secret settings hidden job.email = true

section Private

variable {settings supply hidden} {tables : Tables} {token : Token} {email password : String}

/-- A refusal is silent. -/
theorem silent_refuse (statusCode : Nat) (detail : String) :
    Silent settings hidden tables (refuse tables statusCode detail) :=
  ⟨rfl, fun _ none => absurd none List.not_mem_nil, fun _ none => absurd none List.not_mem_nil⟩

/-- Writes that are not seen, and an answer. -/
theorem silent_of_visible {after : Tables} {answer : Answer}
    (same : after.visible settings hidden = tables.visible settings hidden) :
    Silent settings hidden tables ⟨after, answer, [], []⟩ :=
  ⟨same, fun _ none => absurd none List.not_mem_nil, fun _ none => absurd none List.not_mem_nil⟩

/-- Registering a hidden address is silent. -/
theorem silent_register {displayName : String} (fresh : tables.Fresh supply.userId)
    (covered : secret settings hidden email = true) :
    Silent settings hidden tables
      (register settings supply email password displayName tables) := by
  refine ⟨congrArg Outcome.tables (register_secret covered fresh), fun mail sent => ?_,
    fun job due => ?_⟩
  · rw [register] at sent
    split_ifs at sent <;> simp_all [refuse, Mail.recipient]
  · rw [register] at due
    split_ifs at due <;> simp_all [refuse]

/-- What refuses unless it finds a row whose use is silent is silent. -/
theorem silent_orRefuse {α : Type} {found : Option α} {statusCode : Nat} {detail : String}
    {body : α → Outcome}
    (bodies : ∀ row, found = some row → Silent settings hidden tables (body row)) :
    Silent settings hidden tables (orRefuse found tables statusCode detail body) := by
  cases found with
  | none => exact silent_refuse statusCode detail
  | some row => exact bodies row rfl

/-- Using what is hidden is silent. -/
theorem silent_verifyEmail
    (secretly : Request.Private settings hidden tables (.verifyEmail token)) :
    Silent settings hidden tables (verifyEmail settings supply token tables) := by
  refine silent_orRefuse fun row found => ?_
  obtain ⟨member, named⟩ := KeyedRows.of_find? found
  have unseen := secretly row member named
  refine silent_orRefuse fun user known => ?_
  rw [← (Tables.mem_of_lockLiveUser known).2] at unseen
  split_ifs
  · exact silent_refuse _ _
  · exact silent_refuse _ _
  · exact silent_of_visible (by
      simp [startSession, Tables.visible_insertSession, unseen, Tables.useVerifications_visible,
        Tables.setUser_visible])

theorem silent_confirmPasswordReset
    (secretly : Request.Private settings hidden tables (.confirmPasswordReset token password)) :
    Silent settings hidden tables
      (confirmPasswordReset settings supply token password tables) := by
  rw [confirmPasswordReset]
  split_ifs
  · exact silent_refuse _ _
  refine silent_orRefuse fun row found => ?_
  obtain ⟨member, named⟩ := KeyedRows.of_find? found
  have unseen := secretly row member named
  refine silent_orRefuse fun user known => ?_
  rw [← (Tables.mem_of_lockLiveUser known).2] at unseen
  exact silent_of_visible (by
    simp [Tables.spendReset_visible secretly, unseen, Tables.voidEmailChanges_visible,
      Tables.setUser_visible, Tables.revokeUserSessions_visible])

theorem silent_login (distinct : tables.Distinct)
    (covered : secret settings hidden email = true) :
    Silent settings hidden tables (login settings supply email password tables) := by
  refine silent_orRefuse fun user found => ?_
  obtain ⟨member, rfl⟩ := Tables.mem_of_userOf found
  have unseen := Tables.unseen_of_secret distinct member covered
  split_ifs
  · exact silent_refuse _ _
  · exact silent_refuse _ _
  · exact silent_of_visible (by simp [startSession, Tables.visible_insertSession, unseen])

theorem silent_confirmOwnEmailChange
    (secretly : Request.Private settings hidden tables (.confirmOwnEmailChange token)) :
    Silent settings hidden tables (confirmOwnEmailChange settings supply token tables) := by
  refine silent_orRefuse fun row found => ?_
  obtain ⟨member, named⟩ := KeyedRows.of_find? found
  obtain ⟨unseen, covered⟩ := secretly row member named
  refine silent_orRefuse fun user known => ?_
  rw [← (Tables.mem_of_lockLiveUser known).2] at unseen
  split_ifs
  · exact silent_refuse _ _
  · have covers : ∀ other ∈ ((tables.useResets user.id supply.now).spendChange token
        supply.now).users, other.id = user.id → secret settings hidden other.email =
          secret settings hidden row.newEmail := fun other member here =>
      (Tables.sees_eq_false.mp unseen other member here).trans covered.symm
    refine silent_of_visible ?_
    rw [Tables.visible_setEmail covers, Tables.visible_spendChange, Tables.visible_useResets,
      Tables.useResets_visible unseen, Tables.spendChange_visible fun row member named =>
        (secretly row member named).1, Tables.setUser_visible unseen]

/-- A route behind a session of an account that is not seen. -/
theorem silent_authenticated {token : Option Token} {body : UserSession → User → Tables → Outcome}
    (secretly : ∀ row ∈ tables.sessions, some row.token = token →
      tables.sees settings hidden row.userId = false)
    (silent : ∀ session user rows, some session.token = token →
      rows.visible settings hidden = tables.visible settings hidden →
        tables.sees settings hidden user.id = false →
          secret settings hidden user.email = true →
            Silent settings hidden tables (body session user rows)) :
    Silent settings hidden tables (authenticated settings supply token tables body) := by
  refine silent_orRefuse fun token presented => silent_orRefuse fun found resolved => ?_
  obtain ⟨session, user⟩ := found
  obtain ⟨member, here, listed, named⟩ := Tables.of_resolveSession resolved
  have ours : ∀ row ∈ tables.sessions, row.token = session.token →
      tables.sees settings hidden row.userId = false := fun row member same =>
    secretly row member ((congrArg some (same.trans here)).trans presented.symm)
  have unseen := ours session member rfl
  rw [← named] at unseen
  refine silent session user _ ((congrArg some here).trans presented.symm) ?_ unseen
    (Tables.sees_eq_false.mp unseen user listed rfl)
  rw [Tables.visible_slideIdleClock]
  exact Tables.slideIdleClock_visible ours

/-- A request under a hidden session is silent. -/
theorem silent_me {token : Option Token}
    (secretly : Request.Private settings hidden tables (.me token)) :
    Silent settings hidden tables (me settings supply token tables) :=
  silent_authenticated secretly fun _ _ _ _ same _ _ => silent_of_visible same

theorem silent_logout {token : Option Token}
    (secretly : Request.Private settings hidden tables (.logout token)) :
    Silent settings hidden tables (logout settings supply token tables) := by
  refine silent_authenticated secretly fun session user rows named same _ _ => ?_
  refine silent_of_visible ?_
  rw [Tables.visible_revokeSession, same]
  exact Tables.revokeSession_visible fun row member here =>
    secretly row member ((congrArg some here).trans named)

theorem silent_changePassword {token : Option Token} {newPassword : String}
    (secretly : Request.Private settings hidden tables
      (.changePassword token password newPassword)) :
    Silent settings hidden tables
      (changePassword settings supply token password newPassword tables) := by
  refine silent_authenticated secretly fun session user rows _ same unseen _ => ?_
  split_ifs
  · exact silent_of_visible same
  · exact silent_of_visible same
  · exact silent_of_visible same
  · exact silent_of_visible (by simp [same, unseen, Tables.voidEmailChanges_visible,
      Tables.setUser_visible, Tables.revokeUserSessions_visible])

theorem silent_requestEmailChange {token : Option Token}
    (secretly : Request.Private settings hidden tables
      (.requestEmailChange token email password)) :
    Silent settings hidden tables
      (requestEmailChange settings supply token email password tables) := by
  refine silent_authenticated secretly.2 fun session user rows _ same unseen covered => ?_
  by_cases disposable : settings.disposableEmail email = true
  · rw [if_pos disposable]
    exact silent_of_visible same
  rw [if_neg disposable]
  by_cases wrong : user.passwordHash ≠ some password
  · rw [if_pos wrong]
    exact silent_of_visible same
  rw [if_neg wrong]
  refine ⟨?_, fun mail sent => ?_, fun _ none => absurd none List.not_mem_nil⟩
  · simp [Tables.visible_insertChange, same, unseen, Tables.voidEmailChanges_visible]
  · obtain confirmation | notice := List.mem_append.mp sent
    · split_ifs at confirmation with taken
      · exact absurd confirmation List.not_mem_nil
      · rw [List.mem_singleton.mp confirmation]
        exact secretly.1
    · rw [List.mem_singleton.mp notice]
      exact covered

/-- **What is private is silent.** -/
theorem silent_handle {request : Request} (distinct : tables.Distinct)
    (fresh : tables.Fresh supply.userId)
    (secretly : Request.Private settings hidden tables request) :
    Silent settings hidden tables (handle settings supply tables request) := by
  cases request with
  | register email password displayName => exact silent_register fresh secretly
  | verifyEmail token => exact silent_verifyEmail secretly
  | resendVerification _ | requestPasswordReset _ =>
      exact ⟨rfl, fun _ none => absurd none List.not_mem_nil, fun job due => by
        rw [List.mem_singleton.mp due]
        exact secretly⟩
  | checkPasswordResetToken token => exact silent_of_visible rfl
  | confirmPasswordReset token newPassword => exact silent_confirmPasswordReset secretly
  | login email password => exact silent_login distinct secretly
  | confirmOwnEmailChange token => exact silent_confirmOwnEmailChange secretly
  | me token => exact silent_me secretly
  | logout token => exact silent_logout secretly
  | changePassword token currentPassword newPassword => exact silent_changePassword secretly
  | requestEmailChange token newEmail password => exact silent_requestEmailChange secretly

/-- Work at a secret address. -/
theorem silent_work (supply : Supply) {job : Deferred} (distinct : tables.Distinct)
    (covered : secret settings hidden job.email = true) :
    (work settings supply tables job).1.visible settings hidden = tables.visible settings hidden ∧
      ∀ mail ∈ (work settings supply tables job).2,
        secret settings hidden mail.recipient = true := by
  have blank : ∀ mail ∈ ([] : List Mail), secret settings hidden mail.recipient = true :=
    fun _ none => absurd none List.not_mem_nil
  cases job with
  | resendVerificationLink email =>
      rw [work, resendVerificationLink]
      cases found : tables.userOf email with
      | none => exact ⟨rfl, blank⟩
      | some user =>
          obtain ⟨member, rfl⟩ := Tables.mem_of_userOf found
          have unseen := Tables.unseen_of_secret distinct member covered
          dsimp only
          split_ifs
          · exact ⟨rfl, blank⟩
          · exact ⟨rfl, blank⟩
          · refine ⟨?_, fun mail sent => ?_⟩
            · simp [issueEmailVerification, Tables.visible_insertVerification, unseen]
            · rw [List.mem_singleton.mp sent]
              exact covered
  | issuePasswordResetLink email =>
      rw [work, issuePasswordResetLink]
      cases found : tables.userOf email with
      | none => exact ⟨rfl, blank⟩
      | some user =>
          obtain ⟨member, rfl⟩ := Tables.mem_of_userOf found
          have unseen := Tables.unseen_of_secret distinct member covered
          refine ⟨?_, fun mail sent => ?_⟩
          · simp [Tables.visible_insertReset, unseen, Tables.useResets_visible]
          · rw [List.mem_singleton.mp sent]
            exact covered

/-- Mail to secret addresses is not observed. -/
theorem filter_eq_nil_of_secret {mails : List Mail}
    (covered : ∀ mail ∈ mails, secret settings hidden mail.recipient = true) :
    mails.filter (fun mail => !secret settings hidden mail.recipient) = [] :=
  List.filter_eq_nil_iff.mpr fun mail sent => by simp [covered mail sent]

/-- Deferred work is done as it is seen. -/
theorem work_visible {job : Deferred} (distinct : tables.Distinct) :
    (work settings supply tables job).1.visible settings hidden =
        (work settings supply (tables.visible settings hidden) job).1.visible settings hidden ∧
      (work settings supply tables job).2.filter
          (fun mail => !secret settings hidden mail.recipient) =
        (work settings supply (tables.visible settings hidden) job).2.filter
          fun mail => !secret settings hidden mail.recipient := by
  by_cases covered : secret settings hidden job.email = true
  · obtain ⟨same, silent⟩ := silent_work supply distinct covered
    obtain ⟨same', silent'⟩ := silent_work supply distinct.visible covered
    rw [same, same', Tables.visible_visible]
    refine ⟨rfl, ?_⟩
    rw [filter_eq_nil_of_secret silent, filter_eq_nil_of_secret silent']
  · have bare := eq_false_of_ne_true covered
    cases job with
    | resendVerificationLink email =>
        have named : (tables.visible settings hidden).userOf email = tables.userOf email :=
          Tables.userOf_visible bare
        rw [work, work, resendVerificationLink, resendVerificationLink, named]
        cases found : tables.userOf email with
        | none => simp
        | some user =>
            obtain ⟨member, rfl⟩ := Tables.mem_of_userOf found
            have seen := Tables.sees_eq_true.mpr ⟨user, member, rfl, bare⟩
            have recent : (tables.visible settings hidden).emailVerificationTokens.any (fun row =>
                row.userId = user.id && row.createdAt > supply.now - 60000000) =
                  tables.emailVerificationTokens.any fun row =>
                    row.userId = user.id && row.createdAt > supply.now - 60000000 :=
              KeyedRows.any_filter fun row _ passes => by
                rw [of_decide_eq_true (Bool.and_eq_true_iff.mp passes).1, seen]
            dsimp only
            rw [recent]
            split_ifs
            · simp
            · simp
            · simp [issueEmailVerification, Tables.visible_insertVerification]
    | issuePasswordResetLink email =>
        have named : (tables.visible settings hidden).userOf email = tables.userOf email :=
          Tables.userOf_visible bare
        rw [work, work, issuePasswordResetLink, issuePasswordResetLink, named]
        cases tables.userOf email with
        | none => simp
        | some user => simp [Tables.visible_insertReset]

end Private

end FrontDashboard.Probes
