import FrontDashboard.Auth.Probes
import FrontDashboard.Library.KeyedRows

/-! # What is visible of the accounts

Some addresses are secret. The accounts at the others are visible, with their rows; what is read of
them, or written to them, is the same among themselves as among all accounts.
-/

namespace FrontDashboard.Probes

open Auth (Time)

variable (settings : Settings) (hidden : String → Bool)

/-- The prober does not read the address's mail. -/
def secret (email : String) : Bool := hidden (settings.lower email)

variable {settings hidden} in
/-- Whether an address is secret depends on it in lower case. -/
theorem secret_eq_of_lower {email other : String}
    (same : settings.lower email = settings.lower other) :
    secret settings hidden email = secret settings hidden other :=
  congrArg hidden same

namespace Tables

variable {settings hidden} (tables : Tables) {id : UserId} {now : Time} {token : Token}

variable (settings hidden) in
/-- The account is one of an address that is not secret. -/
def sees (id : UserId) : Bool :=
  tables.users.any fun user => user.id = id && !secret settings hidden user.email

variable (settings hidden) in
/-- The accounts whose addresses are not secret, and the rows of some accounts. -/
def among (seen : UserId → Bool) : Tables where
  users := tables.users.filter fun user => !secret settings hidden user.email
  sessions := tables.sessions.filter fun row => seen row.userId
  emailVerificationTokens := tables.emailVerificationTokens.filter fun row => seen row.userId
  passwordResetTokens := tables.passwordResetTokens.filter fun row => seen row.userId
  emailChangeTokens := tables.emailChangeTokens.filter fun row => seen row.userId

variable (settings hidden) in
/-- The accounts whose addresses are not secret, with their rows. -/
def visible : Tables := tables.among settings hidden (tables.sees settings hidden)

/-- Each id is of one account. -/
def Distinct : Prop := (tables.users.map (·.id)).Nodup

variable {tables}

/-- An account is seen when the address of its row is not secret. -/
theorem sees_eq_true : tables.sees settings hidden id = true ↔
    ∃ user ∈ tables.users, user.id = id ∧ secret settings hidden user.email = false := by
  simp [sees]

/-- An account is not seen when the addresses of all its rows are secret. -/
theorem sees_eq_false : tables.sees settings hidden id = false ↔
    ∀ user ∈ tables.users, user.id = id → secret settings hidden user.email = true := by
  simp [sees]

/-- What is seen is seen among the visible rows. -/
@[simp] theorem sees_visible :
    (tables.visible settings hidden).sees settings hidden id = tables.sees settings hidden id :=
  KeyedRows.any_filter fun _ _ passes => (Bool.and_eq_true_iff.mp passes).2

/-- The visible rows are all visible. -/
@[simp] theorem visible_visible :
    (tables.visible settings hidden).visible settings hidden = tables.visible settings hidden := by
  have same : (tables.visible settings hidden).sees settings hidden =
      tables.sees settings hidden := funext fun _ => sees_visible
  rw [visible, same, visible, among]
  simp [among]

/-- The visible rows have distinct keys. -/
theorem Distinct.visible (distinct : tables.Distinct) :
    (tables.visible settings hidden).Distinct :=
  distinct.sublist (List.filter_sublist.map _)

/-! ## Reading -/

/-- All rows of an account that is seen have an address that is not secret. -/
theorem covers_of_sees (distinct : tables.Distinct) (seen : tables.sees settings hidden id = true) :
    ∀ user ∈ tables.users, user.id = id → secret settings hidden user.email = false := by
  intro user member here
  obtain ⟨other, member', rfl, bare⟩ := sees_eq_true.mp seen
  rwa [List.inj_on_of_nodup_map distinct member member' here]

/-- An account that is seen is found among the visible rows as it is among all. -/
theorem lockLiveUser_visible (distinct : tables.Distinct)
    (seen : tables.sees settings hidden id = true) :
    (tables.visible settings hidden).lockLiveUser id = tables.lockLiveUser id := by
  refine KeyedRows.find?_filter fun user member passes => ?_
  have here : user.id = id := of_decide_eq_true (Bool.and_eq_true_iff.mp passes).1
  rw [covers_of_sees distinct seen user member here]
  rfl

/-- The row that is found is one of the account. -/
theorem mem_of_lockLiveUser {user : User} (found : tables.lockLiveUser id = some user) :
    user ∈ tables.users ∧ user.id = id :=
  KeyedRows.of_find? found

/-- The session that a request presents is resolved as it is seen. -/
theorem resolveSession_visible (distinct : tables.Distinct)
    (known : ∀ row ∈ tables.sessions, row.token = token →
      tables.sees settings hidden row.userId = true) :
    (tables.visible settings hidden).resolveSession settings now token =
      tables.resolveSession settings now token := by
  have named : (tables.visible settings hidden).sessions.find? (fun row =>
      row.token = token && row.live settings now) =
        tables.sessions.find? fun row => row.token = token && row.live settings now :=
    KeyedRows.find?_filter fun row member passes =>
      known row member (of_decide_eq_true (Bool.and_eq_true_iff.mp passes).1)
  rw [resolveSession, resolveSession, named]
  cases found : tables.sessions.find? fun row => row.token = token && row.live settings now with
  | none => rfl
  | some session =>
      obtain ⟨member, here⟩ := KeyedRows.of_find? found
      have seen := known session member here
      exact congrArg (Option.map fun user => (session, user)) (lockLiveUser_visible distinct seen)

/-- The row that is found is one of the address. -/
theorem mem_of_userOf {email : String} {user : User} (found : tables.userOf email = some user) :
    user ∈ tables.users ∧ user.email = email :=
  KeyedRows.of_find? found

/-- The session that is resolved, and its account. -/
theorem of_resolveSession {session : UserSession} {user : User}
    (found : tables.resolveSession settings now token = some (session, user)) :
    session ∈ tables.sessions ∧ session.token = token ∧ user ∈ tables.users ∧
      user.id = session.userId := by
  obtain ⟨row, named, resolved⟩ := Option.bind_eq_some_iff.mp found
  obtain ⟨known, locked, same⟩ := Option.map_eq_some_iff.mp resolved
  cases same
  obtain ⟨member, here⟩ := KeyedRows.of_find? named
  exact ⟨member, here, mem_of_lockLiveUser locked⟩

/-- An account that is not secret is found among the visible rows as it is among all. -/
theorem userOf_visible {email : String} (bare : secret settings hidden email = false) :
    (tables.visible settings hidden).userOf email = tables.userOf email := by
  refine KeyedRows.find?_filter fun user _ passes => ?_
  rw [of_decide_eq_true (Bool.and_eq_true_iff.mp passes).1, bare]
  rfl

/-- The account of a secret address. -/
theorem unseen_of_secret (distinct : tables.Distinct) {user : User} (member : user ∈ tables.users)
    (covered : secret settings hidden user.email = true) :
    tables.sees settings hidden user.id = false := by
  refine eq_false_of_ne_true fun seen => ?_
  rw [covers_of_sees distinct seen user member rfl] at covered
  cases covered

/-- A secret account is not found among the visible. -/
theorem userOf_visible_eq_none {email : String} (covered : secret settings hidden email = true) :
    (tables.visible settings hidden).userOf email = none := by
  refine List.find?_eq_none.mpr fun user member passes => ?_
  have bare := (List.mem_filter.mp member).2
  rw [of_decide_eq_true (Bool.and_eq_true_iff.mp passes).1, covered] at bare
  cases bare

/-! ## Writing -/

section Rows

variable {Row : Type} (account : Row → UserId) (rows : List Row) (store : List Row → Tables)

/-- Rows of accounts are updated alike among the visible ones and among all. -/
theorem store_map {change : Row → Row} (keeps : ∀ row, account (change row) = account row) :
    store ((rows.map change).filter fun row => tables.sees settings hidden (account row)) =
      store ((rows.filter fun row => tables.sees settings hidden (account row)).map change) :=
  congrArg store (KeyedRows.filter_map _ change rows fun row _ => by rw [keeps])

/-- A row is added to the visible ones when its account is seen. -/
theorem store_concat (row : Row) :
    store ((rows ++ [row]).filter fun row => tables.sees settings hidden (account row)) =
      if (tables.visible settings hidden).sees settings hidden (account row) = true then
        store ((rows.filter fun row => tables.sees settings hidden (account row)) ++ [row])
      else store (rows.filter fun row => tables.sees settings hidden (account row)) := by
  rw [sees_visible, KeyedRows.filter_concat]
  split_ifs <;> rfl

variable {account rows}

/-- What only unseen accounts have is not among the visible rows. -/
theorem not_of_unseen {named : Row → Prop}
    (unseen : ∀ row ∈ rows, named row → tables.sees settings hidden (account row) = false)
    {row : Row}
    (member : row ∈ rows.filter fun row => tables.sees settings hidden (account row)) :
    ¬ named row := by
  intro isNamed
  obtain ⟨listed, seen⟩ := List.mem_filter.mp member
  rw [unseen row listed isNamed] at seen
  cases seen

end Rows

/-- Rows are updated alike among the visible ones and among all. -/
theorem visible_updateSessions {change : UserSession → UserSession}
    (keeps : ∀ row, (change row).userId = row.userId) :
    (tables.updateSessions change).visible settings hidden =
      (tables.visible settings hidden).updateSessions change :=
  store_map UserSession.userId tables.sessions
    (fun rows => { tables.visible settings hidden with sessions := rows }) keeps

theorem visible_updateVerifications {change : EmailVerificationToken → EmailVerificationToken}
    (keeps : ∀ row, (change row).userId = row.userId) :
    (tables.updateVerifications change).visible settings hidden =
      (tables.visible settings hidden).updateVerifications change :=
  store_map EmailVerificationToken.userId tables.emailVerificationTokens
    (fun rows => { tables.visible settings hidden with emailVerificationTokens := rows }) keeps

theorem visible_updateResets {change : PasswordResetToken → PasswordResetToken}
    (keeps : ∀ row, (change row).userId = row.userId) :
    (tables.updateResets change).visible settings hidden =
      (tables.visible settings hidden).updateResets change :=
  store_map PasswordResetToken.userId tables.passwordResetTokens
    (fun rows => { tables.visible settings hidden with passwordResetTokens := rows }) keeps

theorem visible_updateChanges {change : EmailChangeToken → EmailChangeToken}
    (keeps : ∀ row, (change row).userId = row.userId) :
    (tables.updateChanges change).visible settings hidden =
      (tables.visible settings hidden).updateChanges change :=
  store_map EmailChangeToken.userId tables.emailChangeTokens
    (fun rows => { tables.visible settings hidden with emailChangeTokens := rows }) keeps

/-- So what is done to the links and the sessions of an account is done alike in both. -/
@[simp] theorem visible_useVerifications :
    (tables.useVerifications id now).visible settings hidden =
      (tables.visible settings hidden).useVerifications id now :=
  visible_updateVerifications fun _ => by split_ifs <;> rfl

@[simp] theorem visible_useResets : (tables.useResets id now).visible settings hidden =
    (tables.visible settings hidden).useResets id now :=
  visible_updateResets fun _ => by split_ifs <;> rfl

@[simp] theorem visible_spendReset : (tables.spendReset token now).visible settings hidden =
    (tables.visible settings hidden).spendReset token now :=
  visible_updateResets fun _ => by split_ifs <;> rfl

@[simp] theorem visible_voidEmailChanges :
    (tables.voidEmailChanges id now).visible settings hidden =
      (tables.visible settings hidden).voidEmailChanges id now :=
  visible_updateChanges fun _ => by split_ifs <;> rfl

@[simp] theorem visible_spendChange : (tables.spendChange token now).visible settings hidden =
    (tables.visible settings hidden).spendChange token now :=
  visible_updateChanges fun _ => by split_ifs <;> rfl

@[simp] theorem visible_revokeUserSessions {spared : Option Token} :
    (tables.revokeUserSessions id spared now).visible settings hidden =
      (tables.visible settings hidden).revokeUserSessions id spared now :=
  visible_updateSessions fun _ => by split_ifs <;> rfl

@[simp] theorem visible_revokeSession : (tables.revokeSession token now).visible settings hidden =
    (tables.visible settings hidden).revokeSession token now :=
  visible_updateSessions fun _ => by split_ifs <;> rfl

@[simp] theorem visible_slideIdleClock {session : UserSession} :
    (tables.slideIdleClock session now).visible settings hidden =
      (tables.visible settings hidden).slideIdleClock session now := by
  rw [slideIdleClock, slideIdleClock]
  split_ifs
  · rfl
  · exact visible_updateSessions fun _ => by split_ifs <;> rfl

/-- A row of an account is changed alike in both, if its address stays as secret as it was. -/
theorem visible_setUser {change : User → User} (keeps : ∀ user, (change user).id = user.id)
    (covers : ∀ user ∈ tables.users, user.id = id →
      secret settings hidden (change user).email = secret settings hidden user.email) :
    (tables.setUser id change).visible settings hidden =
      (tables.visible settings hidden).setUser id change := by
  have seen : (tables.setUser id change).sees settings hidden = tables.sees settings hidden := by
    funext other
    rw [sees, setUser, List.any_map]
    refine Bool.eq_iff_iff.mpr ?_
    simp only [List.any_eq_true, Function.comp_apply, sees]
    refine exists_congr fun user => and_congr_right fun member => ?_
    split_ifs with here
    · rw [keeps, covers user member here]
    · rfl
  have kept := KeyedRows.filter_map (fun user => !secret settings hidden user.email)
    (fun user => if user.id = id then change user else user) tables.users fun user member => by
      split_ifs with here
      · rw [covers user member here]
      · rfl
  rw [visible, seen]
  exact congrArg (fun rows => { tables.visible settings hidden with users := rows }) kept

/-- An account is verified alike among the visible rows and among all. -/
@[simp] theorem visible_verify : (tables.setUser id (.verify now)).visible settings hidden =
    (tables.visible settings hidden).setUser id (.verify now) :=
  visible_setUser (fun _ => rfl) fun _ _ _ => rfl

@[simp] theorem visible_setPassword {password : String} :
    (tables.setUser id (.setPassword password)).visible settings hidden =
      (tables.visible settings hidden).setUser id (.setPassword password) :=
  visible_setUser (fun _ => rfl) fun _ _ _ => rfl

/-- An address is set alike in both, if it is as secret as the one before. -/
theorem visible_setEmail {email : String} (covers : ∀ user ∈ tables.users, user.id = id →
      secret settings hidden user.email = secret settings hidden email) :
    (tables.setUser id (.setEmail email)).visible settings hidden =
      (tables.visible settings hidden).setUser id (.setEmail email) :=
  visible_setUser (fun _ => rfl) fun user member here => (covers user member here).symm

/-! ## Writing what is not seen -/

/-- An update that changes no row is none. -/
theorem updateSessions_eq_self {change : UserSession → UserSession}
    (same : ∀ row ∈ tables.sessions, change row = row) : tables.updateSessions change = tables :=
  congrArg (fun rows => { tables with sessions := rows })
    ((List.map_congr_left same).trans (List.map_id _))

theorem updateVerifications_eq_self {change : EmailVerificationToken → EmailVerificationToken}
    (same : ∀ row ∈ tables.emailVerificationTokens, change row = row) :
    tables.updateVerifications change = tables :=
  congrArg (fun rows => { tables with emailVerificationTokens := rows })
    ((List.map_congr_left same).trans (List.map_id _))

theorem updateResets_eq_self {change : PasswordResetToken → PasswordResetToken}
    (same : ∀ row ∈ tables.passwordResetTokens, change row = row) :
    tables.updateResets change = tables :=
  congrArg (fun rows => { tables with passwordResetTokens := rows })
    ((List.map_congr_left same).trans (List.map_id _))

theorem updateChanges_eq_self {change : EmailChangeToken → EmailChangeToken}
    (same : ∀ row ∈ tables.emailChangeTokens, change row = row) :
    tables.updateChanges change = tables :=
  congrArg (fun rows => { tables with emailChangeTokens := rows })
    ((List.map_congr_left same).trans (List.map_id _))

section Unseen

variable (unseen : tables.sees settings hidden id = false)

include unseen

/-- No row that is seen is of an account that is not. -/
theorem ne_of_unseen {other : UserId} (seen : tables.sees settings hidden other = true) :
    other ≠ id := by
  rintro rfl
  rw [unseen] at seen
  cases seen

/-- The visible rows have nothing of an account that is not seen to use up, revoke or change. -/
theorem useVerifications_visible :
    (tables.visible settings hidden).useVerifications id now = tables.visible settings hidden :=
  updateVerifications_eq_self fun _ member =>
    if_neg fun named => ne_of_unseen unseen (List.mem_filter.mp member).2 named.1

theorem useResets_visible :
    (tables.visible settings hidden).useResets id now = tables.visible settings hidden :=
  updateResets_eq_self fun _ member =>
    if_neg fun named => ne_of_unseen unseen (List.mem_filter.mp member).2 named.1

theorem voidEmailChanges_visible :
    (tables.visible settings hidden).voidEmailChanges id now = tables.visible settings hidden :=
  updateChanges_eq_self fun _ member =>
    if_neg fun named => ne_of_unseen unseen (List.mem_filter.mp member).2 named.1

theorem revokeUserSessions_visible {spared : Option Token} :
    (tables.visible settings hidden).revokeUserSessions id spared now =
      tables.visible settings hidden :=
  updateSessions_eq_self fun _ member =>
    if_neg fun named => ne_of_unseen unseen (List.mem_filter.mp member).2 named.1

theorem setUser_visible {change : User → User} :
    (tables.visible settings hidden).setUser id change = tables.visible settings hidden := by
  refine congrArg (fun rows => { tables.visible settings hidden with users := rows })
    ((List.map_congr_left fun user member => if_neg fun here => ?_).trans (List.map_id _))
  obtain ⟨listed, bare⟩ := List.mem_filter.mp member
  rw [sees_eq_false.mp unseen user listed here] at bare
  cases bare

end Unseen

/-- A link that only unseen accounts have is not among the visible ones. -/
theorem spendReset_visible (unseen : ∀ row ∈ tables.passwordResetTokens,
    row.token = token → tables.sees settings hidden row.userId = false) :
    (tables.visible settings hidden).spendReset token now = tables.visible settings hidden :=
  updateResets_eq_self fun _ member => if_neg fun named =>
    not_of_unseen unseen member named.1

theorem spendChange_visible (unseen : ∀ row ∈ tables.emailChangeTokens,
    row.token = token → tables.sees settings hidden row.userId = false) :
    (tables.visible settings hidden).spendChange token now = tables.visible settings hidden :=
  updateChanges_eq_self fun _ member => if_neg fun named =>
    not_of_unseen unseen member named.1

/-- A session that only unseen accounts have is not among the visible ones. -/
theorem revokeSession_visible (unseen : ∀ row ∈ tables.sessions,
    row.token = token → tables.sees settings hidden row.userId = false) :
    (tables.visible settings hidden).revokeSession token now = tables.visible settings hidden :=
  updateSessions_eq_self fun _ member => if_neg fun named =>
    not_of_unseen unseen member named.1

/-- The idle clock of an unseen session is not set among the visible ones. -/
theorem slideIdleClock_visible {session : UserSession} (unseen : ∀ row ∈ tables.sessions,
    row.token = session.token → tables.sees settings hidden row.userId = false) :
    (tables.visible settings hidden).slideIdleClock session now =
      tables.visible settings hidden := by
  rw [slideIdleClock]
  split_ifs
  · rfl
  · exact updateSessions_eq_self fun row member => if_neg (not_of_unseen unseen member)

/-- A row is added to the visible ones when its account is seen. -/
theorem visible_insertSession {row : UserSession} :
    (tables.insertSession row).visible settings hidden =
      if (tables.visible settings hidden).sees settings hidden row.userId = true then
        (tables.visible settings hidden).insertSession row
      else tables.visible settings hidden :=
  store_concat UserSession.userId tables.sessions
    (fun rows => { tables.visible settings hidden with sessions := rows }) row

theorem visible_insertVerification {row : EmailVerificationToken} :
    (tables.insertVerification row).visible settings hidden =
      if (tables.visible settings hidden).sees settings hidden row.userId = true then
        (tables.visible settings hidden).insertVerification row
      else tables.visible settings hidden :=
  store_concat EmailVerificationToken.userId tables.emailVerificationTokens
    (fun rows => { tables.visible settings hidden with emailVerificationTokens := rows }) row

theorem visible_insertReset {row : PasswordResetToken} :
    (tables.insertReset row).visible settings hidden =
      if (tables.visible settings hidden).sees settings hidden row.userId = true then
        (tables.visible settings hidden).insertReset row
      else tables.visible settings hidden :=
  store_concat PasswordResetToken.userId tables.passwordResetTokens
    (fun rows => { tables.visible settings hidden with passwordResetTokens := rows }) row

theorem visible_insertChange {row : EmailChangeToken} :
    (tables.insertChange row).visible settings hidden =
      if (tables.visible settings hidden).sees settings hidden row.userId = true then
        (tables.visible settings hidden).insertChange row
      else tables.visible settings hidden :=
  store_concat EmailChangeToken.userId tables.emailChangeTokens
    (fun rows => { tables.visible settings hidden with emailChangeTokens := rows }) row

variable (tables) in
/-- Nobody has the id. -/
def Fresh (id : UserId) : Prop :=
  (∀ user ∈ tables.users, user.id ≠ id) ∧ (∀ row ∈ tables.sessions, row.userId ≠ id) ∧
    (∀ row ∈ tables.emailVerificationTokens, row.userId ≠ id) ∧
      (∀ row ∈ tables.passwordResetTokens, row.userId ≠ id) ∧
        ∀ row ∈ tables.emailChangeTokens, row.userId ≠ id

instance : Decidable (tables.Fresh id) := inferInstanceAs (Decidable (_ ∧ _ ∧ _ ∧ _ ∧ _))

/-- An id that is fresh is so among the visible rows. -/
theorem Fresh.visible (fresh : tables.Fresh id) : (tables.visible settings hidden).Fresh id :=
  ⟨fun user member => fresh.1 user (List.mem_of_mem_filter member),
    fun row member => fresh.2.1 row (List.mem_of_mem_filter member),
    fun row member => fresh.2.2.1 row (List.mem_of_mem_filter member),
    fun row member => fresh.2.2.2.1 row (List.mem_of_mem_filter member),
    fun row member => fresh.2.2.2.2 row (List.mem_of_mem_filter member)⟩

/-- An account that is new has no rows yet. -/
theorem visible_insertUser {user : User} (fresh : tables.Fresh user.id) :
    (tables.insertUser user).visible settings hidden =
      if secret settings hidden user.email = true then tables.visible settings hidden
      else (tables.visible settings hidden).insertUser user := by
  have seen : ∀ id, id ≠ user.id → (tables.insertUser user).sees settings hidden id =
      tables.sees settings hidden id := by
    intro id other
    simp [insertUser, sees, other.symm]
  obtain ⟨-, sessions, verifications, resets, changes⟩ := fresh
  have kept := KeyedRows.filter_concat (fun user => !secret settings hidden user.email)
    tables.users user
  have same : (tables.insertUser user).visible settings hidden =
      { tables.visible settings hidden with
        users := (tables.insertUser user).users.filter fun user =>
          !secret settings hidden user.email } := by
    rw [visible, among, visible, among]
    congr 1
    · exact List.filter_congr fun row member => seen _ (sessions row member)
    · exact List.filter_congr fun row member => seen _ (verifications row member)
    · exact List.filter_congr fun row member => seen _ (resets row member)
    · exact List.filter_congr fun row member => seen _ (changes row member)
  rw [same, insertUser, kept]
  cases secret settings hidden user.email <;> rfl

end Tables

end FrontDashboard.Probes
