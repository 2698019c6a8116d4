import FrontDashboard.Auth.Routes

/-! # What a new password ends

A committed password write leaves no usable session, other than the one it
spares, and no usable email-change token that was authorised against an older
password, in every run in which a login commits only while the hash it verified
is still the stored one, and a password write commits only if no session row
appeared after its revocation statement. Both provisos are needed: `login` takes
no lock, so a session can become visible behind the revocation that should have
ended it.
-/

namespace FrontDashboard.Auth

open ReadCommitted

/-- No session but the spared one, and no email-change token, authorised before
a committed password write is usable. -/
def OldPasswordEnded (settings : Settings) (rows : Rows) : Prop :=
  ∀ write ∈ rows.passwordWrites,
    (∀ session ∈ rows.sessions, session.live settings rows.now = true →
      session.checked.generation < write.generation → write.spared = some session.id) ∧
    ∀ token ∈ rows.emailChangeTokens, token.live rows.now = true →
      ¬ token.checked.generation < write.generation

/-- A commit that adds a session is admitted while the hash the login verified is
the stored one; a commit that revokes sessions is admitted while the account has
no more session rows than its revocation saw. -/
def AdmitsWrite (rows : Rows) : Write → Prop
  | .insertSession session => session.checked = rows.user.passwordHash
  | .revokeSessions _ _ seen => rows.sessions.length ≤ seen
  | _ => True

def Admits (rows : Rows) (pending : List Write) : Prop :=
  ∀ write ∈ pending, AdmitsWrite rows write

instance (rows : Rows) : DecidablePred (AdmitsWrite rows)
  | .insertSession session =>
      inferInstanceAs (Decidable (session.checked = rows.user.passwordHash))
  | .revokeSessions _ _ seen => inferInstanceAs (Decidable (rows.sessions.length ≤ seen))
  | .slideSession _ _ | .setPasswordHash _ _ | .setEmail _ | .insertEmailChangeToken _
  | .spendEmailChangeTokens _ _ | .spendPasswordResetTokens _ _ => .isTrue trivial

instance (rows : Rows) (pending : List Write) : Decidable (Admits rows pending) :=
  inferInstanceAs (Decidable (∀ write ∈ pending, AdmitsWrite rows write))

instance (settings : Settings) (rows : Rows) : Decidable (OldPasswordEnded settings rows) :=
  inferInstanceAs (Decidable (∀ write ∈ rows.passwordWrites,
    (∀ session ∈ rows.sessions, session.live settings rows.now = true →
      session.checked.generation < write.generation → write.spared = some session.id) ∧
    ∀ token ∈ rows.emailChangeTokens, token.live rows.now = true →
      ¬ token.checked.generation < write.generation))

/-- The invariant: whatever an older password authorised is revoked, spared or
spent, and the stored hash is the latest password write's. -/
structure Settled (rows : Rows) : Prop where
  latest : ∀ write ∈ rows.passwordWrites,
    write.generation ≤ rows.user.passwordHash.generation
  sessions : ∀ write ∈ rows.passwordWrites, ∀ session ∈ rows.sessions,
    session.checked.generation < write.generation →
      session.revokedAt.isSome = true ∨ write.spared = some session.id
  tokens : ∀ write ∈ rows.passwordWrites, ∀ token ∈ rows.emailChangeTokens,
    token.checked.generation < write.generation → token.usedAt.isSome = true

/-- Settled rows have the old password ended. -/
theorem Settled.oldPasswordEnded {rows : Rows} (settled : Settled rows) (settings : Settings) :
    OldPasswordEnded settings rows := by
  intro write written
  refine ⟨?_, ?_⟩
  · intro session present live older
    rcases settled.sessions write written session present older with revoked | spared
    · simp only [UserSession.live, Bool.and_eq_true, Option.isNone_iff_eq_none] at live
      simp [live.1.1] at revoked
    · exact spared
  · intro token present live older
    have used := settled.tokens write written token present older
    simp only [EmailChangeToken.live, Bool.and_eq_true, Option.isNone_iff_eq_none] at live
    simp [live.1] at used

/-! ## What the lock protects -/

/-- The session rows stay in place, under their names, and revoked ones stay
revoked. -/
def SessionsKept (before after : List UserSession) : Prop :=
  ∀ (index : Nat) (session : UserSession), before[index]? = some session →
    ∃ kept, after[index]? = some kept ∧
    kept.id = session.id ∧ (session.revokedAt.isSome = true → kept.revokedAt.isSome = true)

/-- What others leave alone while a request holds the account's lock. -/
structure Untouched (before after : Rows) : Prop where
  user : after.user = before.user
  emailChangeTokens : after.emailChangeTokens = before.emailChangeTokens
  passwordWrites : after.passwordWrites = before.passwordWrites
  sessions : SessionsKept before.sessions after.sessions

/-- Nothing has changed. -/
theorem SessionsKept.refl (sessions : List UserSession) : SessionsKept sessions sessions :=
  fun _ session present => ⟨session, present, rfl, id⟩

/-- What is kept twice is kept. -/
theorem SessionsKept.trans {first second third : List UserSession}
    (earlier : SessionsKept first second) (later : SessionsKept second third) :
    SessionsKept first third := by
  intro index session present
  obtain ⟨middle, between, sameId, revoked⟩ := earlier index session present
  obtain ⟨final, last, sameId', revoked'⟩ := later index middle between
  exact ⟨final, last, sameId'.trans sameId, revoked' ∘ revoked⟩

/-- A new session keeps the others. -/
theorem SessionsKept.append (sessions added : List UserSession) :
    SessionsKept sessions (sessions ++ added) := by
  intro index session present
  have within : index < sessions.length := (List.getElem?_eq_some_iff.mp present).1
  exact ⟨session, by rw [List.getElem?_append_left within, present], rfl, id⟩

/-- A change that revives no session keeps them. -/
theorem SessionsKept.map (sessions : List UserSession) (change : UserSession → UserSession)
    (sameId : ∀ session, (change session).id = session.id)
    (revoked : ∀ session, session.revokedAt.isSome = true →
      (change session).revokedAt.isSome = true) :
    SessionsKept sessions (sessions.map change) := by
  intro index session present
  exact ⟨change session, by rw [List.getElem?_map, present]; rfl, sameId session,
    revoked session⟩

@[simp] theorem UserSession.slide_id (id : SessionId) (moment : Time) (session : UserSession) :
    (session.slide id moment).id = session.id := by
  unfold UserSession.slide
  split <;> rfl

@[simp] theorem UserSession.slide_revokedAt (id : SessionId) (moment : Time)
    (session : UserSession) : (session.slide id moment).revokedAt = session.revokedAt := by
  unfold UserSession.slide
  split <;> rfl

@[simp] theorem UserSession.slide_checked (id : SessionId) (moment : Time)
    (session : UserSession) : (session.slide id moment).checked = session.checked := by
  unfold UserSession.slide
  split <;> rfl

/-- Revoking leaves the id of a session. -/
@[simp] theorem UserSession.revoke_id (ids : List SessionId) (moment : Time)
    (session : UserSession) : (session.revoke ids moment).id = session.id := by
  unfold UserSession.revoke
  split <;> rfl

/-- Using up a link leaves what password it was asked with. -/
@[simp] theorem EmailChangeToken.spend_checked (ids : List TokenId) (moment : Time)
    (token : EmailChangeToken) : (token.spend ids moment).checked = token.checked := by
  unfold EmailChangeToken.spend
  split <;> rfl

/-- A session is revoked when it was or is named. -/
theorem UserSession.revoke_isSome (ids : List SessionId) (moment : Time) (session : UserSession)
    (ended : session.revokedAt.isSome = true ∨ session.id ∈ ids) :
    (session.revoke ids moment).revokedAt.isSome = true := by
  unfold UserSession.revoke
  split
  · rfl
  next absent => exact ended.resolve_right absent

/-- A link is used up when it was or is named. -/
theorem EmailChangeToken.spend_isSome (ids : List TokenId) (moment : Time)
    (token : EmailChangeToken) (ended : token.usedAt.isSome = true ∨ token.id ∈ ids) :
    (token.spend ids moment).usedAt.isSome = true := by
  unfold EmailChangeToken.spend
  split
  · rfl
  next absent => exact ended.resolve_right absent

/-- Nothing is touched. -/
theorem Untouched.refl (rows : Rows) : Untouched rows rows :=
  ⟨rfl, rfl, rfl, .refl _⟩

/-- What is untouched twice is untouched. -/
theorem Untouched.trans {first second third : Rows} (earlier : Untouched first second)
    (later : Untouched second third) : Untouched first third where
  user := later.user.trans earlier.user
  emailChangeTokens := later.emailChangeTokens.trans earlier.emailChangeTokens
  passwordWrites := later.passwordWrites.trans earlier.passwordWrites
  sessions := earlier.sessions.trans later.sessions

/-- The account's lock guards the user row, the email-change tokens and the
record of password writes; without it a request relies on nothing but the
invariant. -/
def interference : Interference Rows AccountLock where
  invariant := Settled
  rely := fun held before after => .account ∈ held → Untouched before after
  refl := fun _ rows _ => .refl rows
  trans := fun _ _ _ _ earlier later holds => (earlier holds).trans (later holds)

/-- The routes' code, started in a given transaction, keeps the invariant. -/
abbrev Safe {α : Type} (post : α → List Write → Set AccountLock → Rows → Prop)
    (program : Handler α) (pending : List Write) (held : Set AccountLock) (rows : Rows) : Prop :=
  Ensures Rows.perform interference Admits post program pending held rows

/-! ## Commits -/

/-- Rows settled in one state are settled in any state with the same ones. -/
theorem Settled.of_same {rows changed : Rows} (settled : Settled rows)
    (user : changed.user.passwordHash = rows.user.passwordHash)
    (sessions : changed.sessions = rows.sessions)
    (tokens : changed.emailChangeTokens = rows.emailChangeTokens)
    (writes : changed.passwordWrites = rows.passwordWrites) : Settled changed where
  latest := by
    rw [writes, user]
    exact settled.latest
  sessions := by
    rw [writes, sessions]
    exact settled.sessions
  tokens := by
    rw [writes, tokens]
    exact settled.tokens

/-- Using up reset links keeps the rows settled. -/
theorem Settled.spendPasswordResetTokens {rows : Rows} (settled : Settled rows)
    (ids : List TokenId) (moment : Time) :
    Settled (rows.perform (.spendPasswordResetTokens ids moment)) :=
  settled.of_same rfl rfl rfl rfl

theorem Settled.setEmail {rows : Rows} (settled : Settled rows) (email : String) :
    Settled (rows.perform (.setEmail email)) :=
  settled.of_same rfl rfl rfl rfl

/-- Sliding a session's idle clock revives nothing. -/
theorem Settled.slideSession {rows : Rows} (settled : Settled rows) (session : SessionId)
    (moment : Time) : Settled (rows.perform (.slideSession session moment)) where
  latest := settled.latest
  sessions := by
    intro write written slid present older
    obtain ⟨before, member, rfl⟩ := List.mem_map.mp present
    rw [UserSession.slide_checked] at older
    rw [UserSession.slide_revokedAt, UserSession.slide_id]
    exact settled.sessions write written before member older
  tokens := settled.tokens

/-- A session verified against the stored hash is older than no password write. -/
theorem Settled.insertSession {rows : Rows} (settled : Settled rows) (session : UserSession)
    (current : session.checked = rows.user.passwordHash) :
    Settled (rows.perform (.insertSession session)) where
  latest := settled.latest
  sessions := by
    intro write written candidate present older
    rcases List.mem_append.mp present with earlier | added
    · exact settled.sessions write written candidate earlier older
    · rw [List.mem_singleton.mp added, current] at older
      exact absurd (settled.latest write written) (Nat.not_le.mpr older)
  tokens := settled.tokens

/-- Spending tokens keeps them settled. -/
theorem Settled.spendEmailChangeTokens {rows : Rows} (settled : Settled rows)
    (ids : List TokenId) (moment : Time) :
    Settled (rows.perform (.spendEmailChangeTokens ids moment)) where
  latest := settled.latest
  sessions := settled.sessions
  tokens := by
    intro write written spent present older
    obtain ⟨before, member, rfl⟩ := List.mem_map.mp present
    rw [EmailChangeToken.spend_checked] at older
    exact EmailChangeToken.spend_isSome ids moment before
      (.inl (settled.tokens write written before member older))

/-- A change token verified against the stored hash is older than no password
write. -/
theorem Settled.insertEmailChangeToken {rows : Rows} (settled : Settled rows)
    (token : EmailChangeToken) (current : token.checked = rows.user.passwordHash) :
    Settled (rows.perform (.insertEmailChangeToken token)) where
  latest := settled.latest
  sessions := settled.sessions
  tokens := by
    intro write written candidate present older
    rcases List.mem_append.mp present with earlier | added
    · exact settled.tokens write written candidate earlier older
    · rw [List.mem_singleton.mp added, current] at older
      exact absurd (settled.latest write written) (Nat.not_le.mpr older)

/-- Marking a session revoked, sparing one, under a new password. -/
theorem Settled.replacePassword {rows : Rows} (settled : Settled rows) {hash : PasswordHash}
    {spared : Option SessionId} {voided : List TokenId} {revoked : List SessionId}
    {voidedAt revokedAt : Time} {seen : Nat}
    (newer : hash.generation = rows.user.passwordHash.generation + 1)
    (tokens : ∀ token ∈ rows.emailChangeTokens,
      token.usedAt.isSome = true ∨ token.id ∈ voided)
    (sessions : ∀ session ∈ rows.sessions,
      (session.revokedAt.isSome = true ∨ session.id ∈ revoked) ∨ spared = some session.id) :
    Settled (((rows.perform (.spendEmailChangeTokens voided voidedAt)).perform
      (.setPasswordHash hash spared)).perform (.revokeSessions revoked revokedAt seen)) where
  latest := by
    intro write written
    rcases List.mem_append.mp written with earlier | added
    · have before := settled.latest write earlier
      change write.generation ≤ hash.generation
      omega
    · rw [List.mem_singleton.mp added]
      exact le_rfl
  sessions := by
    intro write written changed present older
    obtain ⟨before, member, rfl⟩ := List.mem_map.mp present
    rw [UserSession.revoke_id]
    rcases List.mem_append.mp written with earlier | added
    · have unchanged : (before.revoke revoked revokedAt).checked = before.checked := by
        unfold UserSession.revoke
        split <;> rfl
      rw [unchanged] at older
      rcases settled.sessions write earlier before member older with ended | kept
      · exact .inl (UserSession.revoke_isSome revoked revokedAt before (.inl ended))
      · exact .inr kept
    · rw [List.mem_singleton.mp added]
      rcases sessions before member with ended | kept
      · exact .inl (UserSession.revoke_isSome revoked revokedAt before ended)
      · exact .inr kept
  tokens := by
    intro write _ spent present _
    obtain ⟨before, member, rfl⟩ := List.mem_map.mp present
    exact EmailChangeToken.spend_isSome voided voidedAt before (tokens before member)

/-! ## The statements of the routes -/

/-- Uncommitted writes that touch nothing but reset tokens. -/
def Inert (pending : List Write) : Prop :=
  ∀ write ∈ pending, ∃ ids moment, write = .spendPasswordResetTokens ids moment

/-- No write is inert. -/
theorem inert_nil : Inert [] := by
  intro write present
  cases present

/-- Using up reset links is, beside inert writes. -/
theorem Inert.spend {pending : List Write} (inert : Inert pending) (ids : List TokenId)
    (moment : Time) : Inert (pending ++ [.spendPasswordResetTokens ids moment]) := by
  intro write present
  rcases List.mem_append.mp present with earlier | added
  · exact inert write earlier
  · exact ⟨ids, moment, List.mem_singleton.mp added⟩

/-- Inert writes leave every row in place but the reset tokens'. -/
theorem Inert.performAll {pending : List Write} (inert : Inert pending) (rows : Rows) :
    ∃ tokens, performAll Rows.perform rows pending =
      { rows with passwordResetTokens := tokens } := by
  induction pending generalizing rows with
  | nil => exact ⟨rows.passwordResetTokens, rfl⟩
  | cons write rest ih =>
      obtain ⟨ids, moment, rfl⟩ := inert write List.mem_cons_self
      obtain ⟨tokens, same⟩ := ih (fun other member => inert other (List.mem_cons_of_mem _ member))
        (rows.perform (.spendPasswordResetTokens ids moment))
      exact ⟨tokens, same⟩

/-- The email-change tokens a void leaves unspent are none. -/
theorem mem_voided (rows : Rows) {token : EmailChangeToken}
    (member : token ∈ rows.emailChangeTokens) :
    token.usedAt.isSome = true ∨ token.id ∈
      (rows.emailChangeTokens.filter fun token => token.usedAt.isNone).map (·.id) := by
  by_cases used : token.usedAt.isSome = true
  · exact .inl used
  · refine .inr (List.mem_map.mpr ⟨token, List.mem_filter.mpr ⟨member, ?_⟩, rfl⟩)
    simpa using used

/-- A session the revocation saw is revoked already, spared or on its list. -/
theorem mem_unrevoked (spared : Option SessionId) (rows : Rows) {session : UserSession}
    (member : session ∈ rows.sessions) :
    (session.revokedAt.isSome = true ∨ session.id ∈ unrevokedSessions spared rows) ∨
      spared = some session.id := by
  by_cases kept : spared = some session.id
  · exact .inr kept
  · by_cases revoked : session.revokedAt.isSome = true
    · exact .inl (.inl revoked)
    · refine .inl (.inr (List.mem_map.mpr ⟨session, List.mem_filter.mpr ⟨member, ?_⟩, rfl⟩))
      simp only [Bool.and_eq_true, bne_iff_ne, ne_eq]
      exact ⟨by simpa using revoked, fun same => kept same.symm⟩

/-- With no session row added since, what the revocation saw is all there is. -/
theorem SessionsKept.covers {before after : List UserSession} (kept : SessionsKept before after)
    (noneAdded : after.length ≤ before.length) {session : UserSession} (member : session ∈ after) :
    ∃ earlier ∈ before, earlier.id = session.id ∧
      (earlier.revokedAt.isSome = true → session.revokedAt.isSome = true) := by
  obtain ⟨index, within, rfl⟩ := List.getElem_of_mem member
  have bound : index < before.length := by omega
  obtain ⟨later, present, sameId, revoked⟩ :=
    kept index before[index] (List.getElem?_eq_getElem bound)
  have same : later = after[index] := by
    rw [List.getElem?_eq_getElem within] at present
    exact (Option.some.inj present).symm
  subst same
  exact ⟨before[index], List.getElem_mem bound, sameId.symm, revoked⟩

/-- **The password write.** Run under the account's lock on the row it has
re-read, the sequence void, store, revoke, commit keeps the invariant. -/
theorem safe_replacePassword {user : User} {rows : Rows} {pending : List Write}
    {held : Set AccountLock} (current : user.passwordHash = rows.user.passwordHash)
    (holds : .account ∈ held) (inert : Inert pending) (newPassword : String)
    (spared : Option SessionId) :
    Safe (fun _ _ _ _ => True) (replacePassword user newPassword spared) pending held rows := by
  intro voiding untouched₁ _ storing untouched₂ _ revoking untouched₃ _ committing untouched₄
    settled admitted
  have voided := (untouched₂ holds).trans ((untouched₃ holds).trans (untouched₄ holds))
  have stored := (untouched₁ holds).trans voided
  obtain ⟨resets₁, view₁⟩ := inert.performAll voiding
  obtain ⟨resets₃, view₃⟩ := inert.performAll revoking
  obtain ⟨resets₄, view₄⟩ := inert.performAll committing
  refine ⟨?_, fun others apart theirs => ?_, trivial⟩
  · have unseen := admitted _ (List.mem_append_right _ (List.mem_singleton.mpr rfl))
    unfold AdmitsWrite at unseen
    simp only [performAll_append, voidEmailChanges, revokeUserSessions, performAll_cons,
      performAll_nil, view₁, view₃, view₄] at unseen ⊢
    have base : Settled { committing with passwordResetTokens := resets₄ } :=
      settled.of_same rfl rfl rfl rfl
    refine base.replacePassword ?_ ?_ ?_
    · change user.passwordHash.generation + 1 = committing.user.passwordHash.generation + 1
      rw [current, stored.user]
    · intro token member
      change token ∈ committing.emailChangeTokens at member
      rw [voided.emailChangeTokens] at member
      exact mem_voided voiding member
    · intro session member
      obtain ⟨earlier, present, sameId, revoked⟩ :=
        (untouched₄ holds).sessions.covers unseen member
      rw [← sameId]
      rcases mem_unrevoked spared _ present with (ended | listed) | kept
      · exact .inl (.inl (revoked ended))
      · exact .inl (.inr listed)
      · exact .inr kept
  · exact absurd holds (Set.disjoint_right.mp apart theirs)

/-- Outside the lock a transaction may only commit what its holder relies on to
stay. -/
private theorem rely_of_untouched {before after : Rows} (untouched : Untouched before after)
    (others : Set AccountLock) : interference.rely others before after :=
  fun _ => untouched

/-- The holder of the lock commits anything: nobody else relies on the rows. -/
private theorem rely_of_holds {held others : Set AccountLock} (holds : .account ∈ held)
    (apart : Disjoint held others) (before after : Rows) :
    interference.rely others before after :=
  fun theirs => absurd holds (Set.disjoint_right.mp apart theirs)

/-- A session that is used leaves the account untouched. -/
theorem untouched_slideSession (rows : Rows) (id : SessionId) (moment : Time) :
    Untouched rows (rows.perform (.slideSession id moment)) where
  user := rfl
  emailChangeTokens := rfl
  passwordWrites := rfl
  sessions := by
    refine .map _ _ (UserSession.slide_id id moment) ?_
    intro session revoked
    rw [UserSession.slide_revokedAt]
    exact revoked

/-- A new session leaves the account untouched. -/
theorem untouched_insertSession (rows : Rows) (session : UserSession) :
    Untouched rows (rows.perform (.insertSession session)) where
  user := rfl
  emailChangeTokens := rfl
  passwordWrites := rfl
  sessions := .append _ _

/-- A transaction not yet begun. -/
def Fresh {α : Type} (_ : α) (pending : List Write) (held : Set AccountLock) (_ : Rows) : Prop :=
  pending = [] ∧ held = ∅

/-- The idle clock is set safely. -/
theorem safe_slideIdleClock (session : UserSession) (rows : Rows) :
    Safe Fresh (slideIdleClock session) [] ∅ rows := by
  refine Ensures.query fun read _ _ => ?_
  split
  · exact ⟨rfl, rfl⟩
  · refine Ensures.update fun written _ _ => Ensures.commitTransaction fun later _ settled _ => ?_
    refine ⟨settled.slideSession session.id _, fun others _ => ?_, rfl, rfl⟩
    exact rely_of_untouched (untouched_slideSession later session.id _) others

/-- Who calls is found safely. -/
theorem safe_resolveAuthContext (settings : Settings) (token : Option SessionId) (rows : Rows) :
    Safe Fresh (resolveAuthContext settings token) [] ∅ rows := by
  cases token with
  | none => trivial
  | some token =>
      refine Ensures.query fun read _ _ => ?_
      split
      next => trivial
      next session user _ =>
        refine Ensures.bind ?_ (safe_slideIdleClock session read)
        intro _ pending held database fresh
        exact fresh

/-- The row `lock_live_user` answers with is the stored one. -/
theorem safe_lockLiveUser {pending : List Write} (inert : Inert pending)
    (held : Set AccountLock) (rows : Rows) :
    Safe (fun found pending' held' later => pending' = pending ∧
      held' = insert .account held ∧ ∀ user, found = some user → user = later.user)
      lockLiveUser pending held rows := by
  refine Ensures.acquire ?_
  intro locked _ _ read _ _
  refine ⟨rfl, rfl, ?_⟩
  intro user found
  obtain ⟨resets, view⟩ := inert.performAll read
  rw [view] at found
  dsimp only at found
  split at found
  · exact (Option.some.inj found).symm
  · cases found

/-- A transaction that has only taken the account's lock and read its user. -/
def Locked (user : User) (pending : List Write) (held : Set AccountLock) (rows : Rows) : Prop :=
  pending = [] ∧ .account ∈ held ∧ user = rows.user

/-- The row that is locked is the current one. -/
theorem safe_lockOwnAccount (rows : Rows) : Safe Locked lockOwnAccount [] ∅ rows := by
  refine Ensures.bind ?_ (safe_lockLiveUser inert_nil ∅ rows)
  rintro found pending held later ⟨rfl, rfl, stored⟩
  cases found with
  | none => trivial
  | some user => exact ⟨rfl, Set.mem_insert _ _, stored user rfl⟩

/-- **A login** is safe when its commit finds the password it checked. -/
theorem safe_login (settings : Settings) (process : ProcessId) (email password : String)
    (rows : Rows) :
    Safe (fun _ _ _ _ => True) (login settings process email password) [] ∅ rows := by
  refine Ensures.query fun read _ _ => ?_
  split
  next => trivial
  next user _ =>
    split
    · trivial
    · split
      · trivial
      next _ verified =>
        unfold createSession
        rw [if_neg verified]
        refine Ensures.update fun inserted _ _ =>
          Ensures.commitTransaction fun later _ settled admitted => ?_
        have current := admitted _ (List.mem_singleton.mpr rfl)
        refine ⟨settled.insertSession _ current, fun others _ => ?_, trivial⟩
        exact rely_of_untouched (untouched_insertSession later _) others

/-- A password that is changed under the lock is safe. -/
theorem safe_changePassword (settings : Settings) (token : Option SessionId)
    (currentPassword newPassword : String) (rows : Rows) :
    Safe (fun _ _ _ _ => True) (changePassword settings token currentPassword newPassword)
      [] ∅ rows := by
  refine Ensures.bind ?_ (safe_resolveAuthContext settings token rows)
  rintro ⟨session, _⟩ pending held resolved ⟨rfl, rfl⟩
  refine Ensures.bind ?_ (safe_lockOwnAccount resolved)
  rintro user pending held later ⟨rfl, holds, stored⟩
  split
  · trivial
  · split
    · trivial
    · split
      · trivial
      · exact safe_replacePassword (by rw [stored]) holds inert_nil newPassword _

/-- Spending a reset token leaves the transaction inert, and a spent one under
the account's lock. -/
theorem safe_consumePasswordResetToken (token : TokenId) (rows : Rows) :
    Safe (fun spent pending held _ => spent = true → Inert pending ∧ .account ∈ held)
      (consumePasswordResetToken token) [] ∅ rows := by
  refine Ensures.query fun begun _ _ => Ensures.query fun read _ _ => ?_
  split
  · intro absurd
    cases absurd
  · refine Ensures.bind ?_ (safe_lockLiveUser inert_nil ∅ read)
    rintro found pending held locked ⟨rfl, rfl, -⟩ later _ _ _
    exact ⟨inert_nil.spend _ _, Set.mem_insert _ _⟩

/-- A password that is reset is safe. -/
theorem safe_confirmPasswordReset (settings : Settings) (token : TokenId) (newPassword : String)
    (rows : Rows) :
    Safe (fun _ _ _ _ => True) (confirmPasswordReset settings token newPassword) [] ∅ rows := by
  unfold confirmPasswordReset
  split
  · trivial
  refine Ensures.bind ?_ (safe_consumePasswordResetToken token rows)
  intro spent pending held consumed spends
  cases spent with
  | false => trivial
  | true =>
      obtain ⟨inert, holds⟩ := spends rfl
      refine Ensures.query fun read _ _ => ?_
      obtain ⟨resets, view⟩ := inert.performAll read
      rw [view]
      split
      next => trivial
      next user found =>
        split at found
        · exact safe_replacePassword (by rw [← Option.some.inj found]) holds inert _ none
        · cases found

theorem safe_requestEmailChange (settings : Settings) (process : ProcessId)
    (token : Option SessionId) (newEmail password : String) (rows : Rows) :
    Safe (fun _ _ _ _ => True) (requestEmailChange settings process token newEmail password)
      [] ∅ rows := by
  refine Ensures.bind ?_ (safe_resolveAuthContext settings token rows)
  rintro _ pending held resolved ⟨rfl, rfl⟩
  split
  · trivial
  refine Ensures.bind ?_ (safe_lockOwnAccount resolved)
  rintro user pending held locked ⟨rfl, holds, stored⟩
  split
  · trivial
  refine Ensures.update fun issued untouched₁ _ =>
    Ensures.commitTransaction fun later untouched₂ settled _ => ?_
  have same := (untouched₁ holds).trans (untouched₂ holds)
  refine ⟨?_, fun others apart => rely_of_holds holds apart _ _, trivial⟩
  refine (settled.spendEmailChangeTokens _ _).insertEmailChangeToken _ ?_
  change user.passwordHash = later.user.passwordHash
  rw [stored, same.user]

theorem safe_confirmOwnEmailChange (token : TokenId) (rows : Rows) :
    Safe (fun _ _ _ _ => True) (confirmOwnEmailChange token) [] ∅ rows := by
  refine Ensures.query fun begun _ _ => Ensures.query fun named _ _ => ?_
  split
  · trivial
  refine Ensures.bind ?_ (safe_lockLiveUser inert_nil ∅ named)
  rintro found pending held locked ⟨rfl, rfl, -⟩
  cases found with
  | none => trivial
  | some user =>
      refine Ensures.update fun voided _ _ => Ensures.updateReturning fun spent _ _ => ?_
      split
      next => trivial
      next change _ =>
        refine Ensures.query fun checked _ _ => ?_
        split
        · trivial
        refine Ensures.updateReturning fun renamed _ _ => ?_
        split
        · trivial
        refine Ensures.commitTransaction fun later _ settled _ => ?_
        refine ⟨?_, fun others apart => rely_of_holds (Set.mem_insert _ _) apart _ _, trivial⟩
        simp only [performAll_append]
        split
        · exact ((settled.spendPasswordResetTokens _ _).spendEmailChangeTokens _ _).setEmail _
        · exact (settled.spendPasswordResetTokens _ _).spendEmailChangeTokens _ _

/-- Every route keeps the invariant, whatever runs beside it. -/
theorem verified (settings : Settings) :
    Service.Verified (service settings) interference Admits where
  initially := by
    intro rows unwritten
    have none : ∀ write, write ∉ rows.passwordWrites := by
      intro write written
      rw [show rows.passwordWrites = [] from unwritten] at written
      cases written
    exact ⟨fun write written => absurd written (none write),
      fun write written => absurd written (none write),
      fun write written => absurd written (none write)⟩
  handlers := by
    intro process request rows _
    cases request with
    | login email password => exact safe_login settings process email password rows
    | changePassword token currentPassword newPassword =>
        exact safe_changePassword settings token currentPassword newPassword rows
    | confirmPasswordReset token newPassword =>
        exact safe_confirmPasswordReset settings token newPassword rows
    | requestEmailChange token newEmail password =>
        exact safe_requestEmailChange settings process token newEmail password rows
    | confirmOwnEmailChange token => exact safe_confirmOwnEmailChange token rows
  keeps := fun _ _ settled => settled.of_same rfl rfl rfl rfl
  leaves := fun _ _ _ _ => ⟨rfl, rfl, rfl, .refl _⟩

/-! ## Runs -/

/-- The spans of the default configuration, with nothing screened. -/
def defaultSettings : Settings where
  sessionIdle := 7 * 24 * 3600 * 1000000
  sessionAbsolute := 30 * 24 * 3600 * 1000000
  emailChangeExpire := 3600 * 1000000
  commonPassword := fun _ => false
  disposableEmail := fun _ => false

/-- A verified account with one unspent reset link. -/
def accountWithReset : State Rows Write AccountLock Failure Unit where
  database :=
    { now := 0, user := ⟨"ada@example.org", ⟨"old password", 0⟩, some 0, none⟩, otherEmails := [],
      sessions := [], emailChangeTokens := [], passwordResetTokens := [⟨7, 3600 * 1000000, none⟩],
      passwordWrites := [] }
  holder := fun _ => none
  processes := fun _ => none

theorem accountWithReset_initial (settings : Settings) :
    (service settings).system.Initial accountWithReset :=
  ⟨rfl, fun _ => rfl, fun _ => rfl⟩

/-- A login up to the row it reads, and then up to its commit. -/
def loginReads (process : ProcessId) : List (Action Request Nat Failure) :=
  [.start process (.login "ada@example.org" "old password"), .advance process]

def loginCommits (process : ProcessId) : List (Action Request Nat Failure) :=
  [.advance process, .advance process]

/-- A password reset, from its arrival to its commit. -/
def resetRuns (process : ProcessId) : List (Action Request Nat Failure) :=
  runs process (.confirmPasswordReset 7 "new password") 10

/-- A login that has read the old hash when a reset runs commits a usable session
after it. -/
theorem login_outlives_reset :
    ¬ ∀ (settings : Settings) (state : State Rows Write AccountLock Failure Unit),
      (service settings).system.Reachable state → OldPasswordEnded settings state.database := by
  intro ended
  obtain ⟨state, reached, outlived⟩ := TransitionSystem.exists_reachable_of_run
    (accountWithReset_initial defaultSettings) (loginReads 0 ++ resetRuns 1 ++ loginCommits 0)
    (fun state => !decide (OldPasswordEnded defaultSettings state.database)) (by decide)
  rw [Bool.not_eq_true', decide_eq_false_iff_not] at outlived
  exact outlived (ended defaultSettings state reached)

/-- **A new password ends the old one's authority** in every run whose commits
are admitted. -/
theorem oldPasswordEnded_of_admitted (settings : Settings)
    {state : State Rows Write AccountLock Failure Unit}
    (reached : (service settings).system.ReachedWithin (Service.CommitsWithin Admits) state) :
    OldPasswordEnded settings state.database :=
  (Service.invariant_of_ensures (verified settings) reached).oldPasswordEnded settings

/-- A login that commits before a reset is ended by it. -/
theorem oldPasswordEnded_after_reset :
    ∃ state : State Rows Write AccountLock Failure Unit,
      (state.database.sessions.map (·.checked.generation) = [0] ∧
        state.database.passwordWrites = [⟨1, none⟩]) ∧
      OldPasswordEnded defaultSettings state.database := by
  obtain ⟨state, reached, shape⟩ := TransitionSystem.exists_reachedWithin_of_run
    (Service.CommitsWithin Admits) (accountWithReset_initial defaultSettings)
    (loginReads 0 ++ loginCommits 0 ++ resetRuns 1)
    (fun state => decide (state.database.sessions.map (·.checked.generation) = [0] ∧
      state.database.passwordWrites = [⟨1, none⟩])) (by decide)
  exact ⟨state, of_decide_eq_true shape, oldPasswordEnded_of_admitted defaultSettings reached⟩

end FrontDashboard.Auth
