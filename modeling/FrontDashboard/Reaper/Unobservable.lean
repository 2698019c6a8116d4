import FrontDashboard.Reaper.Routes

/-! # The reaper is unobservable

Every request finds only rows that the reaper keeps, and brings none back that it would
have removed. So requests answer the same wherever the reaper runs between them.
-/

namespace FrontDashboard.Reaper

open Sweep
open FrontDashboard.Membership (ShareRole)

variable {settings : Settings} {rows : Rows}

/-- The rows without those that the reaper removes now. -/
abbrev reaped (settings : Settings) (rows : Rows) : Rows := reapExpiredAuthRows settings rows

/-! ## What is found is kept -/

/-- What the reaper keeps has not expired. -/
theorem unexpired_iff {now expiresAt : Time} :
    unexpired now expiresAt = true ↔ now ≤ expiresAt := by
  rw [unexpired, Bool.not_eq_true', decide_eq_false_iff_not]
  exact Int.not_lt

/-- A session that the reaper keeps has neither expired nor been idle for too long. -/
theorem inUse_iff {now : Time} {session : UserSession} :
    inUse settings now session = true ↔
      now ≤ session.expiresAt ∧ now - settings.sessionIdle ≤ session.lastUsedAt := by
  rw [inUse, Bool.not_eq_true', Bool.or_eq_false_iff, decide_eq_false_iff_not,
    decide_eq_false_iff_not]
  exact and_congr Int.not_lt Int.not_lt

/-- What is still good is kept. -/
theorem unexpired_of_lt {now expiresAt : Time} (live : now < expiresAt) :
    unexpired now expiresAt = true :=
  unexpired_iff.mpr (Int.le_of_lt live)

/-- What is kept was kept before. -/
theorem unexpired_of_le {now later expiresAt : Time} (passes : now ≤ later)
    (kept : unexpired later expiresAt = true) : unexpired now expiresAt = true :=
  unexpired_iff.mpr (Int.le_trans passes (unexpired_iff.mp kept))

/-- A session that lives is kept. -/
theorem inUse_of_live {now : Time} {session : UserSession}
    (live : session.live settings now = true) : inUse settings now session = true := by
  simp only [UserSession.live, Bool.and_eq_true, decide_eq_true_eq] at live
  exact inUse_iff.mpr ⟨Int.le_of_lt live.1.2, Int.le_of_lt live.2⟩

/-- A session that is kept was kept before. -/
theorem inUse_of_le {now later : Time} {session : UserSession} (passes : now ≤ later)
    (kept : inUse settings later session = true) : inUse settings now session = true := by
  obtain ⟨bounded, used⟩ := inUse_iff.mp kept
  exact inUse_iff.mpr
    ⟨Int.le_trans passes bounded, Int.le_trans (Int.sub_le_sub_right passes _) used⟩

/-- A link that can be spent is kept. -/
theorem unexpired_of_spendable {token : Nat} {now : Time} {row : AuthToken}
    (fits : spendable token now row = true) : unexpired now row.expiresAt = true := by
  simp only [spendable, Bool.and_eq_true, decide_eq_true_eq] at fits
  exact unexpired_of_lt fits.2

/-- A code that can be redeemed is kept. -/
theorem unexpired_of_redeemable {code : Nat} {now : Time} {invite : DashboardInvite}
    (fits : redeemable code now invite = true) : unexpired now invite.expiresAt = true := by
  simp only [redeemable, Membership.DashboardInvite.live, Bool.and_eq_true, decide_eq_true_eq]
    at fits
  exact unexpired_of_lt fits.2.2

/-- A session is found wherever the reaper has run. -/
theorem resolveSession_reaped (token : Nat) (rows : Rows) :
    resolveSession settings token (reaped settings rows) = resolveSession settings token rows := by
  have found : (reaped settings rows).sessions.rows.find? (fun session =>
        session.id == token && session.live settings rows.now) =
      rows.sessions.rows.find? fun session =>
        session.id == token && session.live settings rows.now := by
    apply find?_filter
    intro session _ selected
    rw [Bool.and_eq_true] at selected
    exact inUse_of_live selected.2
  unfold resolveSession
  rw [show (reaped settings rows).now = rows.now from rfl, found]
  rfl

/-- A link is found wherever the reaper has run. -/
theorem find?_verifications (token : Nat) (rows : Rows) :
    (reaped settings rows).verifications.find? (fun row =>
        row.token == token && decide (row.expiresAt > rows.now)) =
      rows.verifications.find? fun row =>
        row.token == token && decide (row.expiresAt > rows.now) := by
  apply find?_filter
  intro row _ selected
  rw [Bool.and_eq_true, decide_eq_true_eq] at selected
  exact unexpired_of_lt selected.2

theorem find?_spendable (token : Nat) (rows : Rows) :
    (reaped settings rows).resets.find? (spendable token rows.now) =
      rows.resets.find? (spendable token rows.now) :=
  find?_filter fun _ _ => unexpired_of_spendable

theorem find?_confirmable (token : Nat) (rows : Rows) :
    (reaped settings rows).changes.find? (confirmable token rows.now) =
      rows.changes.find? (confirmable token rows.now) :=
  find?_filter fun _ _ => unexpired_of_spendable

/-- An invite is found wherever the reaper has run. -/
theorem loadLiveInvite_reaped (code : Nat) (rows : Rows) :
    loadLiveInvite code (reaped settings rows) = loadLiveInvite code rows :=
  find?_filter fun _ _ => unexpired_of_redeemable

/-! ## What is left differs by swept rows -/

/-- A session that is used is swept after as before. -/
theorem Sessions.sweep_slide {sessions : Sessions} {earlier keep : UserSession → Bool} {id : Nat}
    {now : Time}
    (returns : ∀ session ∈ sessions.rows, keep (if session.id = id then
      { session with lastUsedAt := now } else session) = true → earlier session = true) :
    ((sessions.sweep earlier).slide id now).sweep keep = (sessions.slide id now).sweep keep :=
  Sessions.ext (filter_map_filter returns) rfl

/-- Revoking a session moves neither of its clocks. -/
theorem Sessions.sweep_revoke (sessions : Sessions) (user : UserId) (now : Time) :
    ((sessions.sweep (inUse settings now)).revoke user now).sweep (inUse settings now) =
      (sessions.revoke user now).sweep (inUse settings now) := by
  refine Sessions.ext (filter_map_filter ?_) rfl
  intro session _ kept
  split at kept <;> exact kept

/-- A new session stands beside others that may be swept first. -/
theorem Sessions.sweep_start (sessions : Sessions) (keep : UserSession → Bool) (user : UserId)
    (now expiresAt : Time) (deviceName : Option String) :
    ((sessions.sweep keep).start user now expiresAt deviceName).sweep keep =
      (sessions.start user now expiresAt deviceName).sweep keep := by
  refine Sessions.ext ?_ rfl
  simp only [sweep, start, List.filter_append, List.filter_filter, Bool.and_self]

/-- A stricter sweep makes an earlier one unnoticed. -/
theorem Sessions.sweep_sweep {sessions : Sessions} {earlier keep : UserSession → Bool}
    (stricter : ∀ session, keep session = true → earlier session = true) :
    (sessions.sweep earlier).sweep keep = sessions.sweep keep :=
  Sessions.ext (filter_filter_of_imp stricter) rfl

/-- The reaper that runs later makes an earlier run unnoticed. -/
theorem reaped_elapse (span : Nat) (rows : Rows) :
    reaped settings ((reaped settings rows).elapse span) = reaped settings (rows.elapse span) := by
  have passes : rows.now ≤ rows.now + span := Int.le_add_of_nonneg_right (Int.natCast_nonneg span)
  apply Rows.ext
  case sessions => exact Sessions.sweep_sweep fun _ => inUse_of_le passes
  case verifications => exact filter_filter_of_imp fun _ => unexpired_of_le passes
  case resets => exact filter_filter_of_imp fun _ => unexpired_of_le passes
  case changes => exact filter_filter_of_imp fun _ => unexpired_of_le passes
  case invites => exact filter_filter_of_imp fun _ => unexpired_of_le passes
  all_goals rfl

/-- A second run at once makes the first unnoticed. -/
theorem reaped_reaped (rows : Rows) :
    reaped settings (reaped settings rows) = reaped settings rows := by
  have now := @reaped_elapse settings 0 rows
  simpa [Rows.elapse] using now

/-- A change that moves no expiry brings back nothing that has expired. -/
theorem sweep_map {Row : Type} (expiresAt : Row → Time) {change : Row → Row}
    (same : ∀ row, expiresAt (change row) = expiresAt row) {now later : Time}
    (passes : now ≤ later) (rows : List Row) :
    ((rows.filter fun row => unexpired now (expiresAt row)).map change).filter
        (fun row => unexpired later (expiresAt row)) =
      (rows.map change).filter fun row => unexpired later (expiresAt row) := by
  apply filter_map_filter
  intro row _ kept
  rw [same] at kept
  exact unexpired_of_le passes kept

/-- Voiding a link leaves when it expires. -/
theorem AuthToken.void_expiresAt (user : UserId) (now : Time) (token : AuthToken) :
    (token.void user now).expiresAt = token.expiresAt := by
  unfold AuthToken.void
  split <;> rfl

theorem EmailChangeToken.void_expiresAt (user : UserId) (now : Time) (token : EmailChangeToken) :
    (token.void user now).expiresAt = token.expiresAt := by
  unfold EmailChangeToken.void
  split <;> rfl

/-! ## Requests -/

/-- The same answer, and rows that differ by what the reaper removes. -/
def Alike {α : Type} (settings : Settings) (first second : α × Rows) : Prop :=
  first.1 = second.1 ∧ reaped settings first.2 = reaped settings second.2

/-- An answer that changes nothing is alike. -/
theorem alike_unchanged {α : Type} (answer : α) (rows : Rows) :
    Alike settings (answer, reaped settings rows) (answer, rows) :=
  ⟨rfl, reaped_reaped rows⟩

/-- What answers alike on swept rows answers alike on any rows that differ by them. -/
theorem Alike.of_reaped_eq {α : Type} {run : Rows → α × Rows}
    (alike : ∀ rows, Alike settings (run (reaped settings rows)) (run rows)) {first second : Rows}
    (same : reaped settings first = reaped settings second) :
    Alike settings (run first) (run second) := by
  obtain ⟨answer, left⟩ := alike first
  obtain ⟨answer', left'⟩ := alike second
  rw [same] at answer left
  exact ⟨answer.symm.trans answer', left.symm.trans left'⟩

/-- The session that is found is there and lives. -/
theorem resolveSession_eq_some {token : Nat} {session : UserSession} {user : User}
    (resolved : resolveSession settings token rows = some (session, user)) :
    session ∈ rows.sessions.rows ∧ session.live settings rows.now = true := by
  unfold resolveSession at resolved
  split at resolved
  · cases resolved
  next found =>
    obtain ⟨_, _, same⟩ := Option.map_eq_some_iff.mp resolved
    cases same
    have fits := List.find?_some found
    rw [Bool.and_eq_true] at fits
    exact ⟨List.mem_of_find?_eq_some found, fits.2⟩

/-- **Sliding** the clock of a live session brings no other session back. -/
theorem alike_slideIdleClock {session : UserSession} (present : session ∈ rows.sessions.rows)
    (live : session.live settings rows.now = true) (pause : Nat) :
    Alike settings (slideIdleClock session ((reaped settings rows).elapse pause))
      (slideIdleClock session (rows.elapse pause)) := by
  have passes : rows.now ≤ rows.now + pause :=
    Int.le_add_of_nonneg_right (Int.natCast_nonneg pause)
  unfold slideIdleClock
  rw [show ((reaped settings rows).elapse pause).now = (rows.elapse pause).now from rfl]
  split
  · exact ⟨rfl, reaped_elapse pause rows⟩
  refine ⟨rfl, ?_⟩
  have slid : ∀ other ∈ rows.sessions.rows,
      inUse settings (rows.now + pause) (if other.id = session.id then
        { other with lastUsedAt := rows.now + pause } else other) = true →
      inUse settings rows.now other = true := by
    intro other among kept
    split at kept
    next same =>
      rw [List.inj_on_of_nodup_map rows.sessions.unique among present same]
      exact inUse_of_live live
    next => exact inUse_of_le passes kept
  apply Rows.ext
  case sessions => exact Sessions.sweep_slide slid
  case verifications => exact filter_filter_of_imp fun _ => unexpired_of_le passes
  case resets => exact filter_filter_of_imp fun _ => unexpired_of_le passes
  case changes => exact filter_filter_of_imp fun _ => unexpired_of_le passes
  case invites => exact filter_filter_of_imp fun _ => unexpired_of_le passes
  all_goals rfl

/-- Who calls is found alike. -/
theorem alike_resolveAuthContext (token : Option Nat) (pause : Nat) (rows : Rows) :
    Alike settings (resolveAuthContext settings token pause (reaped settings rows))
      (resolveAuthContext settings token pause rows) := by
  unfold resolveAuthContext
  cases token with
  | none => exact alike_unchanged _ rows
  | some token =>
      simp only [resolveSession_reaped]
      cases resolved : resolveSession settings token rows with
      | none => exact alike_unchanged _ rows
      | some context =>
          obtain ⟨session, user⟩ := context
          obtain ⟨present, live⟩ := resolveSession_eq_some resolved
          obtain ⟨same, left⟩ := alike_slideIdleClock present live pause
          exact ⟨by simp only [same], left⟩

theorem alike_resolve (token : Option Nat) (pause : Nat) (rows : Rows) :
    Alike settings (resolve settings token pause (reaped settings rows))
      (resolve settings token pause rows) := by
  obtain ⟨same, left⟩ := @alike_resolveAuthContext settings token pause rows
  exact ⟨by simp only [resolve, same], left⟩

/-- A link verifies alike. -/
theorem alike_verifyEmail (token : Nat) (deviceName : Option String) (rows : Rows) :
    Alike settings (verifyEmail settings token deviceName (reaped settings rows))
      (verifyEmail settings token deviceName rows) := by
  unfold verifyEmail
  rw [show (reaped settings rows).now = rows.now from rfl, find?_verifications]
  split
  · exact alike_unchanged _ rows
  next row _ =>
    rw [show liveUser row.userId (reaped settings rows) = liveUser row.userId rows from rfl]
    split
    · exact alike_unchanged _ rows
    next user _ =>
      split
      · exact alike_unchanged _ rows
      split
      · exact alike_unchanged _ rows
      refine ⟨rfl, ?_⟩
      apply Rows.ext
      case sessions => exact Sessions.sweep_start _ _ _ _ _ _
      case verifications =>
        exact sweep_map AuthToken.expiresAt (AuthToken.void_expiresAt _ _) (Int.le_refl _) _
      case resets => exact filter_filter_of_imp fun _ kept => kept
      case changes => exact filter_filter_of_imp fun _ kept => kept
      case invites => exact filter_filter_of_imp fun _ kept => kept
      all_goals rfl

/-- A reset link that is consumed is the one found, used up. -/
theorem consumePasswordResetToken_eq (token : Nat) (rows : Rows) :
    consumePasswordResetToken token rows =
      (rows.resets.find? (spendable token rows.now)).map fun row =>
        (row.userId, { rows with
          resets := rows.resets.map fun row =>
            if spendable token rows.now row then { row with usedAt := some rows.now }
              else row }) := by
  unfold consumePasswordResetToken
  split
  next absent =>
    have none_ : rows.resets.find? (spendable token rows.now) = none := by
      rw [List.find?_eq_none] at absent ⊢
      intro row member fits
      simp only [spendable, Bool.and_eq_true] at fits
      exact absent row member fits.1.1
    rw [none_]
    rfl
  next => split <;> simp_all

/-- **Resetting a password** spends a token, voids changes and revokes sessions. -/
theorem alike_confirmPasswordReset (token : Nat) (newPassword : String) (rows : Rows) :
    Alike settings (confirmPasswordReset settings token newPassword (reaped settings rows))
      (confirmPasswordReset settings token newPassword rows) := by
  unfold confirmPasswordReset
  split
  · exact alike_unchanged _ rows
  rw [consumePasswordResetToken_eq, consumePasswordResetToken_eq,
    show (reaped settings rows).now = rows.now from rfl, find?_spendable]
  cases rows.resets.find? (spendable token rows.now) with
  | none => exact alike_unchanged _ rows
  | some row =>
      dsimp only [Option.map_some, liveUser]
      rw [show (reaped settings rows).users = rows.users from rfl]
      cases rows.users.find? fun user => user.id == row.userId && user.deletedAt.isNone with
      | none => exact alike_unchanged _ rows
      | some user =>
          refine ⟨rfl, ?_⟩
          apply Rows.ext
          case sessions => exact Sessions.sweep_revoke _ _ _
          case resets =>
            apply sweep_map AuthToken.expiresAt _ (Int.le_refl _)
            intro row
            split <;> rfl
          case changes =>
            exact sweep_map (fun row : EmailChangeToken => row.expiresAt)
              (EmailChangeToken.void_expiresAt _ _) (Int.le_refl _) _
          case verifications => exact filter_filter_of_imp fun _ kept => kept
          case invites => exact filter_filter_of_imp fun _ kept => kept
          all_goals rfl

/-- A new address is confirmed alike. -/
theorem alike_confirmOwnEmailChange (token : Nat) (rows : Rows) :
    Alike settings (confirmOwnEmailChange settings token (reaped settings rows))
      (confirmOwnEmailChange settings token rows) := by
  unfold confirmOwnEmailChange
  dsimp only
  rw [show (reaped settings rows).now = rows.now from rfl, find?_confirmable]
  split
  · exact alike_unchanged _ rows
  next row _ =>
    rw [show liveUser row.userId (reaped settings rows) = liveUser row.userId rows from rfl]
    split
    · exact alike_unchanged _ rows
    next user _ =>
      rw [show addressTaken settings user.id row.newEmail (reaped settings rows) =
        addressTaken settings user.id row.newEmail rows from rfl]
      split
      · exact alike_unchanged _ rows
      refine ⟨rfl, ?_⟩
      apply Rows.ext
      case resets =>
        exact sweep_map AuthToken.expiresAt (AuthToken.void_expiresAt _ _) (Int.le_refl _) _
      case changes =>
        apply sweep_map (fun row : EmailChangeToken => row.expiresAt) _ (Int.le_refl _)
        intro row
        split <;> rfl
      case sessions => exact Sessions.sweep_sweep fun _ kept => kept
      case verifications => exact filter_filter_of_imp fun _ kept => kept
      case invites => exact filter_filter_of_imp fun _ kept => kept
      all_goals rfl

/-! ## Invites -/

/-- The reaper leaves share rows. -/
theorem reaped_createShare (dashboard principal : Nat) (role : ShareRole) (grantedBy : Nat)
    (rows : Rows) : reaped settings (createShare dashboard principal role grantedBy rows) =
      createShare dashboard principal role grantedBy (reaped settings rows) := by
  unfold createShare
  rw [show (reaped settings rows).shares = rows.shares from rfl]
  split <;> rfl

/-- An invite is previewed alike. -/
theorem previewInvite_reaped (code : Nat) (rows : Rows) :
    previewInvite code (reaped settings rows) = previewInvite code rows := by
  unfold previewInvite
  rw [loadLiveInvite_reaped]
  rfl

/-- A code that lives when it is claimed was kept before. -/
theorem map_reaped_consumeInvite (code : Nat) (redeemedBy : UserId) (pause : Nat) (rows : Rows) :
    (consumeInvite code redeemedBy ((reaped settings rows).elapse pause)).map (reaped settings) =
      (consumeInvite code redeemedBy (rows.elapse pause)).map (reaped settings) := by
  have passes : rows.now ≤ rows.now + pause :=
    Int.le_add_of_nonneg_right (Int.natCast_nonneg pause)
  have found : ((reaped settings rows).elapse pause).invites.find?
        (redeemable code ((reaped settings rows).elapse pause).now) =
      (rows.elapse pause).invites.find? (redeemable code (rows.elapse pause).now) :=
    find?_filter fun _ _ fits => unexpired_of_le passes (unexpired_of_redeemable fits)
  unfold consumeInvite
  rw [found]
  cases (rows.elapse pause).invites.find? (redeemable code (rows.elapse pause).now) with
  | none => rfl
  | some _ =>
      apply congrArg some
      apply Rows.ext
      case invites =>
        apply sweep_map (fun invite : DashboardInvite => invite.expiresAt) _ passes
        intro invite
        split <;> rfl
      case sessions => exact Sessions.sweep_sweep fun _ => inUse_of_le passes
      case verifications => exact filter_filter_of_imp fun _ => unexpired_of_le passes
      case resets => exact filter_filter_of_imp fun _ => unexpired_of_le passes
      case changes => exact filter_filter_of_imp fun _ => unexpired_of_le passes
      all_goals rfl

/-- **Redeeming** reads the clock twice; a code that lives at the second reading was kept at
the first. -/
theorem alike_redeem (caller : UserId) (code pause : Nat) (rows : Rows) :
    Alike settings (redeem caller code pause (reaped settings rows))
      (redeem caller code pause rows) := by
  unfold redeem
  rw [loadLiveInvite_reaped]
  split
  · exact alike_unchanged _ rows
  next invite _ =>
    rw [show dashboardOf invite (reaped settings rows) = dashboardOf invite rows from rfl]
    split
    · exact alike_unchanged _ rows
    next dashboard _ =>
      split
      · exact alike_unchanged _ rows
      dsimp only
      rw [show (reaped settings rows).shares = rows.shares from rfl]
      split
      · exact alike_unchanged _ rows
      next =>
        have taken := @map_reaped_consumeInvite settings code caller pause rows
        cases claimed : consumeInvite code caller ((reaped settings rows).elapse pause) with
        | none =>
            rw [claimed, Option.map_none, eq_comm, Option.map_eq_none_iff] at taken
            rw [taken]
            exact ⟨rfl, reaped_elapse pause rows⟩
        | some first =>
            rw [claimed, Option.map_some, eq_comm] at taken
            obtain ⟨second, consumed, same⟩ := Option.map_eq_some_iff.mp taken
            rw [consumed]
            refine ⟨rfl, ?_⟩
            dsimp only
            rw [reaped_createShare, reaped_createShare, same]

/-- **An invite** is accepted alike. -/
theorem alike_acceptInvite (token : Option Nat) (code : Nat) (pauses : Nat × Nat) (rows : Rows) :
    Alike settings (acceptInvite settings token code pauses (reaped settings rows))
      (acceptInvite settings token code pauses rows) := by
  obtain ⟨same, left⟩ := @alike_resolveAuthContext settings token pauses.1 rows
  unfold acceptInvite
  revert same left
  generalize resolveAuthContext settings token pauses.1 (reaped settings rows) = first
  generalize resolveAuthContext settings token pauses.1 rows = second
  obtain ⟨answer, after⟩ := first
  obtain ⟨answer', after'⟩ := second
  intro same left
  obtain rfl : answer = answer' := same
  cases answer with
  | error failure => exact ⟨rfl, left⟩
  | ok context => exact Alike.of_reaped_eq (alike_redeem context.2.id code pauses.2) left

/-! ## Runs -/

/-- **Every request** is answered alike, and leaves rows that the reaper makes alike. -/
theorem alike_handle (rows : Rows) (request : Request) :
    Alike settings (handle settings (reaped settings rows) request)
      (handle settings rows request) := by
  cases request with
  | resolve token pause => exact alike_resolve token pause rows
  | sessionIsLive id =>
      refine ⟨?_, reaped_reaped rows⟩
      simp only [handle, sessionIsLive, resolveSession_reaped]
  | verifyEmail token deviceName => exact alike_verifyEmail token deviceName rows
  | checkPasswordResetToken token =>
      refine ⟨?_, reaped_reaped rows⟩
      have found := @find?_spendable settings token rows
      simp only [handle, resetTokenIsLive]
      rw [show (reaped settings rows).now = rows.now from rfl, found]
  | confirmPasswordReset token newPassword =>
    exact alike_confirmPasswordReset token newPassword rows
  | confirmOwnEmailChange token => exact alike_confirmOwnEmailChange token rows
  | previewInvite code => exact ⟨previewInvite_reaped code rows, reaped_reaped rows⟩
  | acceptInvite token code pauses => exact alike_acceptInvite token code pauses rows
  | elapse span => exact ⟨rfl, reaped_elapse span rows⟩

/-- So the reaper goes unnoticed. -/
theorem reaper_unnoticed (settings : Settings) :
    Unnoticed (handle settings) (reapExpiredAuthRows settings) where
  twice := reaped_reaped
  answer := fun rows request => (alike_handle rows request).1
  next := fun rows request => (alike_handle rows request).2

/-- **The reaper is unobservable.** Whatever the rows and whatever comes in, the answers are
those without the reaper. An entry without a request is a run of `reap_expired_auth_rows`. -/
theorem reaper_unobservable (settings : Settings) (rows : Rows) (requests : List (Option Request)) :
    outputs (handle settings) (reapExpiredAuthRows settings) rows requests =
      outputs (handle settings) (reapExpiredAuthRows settings) rows
        (requests.filter Option.isSome) :=
  (reaper_unnoticed settings).outputs_filter rows requests

end FrontDashboard.Reaper
