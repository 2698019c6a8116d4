import Mathlib.Tactic.Linarith
import FrontDashboard.Auth.PasswordAuthority

/-! # The two clocks of a session

Authenticated requests on one session that is not revoked, one after the other. The idle clock
is written at most once a minute, so that the row lags behind the last request by less than
that, however long the run.
-/

namespace FrontDashboard.Auth

open ReadCommitted

/-- `_IDLE_BUMP_INTERVAL`: a minute. -/
def idleBumpInterval : Time := 60000000

/-- The time that passes before the statements of a request. -/
structure Delays where
  resolve : Nat
  clock : Nat
  slide : Nat
  commit : Nat

def Delays.events (delays : Delays) : List Nat :=
  [delays.resolve, delays.clock, delays.slide, delays.commit]

/-- When `resolve_session` reads the clock. -/
def Delays.resolvedAt (delays : Delays) (rows : Rows) : Time := rows.now + delays.resolve

/-- When `slide_idle_clock` reads the clock. -/
def Delays.slidAt (delays : Delays) (rows : Rows) : Time := delays.resolvedAt rows + delays.clock

/-- An authenticated request. -/
def authenticate (settings : Settings) (token : SessionId) (delays : Delays) (rows : Rows) :
    Except Failure (UserSession × User) × Rows :=
  (resolveAuthContext settings (some token)).alone Rows.perform Rows.elapse [] delays.events rows

/-- The request is not answered with a 401. -/
def Succeeds (settings : Settings) (token : SessionId) (delays : Delays) (rows : Rows) : Prop :=
  (authenticate settings token delays rows).1.isOk = true

/-- The sessions `reap_expired_auth_rows` deletes. -/
def UserSession.inert (settings : Settings) (now : Time) (session : UserSession) : Bool :=
  session.expiresAt < now || session.lastUsedAt < now - settings.sessionIdle

def reapSessions (settings : Settings) (rows : Rows) : Rows :=
  { rows with sessions := rows.sessions.filter fun session => !session.inert settings rows.now }

/-- The account's rows, when the session was started, and when the last request on it
succeeded, or else the login. -/
structure Visits where
  rows : Rows
  loginAt : Time
  lastSuccess : Time

inductive Visit
  | request (delays : Delays)
  | elapse (span : Nat)
  | reap

/-- What a request leaves: a success is remembered by its later clock reading. -/
def Visits.request (visits : Visits) (settings : Settings) (token : SessionId)
    (delays : Delays) : Visits :=
  match authenticate settings token delays visits.rows with
  | (.ok _, rows) =>
      { visits with rows := rows, lastSuccess := delays.slidAt visits.rows }
  | (.error _, rows) => { visits with rows := rows }

/-- Requests on a session, from the login that starts it on. -/
def visiting (settings : Settings) (token : SessionId) : TransitionSystem Visits Visit where
  Initial := fun visits => ∃ before user, before.user.deletedAt = none ∧
    (∀ session ∈ before.sessions, session.id ≠ token) ∧
    visits = ⟨performAll Rows.perform before (startSession settings token user before),
      before.now, before.now⟩
  step := fun visits visit =>
    match visit with
    | .request delays => some (visits.request settings token delays)
    | .elapse span => some { visits with rows := visits.rows.elapse span }
    | .reap => some { visits with rows := reapSessions settings visits.rows }

variable {settings : Settings} {token : SessionId} {visits : Visits} {rows : Rows}
  {delays : Delays}

/-! ## A request -/

/-- The rows a cookie's hash selects. -/
def named (token : SessionId) (rows : Rows) : List UserSession :=
  rows.sessions.filter fun session => session.id == token

theorem resolveSession_eq (settings : Settings) (token : SessionId) (rows : Rows) :
    resolveSession settings token rows =
      match (named token rows).find? (·.live settings rows.now) with
      | some session => if rows.user.deletedAt.isNone then some (session, rows.user) else none
      | none => none := by
  have same : (named token rows).find? (·.live settings rows.now) =
      rows.sessions.find? fun session => session.id == token && session.live settings rows.now := by
    rw [named, List.find?_filter]
    simp only [Bool.decide_and, Bool.decide_eq_true]
  unfold resolveSession
  cases found : rows.sessions.find? fun session =>
      session.id == token && session.live settings rows.now with
  | none => simp only [same, found]
  | some session => simp only [same, found]

/-- A request in terms of the session it resolves to. -/
theorem authenticate_eq (settings : Settings) (token : SessionId) (delays : Delays)
    (rows : Rows) :
    authenticate settings token delays rows =
      match resolveSession settings token (rows.elapse delays.resolve) with
      | none =>
          (.error ⟨"session", "not_resolvable", 401, "Session is no longer valid"⟩,
            rows.elapse delays.resolve)
      | some (session, user) =>
          (.ok (session, user),
            if delays.slidAt rows - session.lastUsedAt < idleBumpInterval then
              (rows.elapse delays.resolve).elapse delays.clock
            else
              ((((rows.elapse delays.resolve).elapse delays.clock).elapse delays.slide).elapse
                delays.commit).perform (.slideSession session.id (delays.slidAt rows))) := by
  have resolves : authenticate settings token delays rows =
      Program.alone Rows.perform Rows.elapse
        (match resolveSession settings token (rows.elapse delays.resolve) with
          | none => Program.raise ⟨"session", "not_resolvable", 401, "Session is no longer valid"⟩
          | some (session, user) => do
              slideIdleClock session
              pure (session, user))
        [] [delays.clock, delays.slide, delays.commit] (rows.elapse delays.resolve) := rfl
  rw [resolves]
  cases resolveSession settings token (rows.elapse delays.resolve) with
  | none => rfl
  | some resolved =>
      obtain ⟨session, user⟩ := resolved
      have slides : Program.alone Rows.perform Rows.elapse
          (slideIdleClock session >>= fun _ => pure (session, user) :
            Handler (UserSession × User)) []
          [delays.clock, delays.slide, delays.commit] (rows.elapse delays.resolve) =
          Program.alone Rows.perform Rows.elapse
            ((if delays.slidAt rows - session.lastUsedAt < idleBumpInterval then pure ()
              else do
                Program.update fun _ => [.slideSession session.id (delays.slidAt rows)]
                Program.commitTransaction) >>= fun _ => pure (session, user)) []
            [delays.slide, delays.commit] ((rows.elapse delays.resolve).elapse delays.clock) := rfl
      refine Eq.trans slides ?_
      by_cases recent : delays.slidAt rows - session.lastUsedAt < idleBumpInterval
      · simp only [if_pos recent]
        rfl
      · simp only [if_neg recent]
        rfl

/-! ## The row of the session -/

@[simp] theorem named_slideSession (token id : SessionId) (moment : Time) (rows : Rows) :
    named token (rows.perform (.slideSession id moment)) =
      (named token rows).map (.slide id moment) := by
  rw [named, Rows.perform, List.filter_map]
  congr 1
  refine List.filter_congr fun session _ => ?_
  rw [Function.comp_apply, UserSession.slide_id]

theorem named_startSession {before : Rows} (fresh : ∀ session ∈ before.sessions, session.id ≠ token)
    (user : User) :
    named token (performAll Rows.perform before (startSession settings token user before)) =
      [{ id := token, lastUsedAt := before.now, expiresAt := before.now + settings.sessionAbsolute,
         revokedAt := none, checked := user.passwordHash }] := by
  have none_ : before.sessions.filter (fun session => session.id == token) = [] := by
    refine List.filter_eq_nil_iff.mpr fun session member => ?_
    simpa using fresh session member
  rw [startSession, performAll_cons, performAll_nil, named, Rows.perform, List.filter_append,
    none_]
  simp

theorem named_reapSessions (settings : Settings) (token : SessionId) (rows : Rows) :
    named token (reapSessions settings rows) =
      (named token rows).filter fun session => !session.inert settings rows.now := by
  rw [named, reapSessions, List.filter_filter, named, List.filter_filter]
  exact List.filter_congr fun session _ => Bool.and_comm _ _

/-- What the row of the session says of the requests so far. -/
structure Lags (settings : Settings) (visits : Visits) (session : UserSession) : Prop where
  unrevoked : session.revokedAt = none
  expires : session.expiresAt = visits.loginAt + settings.sessionAbsolute
  early : session.lastUsedAt ≤ visits.lastSuccess
  close : visits.lastSuccess - session.lastUsedAt < idleBumpInterval

/-- The row is there, or was reaped and would not do any more. -/
inductive RowKept (settings : Settings) (token : SessionId) (visits : Visits) : Prop
  | held (session : UserSession) (only : named token visits.rows = [session])
      (lags : Lags settings visits session)
  | reaped (gone : named token visits.rows = [])
      (late : visits.loginAt + settings.sessionAbsolute < visits.rows.now ∨
        settings.sessionIdle - idleBumpInterval < visits.rows.now - visits.lastSuccess)

/-- The invariant. -/
structure Kept (settings : Settings) (token : SessionId) (visits : Visits) : Prop where
  undeleted : visits.rows.user.deletedAt = none
  past : visits.lastSuccess ≤ visits.rows.now
  row : RowKept settings token visits

theorem resolveSession_of_only (settings : Settings) {session : UserSession}
    (only : named token rows = [session]) (undeleted : rows.user.deletedAt = none) :
    resolveSession settings token rows =
      if session.live settings rows.now = true then some (session, rows.user) else none := by
  rw [resolveSession_eq, only]
  by_cases live : session.live settings rows.now = true
  · simp [live, undeleted]
  · simp [live]

theorem resolveSession_of_gone (settings : Settings) (gone : named token rows = []) :
    resolveSession settings token rows = none := by
  rw [resolveSession_eq, gone]
  rfl

theorem Lags.live_iff {session : UserSession} (lags : Lags settings visits session) (now : Time) :
    session.live settings now = true ↔
      now < visits.loginAt + settings.sessionAbsolute ∧
        now - settings.sessionIdle < session.lastUsedAt := by
  rw [UserSession.live, lags.unrevoked, lags.expires]
  simp

/-- A request succeeds exactly if the row lets it. -/
theorem succeeds_iff {session : UserSession} (only : named token rows = [session])
    (undeleted : rows.user.deletedAt = none) :
    Succeeds settings token delays rows ↔
      session.live settings (delays.resolvedAt rows) = true := by
  have later : named token (rows.elapse delays.resolve) = [session] := only
  rw [Succeeds, authenticate_eq, resolveSession_of_only settings later undeleted]
  change _ ↔ session.live settings (rows.elapse delays.resolve).now = true
  by_cases live : session.live settings (rows.elapse delays.resolve).now = true
  · rw [if_pos live]
    exact iff_of_true rfl live
  · rw [if_neg live]
    exact iff_of_false Bool.false_ne_true live

theorem not_succeeds_of_gone (gone : named token rows = []) :
    ¬ Succeeds settings token delays rows := by
  have later : named token (rows.elapse delays.resolve) = [] := gone
  rw [Succeeds, authenticate_eq, resolveSession_of_gone settings later]
  exact Bool.false_ne_true

/-! ## Runs -/

/-- Time passing keeps it. -/
theorem Kept.elapse (kept : Kept settings token visits) (span : Nat) :
    Kept settings token { visits with rows := visits.rows.elapse span } := by
  have past := kept.past
  have ahead : visits.rows.now ≤ (visits.rows.elapse span).now :=
    Int.le_add_of_nonneg_right (Int.natCast_nonneg span)
  refine ⟨kept.undeleted, past.trans ahead, ?_⟩
  · cases kept.row with
    | held session only lags => exact .held session only ⟨lags.1, lags.2, lags.3, lags.4⟩
    | reaped gone late =>
        refine .reaped gone (late.imp (fun expired => expired.trans_le ahead) fun idle => ?_)
        exact idle.trans_le (Int.sub_le_sub_right ahead _)

/-- A request that fails only takes time. -/
theorem request_of_fail (fails : resolveSession settings token
    (visits.rows.elapse delays.resolve) = none) :
    visits.request settings token delays =
      { visits with rows := visits.rows.elapse delays.resolve } := by
  rw [Visits.request, authenticate_eq, fails]

/-- One that succeeds writes the clock if it lags by a minute. -/
theorem request_of_success {session : UserSession} {user : User}
    (resolved : resolveSession settings token (visits.rows.elapse delays.resolve) =
      some (session, user)) :
    visits.request settings token delays =
      { visits with
        rows :=
          if delays.slidAt visits.rows - session.lastUsedAt < idleBumpInterval then
            (visits.rows.elapse delays.resolve).elapse delays.clock
          else
            ((((visits.rows.elapse delays.resolve).elapse delays.clock).elapse
              delays.slide).elapse delays.commit).perform
                (.slideSession session.id (delays.slidAt visits.rows))
        lastSuccess := delays.slidAt visits.rows } := by
  rw [Visits.request, authenticate_eq, resolved]

/-- **A request keeps the invariant.** -/
theorem Kept.request (kept : Kept settings token visits) (delays : Delays) :
    Kept settings token (visits.request settings token delays) := by
  have elapsed := kept.elapse delays.resolve
  cases elapsed.row with
  | reaped gone late =>
      rw [request_of_fail (resolveSession_of_gone settings gone)]
      exact elapsed
  | held session only lags =>
      have resolved := resolveSession_of_only settings only elapsed.undeleted
      by_cases live : session.live settings (visits.rows.elapse delays.resolve).now = true
      · rw [if_pos live] at resolved
        rw [request_of_success resolved]
        have ahead : visits.lastSuccess ≤ delays.slidAt visits.rows :=
          elapsed.past.trans (Int.le_add_of_nonneg_right (Int.natCast_nonneg _))
        by_cases recent : delays.slidAt visits.rows - session.lastUsedAt < idleBumpInterval
        · rw [if_pos recent]
          exact ⟨elapsed.undeleted, le_rfl,
            .held session only ⟨lags.1, lags.2, lags.3.trans ahead, recent⟩⟩
        · rw [if_neg recent]
          have slid : session.slide session.id (delays.slidAt visits.rows) =
              { session with lastUsedAt := delays.slidAt visits.rows } := if_pos rfl
          refine ⟨elapsed.undeleted, ?_, .held
            { session with lastUsedAt := delays.slidAt visits.rows } ?_
            ⟨lags.1, lags.2, le_rfl, ?_⟩⟩
          · exact (Int.le_add_of_nonneg_right (Int.natCast_nonneg delays.slide)).trans
              (Int.le_add_of_nonneg_right (Int.natCast_nonneg delays.commit))
          · rw [named_slideSession, ← slid]
            exact congrArg (List.map _) only
          · exact (Int.sub_self _).trans_lt (by decide)
      · rw [if_neg live] at resolved
        rw [request_of_fail resolved]
        exact elapsed

/-- What the sweep deletes would not have been resolved any more. -/
theorem Kept.reap (kept : Kept settings token visits) :
    Kept settings token { visits with rows := reapSessions settings visits.rows } := by
  refine ⟨kept.undeleted, kept.past, ?_⟩
  cases kept.row with
  | held session only lags =>
      by_cases inert : session.inert settings visits.rows.now = true
      · refine .reaped ?_ ?_
        · rw [named_reapSessions, only]
          simp [inert]
        · rw [UserSession.inert, lags.expires, Bool.or_eq_true, decide_eq_true_eq,
            decide_eq_true_eq] at inert
          have close := lags.close
          refine inert.imp id fun idle => ?_
          change settings.sessionIdle - idleBumpInterval < visits.rows.now - visits.lastSuccess
          linarith
      · refine .held session ?_ ⟨lags.1, lags.2, lags.3, lags.4⟩
        rw [named_reapSessions, only]
        simp [inert]
  | reaped gone late =>
      refine .reaped ?_ late
      rw [named_reapSessions, gone]
      rfl

theorem kept_of_reached (reached : (visiting settings token).Reachable visits) :
    Kept settings token visits := by
  refine reached.invariant ?_ ?_
  · rintro visits ⟨before, user, undeleted, fresh, rfl⟩
    refine ⟨undeleted, le_rfl, .held _ (named_startSession fresh user) ⟨rfl, rfl, le_rfl, ?_⟩⟩
    change before.now - before.now < idleBumpInterval
    rw [Int.sub_self]
    decide
  · intro visits visit next kept _ moved
    cases visit with
    | request delays =>
        cases moved
        exact kept.request delays
    | elapse span =>
        cases moved
        exact kept.elapse span
    | reap =>
        cases moved
        exact kept.reap

/-- **The clocks of a session.** A request succeeds only before the absolute expiry and while
less than the idle limit has passed since the last success, and it does succeed if a minute
less than that has passed. -/
theorem session_clocks (reached : (visiting settings token).Reachable visits)
    (delays : Delays) :
    (Succeeds settings token delays visits.rows →
        delays.resolvedAt visits.rows < visits.loginAt + settings.sessionAbsolute ∧
          delays.resolvedAt visits.rows - visits.lastSuccess < settings.sessionIdle) ∧
      (delays.resolvedAt visits.rows < visits.loginAt + settings.sessionAbsolute →
        delays.resolvedAt visits.rows - visits.lastSuccess <
            settings.sessionIdle - idleBumpInterval →
          Succeeds settings token delays visits.rows) := by
  have kept := kept_of_reached reached
  cases kept.row with
  | held session only lags =>
      rw [succeeds_iff only kept.undeleted, lags.live_iff]
      have early := lags.early
      have close := lags.close
      refine ⟨fun live => ⟨live.1, ?_⟩, fun unexpired recent => ⟨unexpired, ?_⟩⟩
      · have idle := live.2
        linarith
      · linarith
  | reaped gone late =>
      refine ⟨fun success => absurd success (not_succeeds_of_gone gone), fun unexpired recent => ?_⟩
      have ahead : visits.rows.now ≤ delays.resolvedAt visits.rows :=
        Int.le_add_of_nonneg_right (Int.natCast_nonneg _)
      rcases late with expired | idle <;> linarith

/-- An account at the moment of its first login. -/
def newcomer : Rows where
  now := 0
  user := ⟨"ada@example.org", ⟨"password", 0⟩, some 0, none⟩
  otherEmails := []
  sessions := []
  emailChangeTokens := []
  passwordResetTokens := []
  passwordWrites := []

/-- A request half a minute after the login is not written down, and one within seven days less
a minute of it succeeds. -/
theorem session_clocks_unwritten :
    ∃ visits : Visits, (visits.lastSuccess = 30000000 ∧
        visits.rows.sessions.map (·.lastUsedAt) = [0]) ∧
      Succeeds defaultSettings 0 ⟨600000000000, 0, 0, 0⟩ visits.rows := by
  have begins : (visiting defaultSettings 0).Initial
      ⟨performAll Rows.perform newcomer (startSession defaultSettings 0 newcomer.user newcomer),
        0, 0⟩ :=
    ⟨newcomer, newcomer.user, rfl, List.forall_mem_nil _, rfl⟩
  obtain ⟨visits, reached, shape⟩ := TransitionSystem.exists_reachable_of_run begins
    [.request ⟨30000000, 0, 0, 0⟩, .reap]
    (fun visits => decide (visits.loginAt = 0 ∧ visits.rows.now = 30000000 ∧
      visits.lastSuccess = 30000000 ∧ visits.rows.sessions.map (·.lastUsedAt) = [0]))
    (by decide +kernel)
  obtain ⟨login, now, success, rows⟩ := of_decide_eq_true shape
  refine ⟨visits, ⟨success, rows⟩, (session_clocks reached _).2 ?_ ?_⟩
  · rw [Delays.resolvedAt, login, now]
    decide
  · rw [Delays.resolvedAt, success, now]
    decide

end FrontDashboard.Auth
