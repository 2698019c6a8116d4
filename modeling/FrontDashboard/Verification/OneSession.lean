import FrontDashboard.Verification.Routes

/-! # Verification starts one session

Whatever links of an account are redeemed beside each other and beside resends, one of them
at most starts a session, and none is left to redeem then.
-/

namespace FrontDashboard.Verification

open ReadCommitted ReadCommitted.Program
open Auth (AccountLock Failure SessionId Time)

variable {settings : Settings} {rows : Rows}

/-- The request has answered with a session. -/
def Returns (state : State Rows Write AccountLock Failure (Option SessionId))
    (process : ProcessId) (session : SessionId) : Prop :=
  ∃ pending, state.processes process = some ⟨.answer (some session), pending⟩

/-- A verification has succeeded. -/
def Succeeded (rows : Rows) : Prop := ∃ session, .started session ∈ rows.history

/-- One redemption at most returns a session, by which the account is verified; from then on
every link is spent, and none is issued. -/
structure OneSession (state : State Rows Write AccountLock Failure (Option SessionId)) : Prop where
  once : ∀ first second session other, Returns state first session → Returns state second other →
    first = second
  single : state.database.sessions.length ≤ 1
  returned : ∀ process session, Returns state process session →
    session ∈ state.database.sessions.map (·.id)
  verified : state.database.user.emailVerifiedAt.isSome = true ↔ Succeeded state.database
  spent : Succeeded state.database →
    ∀ token ∈ state.database.tokens, token.usedAt.isSome = true
  quiet : ∀ before session after,
    state.database.history = before ++ .started session :: after → after = []

/-- The invariant: links are issued until one is redeemed. -/
inductive Sound (rows : Rows) : Prop
  | waiting (issued : List TokenId) (history : rows.history = issued.map .issued)
      (unverified : rows.user.emailVerifiedAt = none) (sessions : rows.sessions = [])
  | redeemed (issued : List TokenId) (session : UserSession)
      (history : rows.history = issued.map .issued ++ [.started session.id])
      (verified : rows.user.emailVerifiedAt.isSome = true) (sessions : rows.sessions = [session])
      (spent : ∀ token ∈ rows.tokens, token.usedAt.isSome = true)

/-! ## What the account's lock protects -/

/-- History grows, and under the lock the account is left alone but for links that expire. -/
structure Relies (held : Set AccountLock) (before after : Rows) : Prop where
  history : ∀ event ∈ before.history, event ∈ after.history
  user : .account ∈ held → after.user = before.user
  tokens : .account ∈ held → after.tokens ⊆ before.tokens

theorem Relies.refl (held : Set AccountLock) (rows : Rows) : Relies held rows rows where
  history := fun _ => id
  user := fun _ => rfl
  tokens := fun _ => List.Subset.refl _

/-- A process relies on two steps as on one. -/
theorem Relies.trans {held : Set AccountLock} {first second third : Rows}
    (earlier : Relies held first second) (later : Relies held second third) :
    Relies held first third where
  history := fun event member => later.history event (earlier.history event member)
  user := fun holds => (later.user holds).trans (earlier.user holds)
  tokens := fun holds => List.Subset.trans (later.tokens holds) (earlier.tokens holds)

/-- What a transaction that holds the lock commits disturbs no other. -/
theorem Relies.of_holds {held others : Set AccountLock} (holds : .account ∈ held)
    (apart : Disjoint held others) {before after : Rows}
    (history : ∀ event ∈ before.history, event ∈ after.history) : Relies others before after := by
  have free : .account ∉ others := Set.disjoint_left.mp apart holds
  exact ⟨history, fun holds => absurd holds free, fun holds => absurd holds free⟩

def locked : Interference Rows AccountLock where
  invariant := Sound
  rely := Relies
  refl := Relies.refl
  trans := fun _ _ _ _ => Relies.trans

/-- A request answers with a session once the session has been started. -/
def Answers (process : ProcessId) (answer : Option SessionId) (rows : Rows) : Prop :=
  ∀ session, answer = some session → session = process ∧ .started process ∈ rows.history

/-- What a process answered stays so. -/
theorem answers_stable : Service.Stable locked Answers :=
  fun _ _ _ _ _ relied answered session same =>
    ⟨(answered session same).1, relied.history _ (answered session same).2⟩

/-- The program keeps the invariant and answers as it should. -/
abbrev Safe (process : ProcessId) (program : Handler (Option SessionId)) (pending : List Write)
    (held : Set AccountLock) (rows : Rows) : Prop :=
  Ensures Rows.perform locked (fun _ _ => True) (fun answer _ _ rows => Answers process answer rows)
    program pending held rows

theorem answers_none (process : ProcessId) (rows : Rows) : Answers process none rows :=
  fun _ absurd => nomatch absurd

/-! ## Commits -/

/-- Links that go leave the rest as it is. -/
theorem Sound.of_subset {changed : Rows} (sound : Sound rows)
    (user : changed.user.emailVerifiedAt = rows.user.emailVerifiedAt)
    (sessions : changed.sessions = rows.sessions) (history : changed.history = rows.history)
    (tokens : changed.tokens ⊆ rows.tokens) : Sound changed := by
  cases sound with
  | waiting issued past unverified none_ =>
      exact .waiting issued (history.trans past) (user.trans unverified) (sessions.trans none_)
  | redeemed issued session past verified only spent =>
      refine .redeemed issued session (history.trans past) ?_ (sessions.trans only) ?_
      · rw [user]
        exact verified
      · exact fun token present => spent token (tokens present)

/-- Spending a token that was not used uses it. -/
theorem EmailVerificationToken.spend_isSome {ids : List TokenId} (moment : Time)
    {token : EmailVerificationToken} (unused : token.usedAt = none → token.id ∈ ids) :
    (token.spend ids moment).usedAt.isSome = true := by
  rw [EmailVerificationToken.spend]
  by_cases named : token.id ∈ ids
  · rw [if_pos named]
    rfl
  · rw [if_neg named]
    exact Option.isSome_iff_ne_none.mpr fun none_ => named (unused none_)

/-- **A redemption**: every link that the account has by then is spent. -/
theorem Sound.redeem (sound : Sound rows) (unverified : rows.user.emailVerifiedAt = none)
    {ids : List TokenId} (all : ∀ token ∈ rows.tokens, token.usedAt = none → token.id ∈ ids)
    (moment : Time) (session : UserSession) :
    Sound (performAll Rows.perform rows
      [.spendTokens ids moment, .verify moment, .insertSession session]) := by
  cases sound with
  | redeemed issued session history verified =>
      rw [unverified] at verified
      cases verified
  | waiting issued history _ sessions =>
      refine .redeemed issued session ?_ rfl ?_ ?_
      · exact congrArg (· ++ [Event.started session.id]) history
      · exact congrArg (· ++ [session]) sessions
      · intro token present
        obtain ⟨old, before, rfl⟩ := List.mem_map.mp present
        exact EmailVerificationToken.spend_isSome moment (all old before)

/-- A link is issued while the account is not verified. -/
theorem Sound.issue (sound : Sound rows) (unverified : rows.user.emailVerifiedAt = none)
    (token : EmailVerificationToken) : Sound (rows.perform (.insertToken token)) := by
  cases sound with
  | redeemed issued session history verified =>
      rw [unverified] at verified
      cases verified
  | waiting issued history _ sessions =>
      refine .waiting (issued ++ [token.id]) ?_ unverified sessions
      rw [List.map_append, ← history]
      rfl

/-! ## Programs -/

/-- Under the lock the account is as the request has read it. -/
theorem safe_lockLiveUser {process : ProcessId}
    {rest : Option User → Handler (Option SessionId)}
    (absent : ∀ later, Safe process (rest none) [] {.account} later)
    (present : ∀ later, Safe process (rest (some later.user)) [] {.account} later)
    (rows : Rows) : Safe process (lockLiveUser >>= rest) [] ∅ rows := by
  intro waited _ _ later _ _
  have only : insert AccountLock.account (∅ : Set AccountLock) = {.account} :=
    insert_empty_eq _
  rw [only]
  change Safe process (rest (if later.user.deletedAt.isNone then some later.user else none)) []
    {.account} later
  by_cases live : later.user.deletedAt.isNone = true
  · rw [if_pos live]
    exact present later
  · rw [if_neg live]
    exact absent later

/-- The account is locked. -/
theorem account_mem : AccountLock.account ∈ ({.account} : Set AccountLock) := Set.mem_singleton _

/-- Verifying is safe. -/
theorem safe_verifyEmail (settings : Settings) (token : TokenId) (process : ProcessId)
    (rows : Rows) : Safe process (verifyEmail settings token process) [] ∅ rows := by
  refine Ensures.query fun begun _ _ => Ensures.query fun read _ _ => ?_
  split
  next => trivial
  next link _ =>
    refine safe_lockLiveUser ?_ ?_ read
    · exact fun _ => trivial
    intro found
    dsimp only
    by_cases verified : found.user.emailVerifiedAt.isSome = true
    · rw [if_pos verified]
      trivial
    rw [if_neg verified]
    by_cases used : link.usedAt.isSome = true
    · rw [if_pos used]
      trivial
    rw [if_neg used]
    refine Ensures.update fun spending alone₁ _ => Ensures.update fun marking alone₂ _ => ?_
    refine Ensures.update fun starting alone₃ _ => ?_
    intro later alone₄ sound _
    have since := (alone₂.trans alone₃).trans alone₄
    have user : later.user = found.user :=
      (since.user account_mem).trans (alone₁.user account_mem)
    have unverified : later.user.emailVerifiedAt = none := by
      rw [user]
      exact Option.not_isSome_iff_eq_none.mp verified
    have all : ∀ token ∈ later.tokens, token.usedAt = none → token.id ∈ unusedTokens spending :=
      fun token present unused => List.mem_map_of_mem
        (List.mem_filter.mpr ⟨since.tokens account_mem present, by simp [unused]⟩)
    refine ⟨sound.redeem unverified all _ _, fun others apart => ?_, ?_⟩
    · exact Relies.of_holds account_mem apart fun event => List.mem_append_left _
    · intro final relied _ session same
      cases same
      exact ⟨rfl, relied.history _ (List.mem_append_right _ List.mem_cons_self)⟩

theorem safe_resendVerificationLink (settings : Settings) (email : String) (token : TokenId)
    (process : ProcessId) (rows : Rows) :
    Safe process (resendVerificationLink settings email token) [] ∅ rows := by
  refine Ensures.query fun begun _ _ => Ensures.query fun read _ _ => ?_
  split
  · exact answers_none process read
  refine safe_lockLiveUser ?_ ?_ read
  · exact answers_none process
  intro found
  dsimp only
  by_cases verified : found.user.emailVerifiedAt.isSome = true
  · rw [if_pos verified]
    exact answers_none process found
  rw [if_neg verified]
  refine Ensures.query fun checked alone₁ _ => ?_
  split
  · exact answers_none process checked
  refine Ensures.update fun minting alone₂ _ => ?_
  intro later alone₃ sound _
  have user : later.user = found.user := ((alone₁.trans alone₂).trans alone₃).user account_mem
  have unverified : later.user.emailVerifiedAt = none := by
    rw [user]
    exact Option.not_isSome_iff_eq_none.mp verified
  refine ⟨sound.issue unverified _, fun others apart => ?_, answers_none process _⟩
  exact Relies.of_holds account_mem apart fun event => List.mem_append_left _

theorem safe_deleteAccount (process : ProcessId) (rows : Rows) :
    Safe process deleteAccount [] ∅ rows := by
  refine safe_lockLiveUser ?_ ?_ rows
  · exact answers_none process
  intro found
  refine Ensures.update fun _ _ _ => Ensures.update fun _ _ _ => ?_
  intro later _ sound _
  refine ⟨?_, fun others apart => Relies.of_holds account_mem apart fun _ => id,
    answers_none process _⟩
  exact sound.of_subset rfl rfl rfl (List.nil_subset _)

/-! ## Runs -/

/-- **Every request** is safe. -/
theorem safe_handler (settings : Settings) (process : ProcessId) (request : Request)
    (rows : Rows) : Safe process (handler settings process request) [] ∅ rows := by
  cases request with
  | verifyEmail token => exact safe_verifyEmail settings token process rows
  | resendVerification email token =>
      exact safe_resendVerificationLink settings email token process rows
  | deleteAccount => exact safe_deleteAccount process rows

/-- Links expire outside the requests, and nothing else changes. -/
theorem outside_frame (rows : Rows) (event : Outside) :
    (rows.outside event).user = rows.user ∧ (rows.outside event).sessions = rows.sessions ∧
      (rows.outside event).history = rows.history ∧ (rows.outside event).tokens ⊆ rows.tokens := by
  cases event with
  | elapse span => exact ⟨rfl, rfl, rfl, List.Subset.refl _⟩
  | reap => exact ⟨rfl, rfl, rfl, List.filter_sublist.subset⟩

/-- The service keeps its rows sound. -/
theorem verified_service (settings : Settings) :
    Service.Verified (service settings) locked (fun _ _ => True) where
  initially := fun _ begins => .waiting [] begins.history begins.unverified begins.sessions
  handlers := fun process request rows _ =>
    (safe_handler settings process request rows).mono fun _ _ _ _ _ => trivial
  keeps := by
    intro rows event sound
    obtain ⟨user, sessions, history, tokens⟩ := outside_frame rows event
    exact sound.of_subset (congrArg User.emailVerifiedAt user) sessions history tokens
  leaves := by
    intro rows event held
    obtain ⟨user, -, history, tokens⟩ := outside_frame rows event
    exact ⟨fun past member => history ▸ member, fun _ => user, fun _ => tokens⟩

/-- Issuing a token starts no session. -/
theorem not_started_mem_issued {issued : List TokenId} {session : SessionId} :
    Event.started session ∉ issued.map Event.issued := by
  simp

/-- What has been started, in a sound history. -/
theorem Sound.started_mem (sound : Sound rows) {session : SessionId}
    (member : .started session ∈ rows.history) :
    rows.sessions.map (·.id) = [session] ∧ rows.user.emailVerifiedAt.isSome = true ∧
      ∀ token ∈ rows.tokens, token.usedAt.isSome = true := by
  cases sound with
  | waiting issued history =>
      rw [history] at member
      exact absurd member not_started_mem_issued
  | redeemed issued only history verified sessions spent =>
      rw [history] at member
      rcases List.mem_append.mp member with earlier | last
      · exact absurd earlier not_started_mem_issued
      · cases List.mem_singleton.mp last
        rw [sessions]
        exact ⟨rfl, verified, spent⟩

/-- A verified account was verified by a success. -/
theorem Sound.succeeded (sound : Sound rows) (verified : rows.user.emailVerifiedAt.isSome = true) :
    Succeeded rows := by
  cases sound with
  | waiting issued history unverified =>
      rw [unverified] at verified
      cases verified
  | redeemed issued session history =>
      refine ⟨session.id, ?_⟩
      rw [history]
      exact List.mem_append_right _ List.mem_cons_self

/-- A success started one session at most. -/
theorem Sound.length_sessions (sound : Sound rows) : rows.sessions.length ≤ 1 := by
  cases sound with
  | waiting issued history unverified sessions =>
      rw [sessions]
      exact Nat.zero_le 1
  | redeemed issued session history verified sessions =>
      rw [sessions]
      exact le_rfl

/-- Nothing follows a redemption. -/
theorem Sound.quiet (sound : Sound rows) {before after : List Event} {session : SessionId}
    (split : rows.history = before ++ .started session :: after) : after = [] := by
  cases sound with
  | waiting issued history =>
      have member : Event.started session ∈ rows.history := by
        rw [split]
        exact List.mem_append_right _ List.mem_cons_self
      rw [history] at member
      exact absurd member not_started_mem_issued
  | redeemed issued only history =>
      rcases List.eq_nil_or_concat after with none_ | ⟨rest, last, ends⟩
      · exact none_
      · have same : issued.map Event.issued ++ [.started only.id] =
            (before ++ .started session :: rest) ++ [last] := by
          rw [← history, split, ends, List.append_assoc, List.concat_eq_append]
          rfl
        have member : Event.started session ∈ issued.map Event.issued := by
          rw [(List.append_inj' same rfl).1]
          exact List.mem_append_right _ List.mem_cons_self
        exact absurd member not_started_mem_issued

/-- **Verification starts one session**, in every interleaving. -/
theorem one_session {state : State Rows Write AccountLock Failure (Option SessionId)}
    (reached : (service settings).system.Reachable state) : OneSession state := by
  have sound : Sound state.database :=
    Service.invariant_of_reachable (verified_service settings) reached
  have answered : ∀ process session, Returns state process session →
      session = process ∧ .started process ∈ state.database.history := by
    rintro process session ⟨pending, ended⟩
    exact Service.answers_of_reachable (verified_service settings) answers_stable
      (fun process request rows _ => safe_handler settings process request rows) reached ended
      session rfl
  refine
    { once := fun first second session other returns returns' => ?_
      single := sound.length_sessions
      returned := fun process session returns => ?_
      verified := ⟨sound.succeeded, fun ⟨_, started⟩ => (sound.started_mem started).2.1⟩
      spent := fun ⟨_, started⟩ => (sound.started_mem started).2.2
      quiet := fun _ _ _ => sound.quiet }
  · have one := (sound.started_mem (answered first session returns).2).1
    have two := (sound.started_mem (answered second other returns').2).1
    exact List.singleton_inj.mp (one.symm.trans two)
  · obtain ⟨rfl, started⟩ := answered process session returns
    rw [(sound.started_mem started).1]
    exact List.mem_cons_self

def minuteSettings : Settings where
  sessionAbsolute := 60000000
  emailVerificationExpire := 60000000
  resendCooldown := 1000000

/-- An account with two links. -/
def newAccount : State Rows Write AccountLock Failure (Option SessionId) where
  database :=
    { now := 0, user := ⟨"ada@example.org", none, none⟩
      tokens := [⟨7, -5000000, 60000000, none⟩, ⟨8, -5000000, 60000000, none⟩]
      sessions := [], history := [] }
  holder := fun _ => none
  processes := fun _ => none

/-- The session that a request has answered with. -/
def returned (state : State Rows Write AccountLock Failure (Option SessionId))
    (process : ProcessId) : Option SessionId :=
  match state.processes process with
  | some ⟨.answer session, _⟩ => session
  | _ => none

/-- A process that returned a session returns it. -/
theorem returns_of_returned {state : State Rows Write AccountLock Failure (Option SessionId)}
    {process : ProcessId} {session : SessionId}
    (answered : returned state process = some session) : Returns state process session := by
  unfold returned at answered
  split at answered
  next value pending ended => exact ⟨pending, ended.trans (by rw [answered])⟩
  next => cases answered

/-- Both links are read before either is redeemed, and a third is issued in between. -/
theorem one_session_of_two_links :
    ∃ state : State Rows Write AccountLock Failure (Option SessionId),
      (state.database.history = [.issued 9, .started 0] ∧ Returns state 0 0) ∧
        OneSession state := by
  have begins : (service minuteSettings).system.Initial newAccount :=
    ⟨⟨rfl, rfl, rfl⟩, fun _ => rfl, fun _ => rfl⟩
  obtain ⟨state, reached, shape⟩ := TransitionSystem.exists_reachable_of_run begins
    (runs 0 (.verifyEmail 7) 2 ++ runs 1 (.verifyEmail 8) 2 ++
      runs 2 (.resendVerification "ada@example.org" 9) 8 ++ List.replicate 8 (.advance 0) ++
      List.replicate 4 (.advance 1))
    (fun state => decide (state.database.history = [.issued 9, .started 0] ∧
      returned state 0 = some 0)) (by decide +kernel)
  have ⟨history, answered⟩ := of_decide_eq_true shape
  exact ⟨state, ⟨history, returns_of_returned answered⟩, one_session reached⟩

end FrontDashboard.Verification
