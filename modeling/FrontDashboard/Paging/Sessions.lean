import FrontDashboard.Paging.EventTrash

/-! # The pages of the sessions

`list_sessions` lists the sessions of the caller that are live when the page is read, the
last signed in first. No request changes when a session began.
-/

namespace FrontDashboard.Paging

open Keyset

/-- The columns of `user_sessions` that the listing reads. -/
structure UserSession where
  id : Id
  userId : Id
  createdAt : Timestamp
  lastUsedAt : Timestamp
  expiresAt : Timestamp
  revokedAt : Option Timestamp
  deviceName : Option String
  deriving DecidableEq

def UserSession.position (session : UserSession) : Position :=
  toLex (session.createdAt, session.id)

/-- `_live`, with `session_idle_days` in microseconds. -/
def UserSession.live (sessionIdle : Nat) (now : Timestamp) (session : UserSession) : Bool :=
  session.revokedAt.isNone && decide (session.expiresAt > now) &&
    decide (session.lastUsedAt.val + sessionIdle > now.val)

structure SessionSummary where
  id : Id
  createdAt : Timestamp
  lastUsedAt : Timestamp
  expiresAt : Timestamp
  isCurrent : Bool
  deviceName : Option String
  deriving DecidableEq

structure SessionCursor where
  createdAt : Timestamp
  id : Id
  deriving DecidableEq

structure SessionPage where
  items : List SessionSummary
  nextCursor : Option SessionCursor
  deriving DecidableEq

structure Sessions where
  rows : List UserSession
  distinct : (rows.map UserSession.id).Nodup
  now : Timestamp

def listLiveSessions (sessionIdle : Nat) (userId : Id) (before : Option Position) (limit : Nat)
    (sessions : Sessions) : List UserSession :=
  ((sessions.rows.filter fun row =>
    (decide (row.userId = userId) && row.live sessionIdle sessions.now) &&
      before.all fun bound => decide (row.position < bound)).insertionSort
        fun first second => second.position ≤ first.position).take limit

def listSessions (sessionIdle : Nat) (currentUser session : Id) (before : Option Moment)
    (beforeId : Option Id) (sessions : Sessions) : Except Failure SessionPage := do
  let position ← checkCursor before beforeId
  let rows := listLiveSessions sessionIdle currentUser position 51 sessions
  let page := rows.take 50
  pure
    { items := page.map fun row =>
        ⟨row.id, row.createdAt, row.lastUsedAt, row.expiresAt, row.id == session, row.deviceName⟩
      nextCursor :=
        if 50 < rows.length then page.getLast?.map fun last => ⟨last.createdAt, last.id⟩
        else none }

/-! ## Sign-ins, revocations and expiries -/

inductive SessionChange
  | signedIn (session : UserSession)
  | revoked (ids : List Id) (now : Timestamp)
  | slid (id : Id) (now : Timestamp)
  | deletedRows (ids : List Id)
  | passed (later : Timestamp)
  deriving DecidableEq

def Sessions.update (sessions : Sessions) (change : UserSession → UserSession)
    (keeps : ∀ session, (change session).id = session.id) : Sessions :=
  { sessions with
    rows := sessions.rows.map change
    distinct := by
      rw [List.map_map, show UserSession.id ∘ change = UserSession.id from funext keeps]
      exact sessions.distinct }

def UserSession.revoke (ids : List Id) (now : Timestamp) (session : UserSession) : UserSession :=
  if session.id ∈ ids ∧ session.revokedAt = none then { session with revokedAt := some now }
  else session

def UserSession.slide (id : Id) (now : Timestamp) (session : UserSession) : UserSession :=
  if session.id = id then { session with lastUsedAt := now } else session

theorem UserSession.revoke_position (ids : List Id) (now : Timestamp) (session : UserSession) :
    (session.revoke ids now).position = session.position := by
  unfold revoke
  split <;> rfl

theorem UserSession.slide_position (id : Id) (now : Timestamp) (session : UserSession) :
    (session.slide id now).position = session.position := by
  unfold slide
  split <;> rfl

/-- Sessions with one position have one id. -/
theorem UserSession.id_of_position {first second : UserSession}
    (same : first.position = second.position) : first.id = second.id :=
  congrArg Prod.snd same

def Sessions.apply (sessions : Sessions) : SessionChange → Option Sessions
  | .signedIn session =>
      if fresh : session.id ∉ sessions.rows.map UserSession.id then
        some { sessions with
          rows := session :: sessions.rows
          distinct := List.nodup_cons.mpr ⟨fresh, sessions.distinct⟩ }
      else none
  | .revoked ids now =>
      some (sessions.update (UserSession.revoke ids now) fun session =>
        UserSession.id_of_position (session.revoke_position ids now))
  | .slid id now =>
      some (sessions.update (UserSession.slide id now) fun session =>
        UserSession.id_of_position (session.slide_position id now))
  | .deletedRows ids =>
      some { sessions with
        rows := sessions.rows.filter fun session => session.id ∉ ids
        distinct := sessions.distinct.sublist (List.filter_sublist.map UserSession.id) }
  | .passed later => some { sessions with now := later }

/-! ## The walk -/

structure SessionVisit where
  sessions : Sessions
  walk : Walk SessionPage SessionCursor

inductive SessionAction
  | changed (change : SessionChange)
  | fetched (session : Id)
  deriving DecidableEq

def SessionVisit.step (sessionIdle : Nat) (user : Id) (visit : SessionVisit) :
    SessionAction → Option SessionVisit
  | .changed change => (visit.sessions.apply change).map fun sessions => { visit with sessions }
  | .fetched session =>
      if visit.walk.Ended then none
      else
        match listSessions sessionIdle user session
            (visit.walk.cursor.map fun cursor => .aware cursor.createdAt)
            (visit.walk.cursor.map SessionCursor.id) visit.sessions with
        | .ok page => some { visit with walk := visit.walk.take page page.nextCursor }
        | .error _ => some visit

def sessionVisits (sessionIdle : Nat) (user : Id) (start : Sessions) :
    TransitionSystem SessionVisit SessionAction where
  Initial visit := visit = ⟨start, .begin⟩
  step visit := visit.step sessionIdle user

def Sessions.live (sessionIdle : Nat) (user : Id) (sessions : Sessions) : List UserSession :=
  sessions.rows.filter fun row =>
    decide (row.userId = user) && row.live sessionIdle sessions.now

/-- The session is in the listing that is walked. -/
def SessionVisit.Lists (sessionIdle : Nat) (user : Id) (visit : SessionVisit) (id : Id) : Prop :=
  id ∈ (visit.sessions.live sessionIdle user).map UserSession.id

/-- The ids on the pages of the walk. -/
def SessionVisit.shown (visit : SessionVisit) : List Id :=
  visit.walk.pages.flatMap fun page => page.items.map SessionSummary.id

end FrontDashboard.Paging
