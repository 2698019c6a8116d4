import FrontDashboard.Paging.Sessions

/-! # Rows that stay listed are paged exactly once

A session keeps the time it began. A deleted event keeps the time of its deletion unless a
second deletion, which read it before the first was written, is written over it.
-/

namespace FrontDashboard.Paging

open Keyset

/-! ## A page of deleted events -/

def TrashedEventCursor.position (cursor : TrashedEventCursor) : Position :=
  toLex (cursor.deletedAt, cursor.id)

def summaryOf (retention : Nat) (event : CalendarEvent) : TrashedEventSummary :=
  ⟨event.id, event.dashboardId, event.title, event.startsAt, event.recurring,
    event.deletedAt.getD 0, (event.deletedAt.getD 0).val + retention⟩

theorem filterMap_summary (retention : Nat) {events : List CalendarEvent}
    (trashed : ∀ event ∈ events, event.deletedAt.isSome = true) :
    events.filterMap (summary retention) = events.map (summaryOf retention) := by
  rw [← List.filterMap_eq_map, List.filterMap_congr]
  intro event member
  obtain ⟨deletedAt, deleted⟩ := Option.isSome_iff_exists.mp (trashed event member)
  simp [summary, summaryOf, deleted]

theorem summaries_of_found (retention : Nat) {events : List CalendarEvent}
    (trashed : ∀ event ∈ page trashPageSize events, event.deletedAt.isSome = true) :
    ((events.take trashPageSize).filterMap (summary retention)).map TrashedEventSummary.id =
        (page trashPageSize events).map CalendarEvent.id ∧
      Option.map TrashedEventCursor.position (if decide (trashPageSize < events.length) then
        ((events.take trashPageSize).filterMap (summary retention)).getLast?.map fun last =>
          (⟨last.deletedAt, last.id⟩ : TrashedEventCursor)
      else none) = next CalendarEvent.position trashPageSize events := by
  have summaries := filterMap_summary retention trashed
  rw [page] at summaries
  rw [summaries, List.map_map, List.getLast?_map, next, page]
  refine ⟨rfl, ?_⟩
  by_cases longer : trashPageSize < events.length
  · rw [if_pos longer, if_pos (decide_eq_true longer), Option.map_map, Option.map_map]
    rfl
  · rw [if_neg longer, if_neg (by simpa using longer)]
    rfl

theorem trashPage_answers (retention : Nat) (ids : List Id) (before : Option Position)
    (calendar : Calendar) :
    Answers CalendarEvent.position CalendarEvent.id trashPageSize
      (calendar.events.filter (·.trashedIn ids)) before
      ((trashPage retention ids before calendar).items.map TrashedEventSummary.id)
      ((trashPage retention ids before calendar).nextCursor.map TrashedEventCursor.position) := by
  have rows : (calendar.events.filter fun event => event.trashedIn ids &&
      before.all fun bound => decide (event.position < bound)) =
      (calendar.events.filter (·.trashedIn ids)).filter (below CalendarEvent.position before) := by
    rw [List.filter_filter]
    exact List.filter_congr fun event _ => Bool.and_comm _ _
  have trashed : ∀ event ∈ page trashPageSize (found CalendarEvent.position trashPageSize before
      (calendar.events.filter (·.trashedIn ids))), event.deletedAt.isSome = true := by
    intro event member
    have listed := (mem_rows_of_mem_found (mem_found_of_mem_page member)).1
    exact ((Bool.and_eq_true _ _).mp (List.mem_filter.mp listed).2).1
  obtain ⟨items, goes⟩ := summaries_of_found retention trashed
  rw [trashPage, rows]
  exact ⟨items, goes⟩

theorem trashed_nodup (calendar : Calendar) (dashboardId : Option Id) :
    ((calendar.trashed dashboardId).map CalendarEvent.id).Nodup :=
  calendar.distinct.sublist (List.filter_sublist.map CalendarEvent.id)

/-- **A page of the trash** is a page of the events listed when it is read. -/
theorem eventTrash_answers {retention : Nat} {dashboardId : Option Id} {calendar : Calendar}
    {cursor : Option TrashedEventCursor} {page : TrashedEventPage}
    (answered : eventTrash retention dashboardId
      (cursor.map fun cursor => .aware cursor.deletedAt) (cursor.map TrashedEventCursor.id)
      calendar = .ok page) :
    Answers CalendarEvent.position CalendarEvent.id trashPageSize (calendar.trashed dashboardId)
      (cursor.map TrashedEventCursor.position) (page.items.map TrashedEventSummary.id)
      (page.nextCursor.map TrashedEventCursor.position) := by
  have checked : checkCursor (cursor.map fun cursor => .aware cursor.deletedAt)
      (cursor.map TrashedEventCursor.id) = .ok (cursor.map TrashedEventCursor.position) := by
    cases cursor <;> rfl
  rw [eventTrash, checked] at answered
  change (if calendar.accessible = [] then _ else _) = _ at answered
  split at answered
  next nothing =>
    cases answered
    have empty : calendar.trashed dashboardId = [] := by
      apply List.filter_eq_nil_iff.mpr
      intro event _
      cases dashboardId <;> simp [Calendar.scope, CalendarEvent.trashedIn, nothing]
    rw [empty]
    exact ⟨rfl, rfl⟩
  next =>
    cases dashboardId with
    | none =>
        cases answered
        exact trashPage_answers retention _ _ calendar
    | some id =>
        change (if id ∈ calendar.accessible then _ else _) = _ at answered
        split at answered
        next accessible =>
          cases answered
          have same : calendar.trashed (some id) =
              calendar.events.filter (·.trashedIn [id]) := by
            apply List.filter_congr
            intro event _
            have scope : event.dashboardId ∈ calendar.scope (some id) ↔
                event.dashboardId ∈ [id] := by
              simp only [Calendar.scope, List.mem_filter, List.mem_singleton, decide_eq_true_eq]
              exact ⟨And.right, fun own => ⟨own ▸ accessible, own⟩⟩
            simp only [CalendarEvent.trashedIn, scope]
          rw [same]
          exact trashPage_answers retention _ _ calendar
        next => cases answered

/-! ## A page of sessions -/

def SessionCursor.position (cursor : SessionCursor) : Position :=
  toLex (cursor.createdAt, cursor.id)

theorem live_nodup (sessionIdle : Nat) (user : Id) (sessions : Sessions) :
    ((sessions.live sessionIdle user).map UserSession.id).Nodup :=
  sessions.distinct.sublist (List.filter_sublist.map UserSession.id)

/-- **A page of sessions** is a page of those that are live when it is read. -/
theorem listSessions_answers {sessionIdle : Nat} {user session : Id} {sessions : Sessions}
    {cursor : Option SessionCursor} {page : SessionPage}
    (answered : listSessions sessionIdle user session
      (cursor.map fun cursor => .aware cursor.createdAt) (cursor.map SessionCursor.id)
      sessions = .ok page) :
    Answers UserSession.position UserSession.id 50 (sessions.live sessionIdle user)
      (cursor.map SessionCursor.position) (page.items.map SessionSummary.id)
      (page.nextCursor.map SessionCursor.position) := by
  have checked : checkCursor (cursor.map fun cursor => .aware cursor.createdAt)
      (cursor.map SessionCursor.id) = .ok (cursor.map SessionCursor.position) := by
    cases cursor <;> rfl
  have rows : listLiveSessions sessionIdle user (cursor.map SessionCursor.position) 51 sessions =
      found UserSession.position 50 (cursor.map SessionCursor.position)
        (sessions.live sessionIdle user) := by
    rw [listLiveSessions, found, listing, Sessions.live, List.filter_filter]
    simp only [below, Bool.and_comm]
  rw [listSessions, checked] at answered
  cases answered
  rw [rows]
  constructor
  · exact List.map_map
  · rw [next]
    split
    · rw [Option.map_map]
      rfl
    · rfl

/-! ## Runs of the walk through the trash -/

section Trash

variable {retention : Nat} {dashboardId : Option Id} {visit next : TrashVisit}
  {event : CalendarEvent}

/-- What a step of the walk does: change the events, or take in a page of them, or nothing. -/
inductive TrashVisit.Moves (dashboardId : Option Id) (visit : TrashVisit) (action : TrashAction)
    (next : TrashVisit) : Prop
  | changes (change : Change) : action = .changed change →
      visit.calendar.apply change = some next.calendar → next.walk = visit.walk →
        Moves dashboardId visit action next
  | takes (page : TrashedEventPage) : ¬ visit.walk.Ended →
      Answers CalendarEvent.position CalendarEvent.id trashPageSize
        (visit.calendar.trashed dashboardId) (visit.walk.cursor.map TrashedEventCursor.position)
        (page.items.map TrashedEventSummary.id)
        (page.nextCursor.map TrashedEventCursor.position) →
      next = { visit with walk := visit.walk.take page page.nextCursor } →
        Moves dashboardId visit action next
  | refused : next = visit → Moves dashboardId visit action next

theorem TrashVisit.moves_of_step {action : TrashAction}
    (moved : visit.step retention dashboardId action = some next) :
    visit.Moves dashboardId action next := by
  cases action with
  | changed change =>
      obtain ⟨calendar, changed, rfl⟩ := Option.map_eq_some_iff.mp moved
      exact .changes change rfl changed rfl
  | fetched =>
      rw [step] at moved
      split at moved
      next => cases moved
      next further =>
        split at moved
        next page answered =>
          cases moved
          exact .takes page further (eventTrash_answers answered) rfl
        next =>
          cases moved
          exact .refused rfl

/-- An event in the trash was there with the same time, unless a deletion just wrote it. -/
theorem trashed_before {calendar after : Calendar} {change : Change}
    (changed : calendar.apply change = some after) (present : event ∈ after.events)
    (trashed : event.deletedAt.isSome = true) :
    (∃ now, change = .deleteWritten event.id now) ∨
      ∃ earlier ∈ calendar.events, earlier.id = event.id ∧ earlier.deletedAt = event.deletedAt := by
  have updated : ∀ {calendar : Calendar} {id : Id} {update : CalendarEvent → CalendarEvent}
      {keeps : ∀ event, (update event).id = event.id},
      event ∈ (calendar.update id update keeps).events →
        ∃ earlier ∈ calendar.events, earlier.id = event.id ∧
          (event = earlier ∨ earlier.id = id ∧ event = update earlier) := by
    intro calendar id update keeps member
    obtain ⟨earlier, present, same⟩ := List.mem_map.mp member
    split at same
    next own => exact ⟨earlier, present, same ▸ (keeps earlier).symm, .inr ⟨own, same.symm⟩⟩
    next => exact ⟨earlier, present, congrArg _ same, .inl same.symm⟩
  cases change with
  | inserted fresh =>
      rw [Calendar.apply] at changed
      split at changed
      next allowed =>
        cases changed
        rcases List.mem_cons.mp present with rfl | earlier
        · rw [allowed.1] at trashed
          cases trashed
        · exact .inr ⟨event, earlier, rfl, rfl⟩
      next => cases changed
  | edited id title startsAt recurring =>
      cases changed
      obtain ⟨earlier, listed, same, rfl | ⟨_, rfl⟩⟩ := updated present
      · exact .inr ⟨event, listed, rfl, rfl⟩
      · exact .inr ⟨earlier, listed, same, rfl⟩
  | deleteRead id =>
      obtain ⟨_, changed⟩ := Option.ite_none_right_eq_some.mp changed
      cases changed
      exact .inr ⟨event, present, rfl, rfl⟩
  | deleteWritten id now =>
      obtain ⟨_, changed⟩ := Option.ite_none_right_eq_some.mp changed
      cases changed
      obtain ⟨earlier, listed, same, rfl | ⟨rfl, rfl⟩⟩ := updated present
      · exact .inr ⟨event, listed, rfl, rfl⟩
      · exact .inl ⟨now, rfl⟩
  | restoreRead id =>
      obtain ⟨_, changed⟩ := Option.ite_none_right_eq_some.mp changed
      cases changed
      exact .inr ⟨event, present, rfl, rfl⟩
  | restoreWritten id =>
      obtain ⟨_, changed⟩ := Option.ite_none_right_eq_some.mp changed
      cases changed
      obtain ⟨earlier, listed, same, rfl | ⟨rfl, rfl⟩⟩ := updated present
      · exact .inr ⟨event, listed, rfl, rfl⟩
      · cases trashed
  | purged ids =>
      cases changed
      exact .inr ⟨event, (List.mem_filter.mp present).1, rfl, rfl⟩
  | accessChanged dashboardIds =>
      cases changed
      exact .inr ⟨event, present, rfl, rfl⟩

/-- The event has kept its time, and the pages have it once or it is ahead. -/
structure TrashVisit.Sound (visit : TrashVisit) (event : CalendarEvent) : Prop where
  stands : ∀ other ∈ visit.calendar.events, other.id = event.id →
    other.deletedAt.isSome = true → other.position = event.position
  once : Once CalendarEvent.position CalendarEvent.id visit.shown
    (visit.walk.stand TrashedEventCursor.position) event

theorem mem_trashed {calendar : Calendar} :
    event ∈ calendar.trashed dashboardId →
      event ∈ calendar.events ∧ event.deletedAt.isSome = true := by
  intro member
  obtain ⟨present, trashed⟩ := List.mem_filter.mp member
  exact ⟨present, ((Bool.and_eq_true _ _).mp trashed).1⟩

/-- **A step** that writes no second deletion keeps an event that is listed. -/
theorem TrashVisit.sound_of_moves {action : TrashAction} (sound : visit.Sound event)
    (lists : visit.Lists dashboardId event.id) (stamps : ¬ visit.Restamps action)
    (moves : visit.Moves dashboardId action next) : next.Sound event := by
  obtain ⟨listed, member, same⟩ := List.mem_map.mp lists
  obtain ⟨present, trashed⟩ := mem_trashed member
  cases moves with
  | changes change acts changed walk =>
      constructor
      case stands =>
        intro other after sameId deleted
        rcases trashed_before changed after deleted with ⟨now, rfl⟩ | ⟨earlier, before, own, at_⟩
        · subst acts
          exact absurd ⟨listed, present, same.trans sameId.symm, trashed⟩ stamps
        · have position : other.position = earlier.position := by
            rw [CalendarEvent.position, CalendarEvent.position, own, at_]
          rw [position]
          exact sound.stands earlier before (own.trans sameId) (at_ ▸ deleted)
      case once =>
        rw [shown, walk]
        exact sound.once
  | takes page further answers moved =>
      subst moved
      refine ⟨sound.stands, ?_⟩
      have position := sound.stands listed present same trashed
      have shown : ({ visit with walk := visit.walk.take page page.nextCursor } :
        TrashVisit).shown =
          visit.shown ++ page.items.map TrashedEventSummary.id := by
        simp [TrashVisit.shown, Walk.take]
      rw [shown]
      have distinct := trashed_nodup visit.calendar dashboardId
      have taken := answers.once further page (by decide) distinct
        (places_of_keys distinct fun _ _ tied => congrArg Prod.snd tied) member
        (sound.once.congr same position)
      exact taken.congr same.symm position.symm
  | refused moved => exact moved ▸ sound

theorem TrashVisit.falls {action : TrashAction} (moves : visit.Moves dashboardId action next) :
    next.walk.stand TrashedEventCursor.position ≤ visit.walk.stand TrashedEventCursor.position ∧
      (next.walk = visit.walk ∨ next.walk.stand TrashedEventCursor.position <
        visit.walk.stand TrashedEventCursor.position) := by
  cases moves with
  | changes _ _ _ walk => rw [walk]; exact ⟨le_rfl, .inl rfl⟩
  | takes page further answers moved =>
      subst moved
      have lower := answers.stand_lt further page
      exact ⟨lower.le, .inr lower⟩
  | refused moved => rw [moved]; exact ⟨le_rfl, .inl rfl⟩

end Trash

/-! ## Runs of the walk through the sessions -/

section Sessions

variable {sessionIdle : Nat} {user : Id} {visit next : SessionVisit} {session : UserSession}

inductive SessionVisit.Moves (sessionIdle : Nat) (user : Id) (visit next : SessionVisit) : Prop
  | changes (change : SessionChange) : visit.sessions.apply change = some next.sessions →
      next.walk = visit.walk → Moves sessionIdle user visit next
  | takes (page : SessionPage) : ¬ visit.walk.Ended →
      Answers UserSession.position UserSession.id 50 (visit.sessions.live sessionIdle user)
        (visit.walk.cursor.map SessionCursor.position) (page.items.map SessionSummary.id)
        (page.nextCursor.map SessionCursor.position) →
      next = { visit with walk := visit.walk.take page page.nextCursor } →
        Moves sessionIdle user visit next
  | refused : next = visit → Moves sessionIdle user visit next

theorem SessionVisit.moves_of_step {action : SessionAction}
    (moved : visit.step sessionIdle user action = some next) :
    visit.Moves sessionIdle user next := by
  cases action with
  | changed change =>
      obtain ⟨sessions, changed, rfl⟩ := Option.map_eq_some_iff.mp moved
      exact .changes change changed rfl
  | fetched session =>
      rw [step] at moved
      split at moved
      next => cases moved
      next further =>
        split at moved
        next page answered =>
          cases moved
          exact .takes page further (listSessions_answers answered) rfl
        next =>
          cases moved
          exact .refused rfl

/-- A session was there with the same position, or has just been signed in. -/
theorem session_before {sessions after : Sessions} {change : SessionChange}
    (changed : sessions.apply change = some after) (present : session ∈ after.rows) :
    (∃ earlier ∈ sessions.rows, earlier.position = session.position) ∨
      session.id ∉ sessions.rows.map UserSession.id := by
  cases change with
  | signedIn fresh =>
      rw [Sessions.apply] at changed
      split at changed
      next allowed =>
        cases changed
        rcases List.mem_cons.mp present with rfl | earlier
        · exact .inr allowed
        · exact .inl ⟨session, earlier, rfl⟩
      next => cases changed
  | revoked ids now =>
      cases changed
      obtain ⟨earlier, listed, rfl⟩ := List.mem_map.mp present
      exact .inl ⟨earlier, listed, (earlier.revoke_position ids now).symm⟩
  | slid id now =>
      cases changed
      obtain ⟨earlier, listed, rfl⟩ := List.mem_map.mp present
      exact .inl ⟨earlier, listed, (earlier.slide_position id now).symm⟩
  | deletedRows ids =>
      cases changed
      exact .inl ⟨session, (List.mem_filter.mp present).1, rfl⟩
  | passed later =>
      cases changed
      exact .inl ⟨session, present, rfl⟩

structure SessionVisit.Sound (visit : SessionVisit) (session : UserSession) : Prop where
  stands : ∀ other ∈ visit.sessions.rows, other.id = session.id →
    other.position = session.position
  once : Once UserSession.position UserSession.id visit.shown
    (visit.walk.stand SessionCursor.position) session

/-- **A step** keeps a session that is listed. -/
theorem SessionVisit.sound_of_moves (sound : visit.Sound session)
    (lists : visit.Lists sessionIdle user session.id)
    (moves : visit.Moves sessionIdle user next) : next.Sound session := by
  obtain ⟨listed, member, same⟩ := List.mem_map.mp lists
  have present := (List.mem_filter.mp member).1
  cases moves with
  | changes change changed walk =>
      constructor
      case stands =>
        intro other after sameId
        rcases session_before changed after with ⟨earlier, before, position⟩ | fresh
        · have own := (UserSession.id_of_position position).trans sameId
          exact position.symm.trans (sound.stands earlier before own)
        · rw [sameId, ← same] at fresh
          exact absurd (List.mem_map_of_mem present) fresh
      case once =>
        rw [shown, walk]
        exact sound.once
  | takes page further answers moved =>
      subst moved
      refine ⟨sound.stands, ?_⟩
      have position := sound.stands listed present same
      have shown :
          ({ visit with walk := visit.walk.take page page.nextCursor } : SessionVisit).shown =
            visit.shown ++ page.items.map SessionSummary.id := by
        simp [SessionVisit.shown, Walk.take]
      rw [shown]
      have distinct := live_nodup sessionIdle user visit.sessions
      have taken := answers.once further page (by decide) distinct
        (places_of_keys distinct fun _ _ => UserSession.id_of_position) member
        (sound.once.congr same position)
      exact taken.congr same.symm position.symm
  | refused moved => exact moved ▸ sound

theorem SessionVisit.falls (moves : visit.Moves sessionIdle user next) :
    next.walk.stand SessionCursor.position ≤ visit.walk.stand SessionCursor.position ∧
      (next.walk = visit.walk ∨ next.walk.stand SessionCursor.position <
        visit.walk.stand SessionCursor.position) := by
  cases moves with
  | changes _ _ walk => rw [walk]; exact ⟨le_rfl, .inl rfl⟩
  | takes page further answers moved =>
      subst moved
      have lower := answers.stand_lt further page
      exact ⟨lower.le, .inr lower⟩
  | refused moved => rw [moved]; exact ⟨le_rfl, .inl rfl⟩

end Sessions

/-! ## The results -/

/-- In no endless run does the walk go on for ever. -/
def Ends {Visit Action Page Cursor : Type*} (system : TransitionSystem Visit Action)
    (walk : Visit → Walk Page Cursor) : Prop :=
  ∀ (visits : ℕ → Visit) (actions : ℕ → Action),
    (∀ time, system.step (visits time) (actions time) = some (visits (time + 1))) →
      ∃ last, ∀ time, last ≤ time → walk (visits (time + 1)) = walk (visits time)

/-- A walk that falls whenever it changes ends. -/
theorem ends_of_falls {Visit Action Page Cursor : Type*} {system : TransitionSystem Visit Action}
    {walk : Visit → Walk Page Cursor} {position : Cursor → Position}
    (falls : ∀ visit action next, system.step visit action = some next →
      (walk next).stand position ≤ (walk visit).stand position ∧
        (walk next = walk visit ∨ (walk next).stand position < (walk visit).stand position)) :
    Ends system walk := by
  intro visits actions moves
  have antitone : ∀ time,
      (walk (visits (time + 1))).stand position ≤ (walk (visits time)).stand position :=
    fun time => (falls _ _ _ (moves time)).1
  obtain ⟨last, still⟩ :=
    @eventually_still Position _ _ (fun time => (walk (visits time)).stand position) antitone
  refine ⟨last, fun time later => (falls _ _ _ (moves time)).2.resolve_right ?_⟩
  rw [still time later, still (time + 1) (Nat.le_succ_of_le later)]
  exact lt_irrefl _

/-- As long as no deletion is written to an event that is in the trash already, an event that
stays listed is on exactly one page. -/
theorem trash_once (retention : Nat) (dashboardId : Option Id) (start : Calendar) (id : Id)
    (listed : TrashVisit.Lists dashboardId ⟨start, .begin⟩ id) {visit : TrashVisit}
    (reached : (trashVisits retention dashboardId start).ReachedWithin
      (fun visit action => visit.Lists dashboardId id ∧ ¬ visit.Restamps action) visit)
    (ended : visit.walk.Ended) : visit.shown.count id = 1 := by
  obtain ⟨event, member, rfl⟩ := List.mem_map.mp listed
  have sound : visit.Sound event := by
    refine @TransitionSystem.ReachedWithin.invariant _ _ _ _ (fun visit => visit.Sound event)
      ?_ ?_ _ reached
    · rintro _ rfl
      refine ⟨?_, once_begin event⟩
      intro other present same _
      rw [List.inj_on_of_nodup_map start.distinct present (mem_trashed member).1 same]
    · intro state action next sound guarded moved
      exact TrashVisit.sound_of_moves sound guarded.1 guarded.2
        (TrashVisit.moves_of_step moved)
  have once := sound.once
  rw [Walk.stand_of_ended ended] at once
  exact count_of_bot once

/-- A session that stays listed is on exactly one page. -/
theorem sessions_once (sessionIdle : Nat) (user : Id) (start : Sessions) (id : Id)
    (listed : SessionVisit.Lists sessionIdle user ⟨start, .begin⟩ id) {visit : SessionVisit}
    (reached : (sessionVisits sessionIdle user start).ReachedWithin
      (fun visit _ => visit.Lists sessionIdle user id) visit)
    (ended : visit.walk.Ended) : visit.shown.count id = 1 := by
  obtain ⟨session, member, rfl⟩ := List.mem_map.mp listed
  have sound : visit.Sound session := by
    refine @TransitionSystem.ReachedWithin.invariant _ _ _ _ (fun visit => visit.Sound session)
      ?_ ?_ _ reached
    · rintro _ rfl
      refine ⟨?_, once_begin session⟩
      intro other present same
      rw [List.inj_on_of_nodup_map start.distinct present (List.mem_filter.mp member).1 same]
    · intro state action next sound lists moved
      exact SessionVisit.sound_of_moves sound lists (SessionVisit.moves_of_step moved)
  have once := sound.once
  rw [Walk.stand_of_ended ended] at once
  exact count_of_bot once

/-- **Paging survives changes.** Both walks end. A session that stays listed throughout is on
exactly one page, and so is a deleted event in the runs that write no deletion to an event that
is in the trash already. -/
theorem paged_once (retention sessionIdle : Nat) (dashboardId : Option Id) (user : Id)
    (calendar : Calendar) (sessions : Sessions) :
    Ends (trashVisits retention dashboardId calendar) TrashVisit.walk ∧
    (∀ id, TrashVisit.Lists dashboardId ⟨calendar, .begin⟩ id → ∀ visit,
      (trashVisits retention dashboardId calendar).ReachedWithin
        (fun visit action => visit.Lists dashboardId id ∧ ¬ visit.Restamps action) visit →
      visit.walk.Ended → visit.shown.count id = 1) ∧
    Ends (sessionVisits sessionIdle user sessions) SessionVisit.walk ∧
    (∀ id, SessionVisit.Lists sessionIdle user ⟨sessions, .begin⟩ id → ∀ visit,
      (sessionVisits sessionIdle user sessions).ReachedWithin
        (fun visit _ => visit.Lists sessionIdle user id) visit →
      visit.walk.Ended → visit.shown.count id = 1) := by
  refine ⟨?_, ?_, ?_, ?_⟩
  · exact ends_of_falls fun _ _ _ moved => TrashVisit.falls (TrashVisit.moves_of_step moved)
  · exact fun id listed visit reached ended => trash_once _ _ _ id listed reached ended
  · exact ends_of_falls fun _ _ _ moved => SessionVisit.falls (SessionVisit.moves_of_step moved)
  · exact fun id listed visit reached ended => sessions_once _ _ _ id listed reached ended

instance (dashboardId : Option Id) (visit : TrashVisit) (id : Id) :
    Decidable (visit.Lists dashboardId id) :=
  inferInstanceAs (Decidable (id ∈ _))

/-- Events that were deleted at one time, two more than a page has. -/
def tiedTrash : Calendar where
  events := (List.range 202).reverse.map fun n => ⟨n + 1, 7, "", 0, false, some 5⟩
  distinct := by
    rw [List.map_map]
    exact List.Nodup.map (fun _ _ same => Nat.succ.inj same)
      (List.nodup_reverse.mpr List.nodup_range)
  accessible := [7]
  deleting := []
  restoring := []

/-- The last of them is on the second page alone, when the one before it goes between the two. -/
theorem paged_once_of_tied : ∃ visit : TrashVisit,
    (trashVisits 0 none tiedTrash).Reachable visit ∧ visit.walk.Ended ∧
    visit.shown.count 1 = 1 := by
  have initial : (trashVisits 0 none tiedTrash).Initial ⟨tiedTrash, .begin⟩ := rfl
  obtain ⟨visit, reached, passed⟩ := TransitionSystem.exists_reachedWithin_of_run
    (fun visit action => visit.Lists none 1 ∧ ¬ visit.Restamps action) initial
    [.fetched, .changed (.purged [2]), .fetched] (fun visit => decide visit.walk.Ended)
    (by decide +kernel)
  have ended := of_decide_eq_true passed
  have once := (paged_once 0 0 none 7 tiedTrash ⟨[], List.nodup_nil, 0⟩).2.1 1 (by decide +kernel)
    visit reached ended
  exact ⟨visit, reached.reachable, ended, once⟩

/-- One event that was deleted first, with a second deletion of it still under way, and a page
full of events that were deleted after it. -/
def crowded : Calendar where
  events := (List.range 200).map (fun n => ⟨201 - n, 7, "", 0, false, some 10⟩) ++
    [⟨1, 7, "", 0, false, some 5⟩]
  distinct := by
    rw [List.map_append, List.map_map, List.nodup_append]
    refine ⟨List.Nodup.map_on ?_ List.nodup_range, List.nodup_singleton _, ?_⟩
    · intro first below second also same
      rw [List.mem_range] at below also
      change 201 - first = 201 - second at same
      omega
    · intro id later other only same
      obtain ⟨n, below, rfl⟩ := List.mem_map.mp later
      rw [List.mem_range] at below
      rw [List.mem_singleton.mp only] at same
      change 201 - n = 1 at same
      omega
  accessible := [7]
  deleting := [1]
  restoring := []

theorem not_paged_once : ∃ visit : TrashVisit,
    (trashVisits 0 none crowded).ReachedWithin (fun visit _ => visit.Lists none 1) visit ∧
      visit.Lists none 1 ∧ visit.walk.Ended ∧ visit.shown.count 1 = 0 := by
  have initial : (trashVisits 0 none crowded).Initial ⟨crowded, .begin⟩ := rfl
  obtain ⟨visit, reached, passed⟩ := TransitionSystem.exists_reachedWithin_of_run
    (fun visit _ => visit.Lists none 1) initial
    [.fetched, .changed (.deleteWritten 1 20), .fetched]
    (fun visit => decide (visit.Lists none 1 ∧ visit.walk.Ended ∧ visit.shown.count 1 = 0))
    (by decide +kernel)
  exact ⟨visit, reached, of_decide_eq_true passed⟩

end FrontDashboard.Paging
