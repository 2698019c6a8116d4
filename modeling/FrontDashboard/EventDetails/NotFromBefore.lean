import FrontDashboard.EventDetails.Cache

/-! # Nothing cached from before an invalidation -/

namespace FrontDashboard.EventDetails

variable {Details : Type} {page next : Page Details} {request : RequestId}
  {event : CalendarEvent Details}

/-- What is cached for an event, and what calls were served from the cache, was requested after
the last invalidation of its id, and no read is cached that is older than a stored update. -/
structure NotFromBefore (page : Page Details) : Prop where
  cached : ∀ eventId entry, page.calendarEventDetails.get eventId = some entry →
    page.invalidatedAt eventId ≤ entry.request
  served : ∀ serving ∈ page.served, serving.invalidatedAt ≤ serving.cached.request
  reads : ∀ eventId entry, page.calendarEventDetails.get eventId = some entry →
    entry.isRead = true → page.updatedAt eventId ≤ entry.request

/-- The id under which a response is cached. -/
def Request.target (event : CalendarEvent Details) : Request → Option String
  | .read eventId => some eventId
  | .mutate .create => some event.id
  | .mutate (.update eventId) => some eventId
  | .mutate (.restore eventId) => some eventId
  | .mutate (.delete _) => none
  | .mutate (.purge _) => none

def Request.isRead : Request → Bool
  | .read _ => true
  | .mutate _ => false

/-- A response that is cached answers a request issued after the last invalidation of its id
and, if it is of a read, after the updates answered so far. -/
def Timely (page : Page Details) (request : RequestId) (event : CalendarEvent Details)
    (asked : Request) : Prop :=
  ∀ eventId ∈ asked.target event, page.invalidatedAt eventId ≤ request ∧
    (asked.isRead = true → page.updatedAt eventId ≤ request)

instance (page : Page Details) (event : CalendarEvent Details) (asked : Request) :
    Decidable (Timely page request event asked) := by
  unfold Timely
  infer_instance

def Admits (page : Page Details) : Action Details → Prop
  | .answer request event => ∀ asked ∈ page.inFlight.get request, Timely page request event asked
  | _ => True

instance (page : Page Details) (action : Action Details) : Decidable (Admits page action) := by
  unfold Admits
  split <;> infer_instance

/-! ## What steps do to the cache -/

namespace NotFromBefore

/-- A page with no more in its cache and no later marks. -/
theorem of_shrink (kept : NotFromBefore page)
    (details : ∀ eventId entry, next.calendarEventDetails.get eventId = some entry →
      page.calendarEventDetails.get eventId = some entry ∧
        next.invalidatedAt eventId = page.invalidatedAt eventId ∧
        next.updatedAt eventId = page.updatedAt eventId)
    (served : next.served = page.served) : NotFromBefore next where
  cached := by
    intro eventId entry present
    obtain ⟨before, same, -⟩ := details eventId entry present
    rw [same]
    exact kept.cached eventId entry before
  served := by
    rw [served]
    exact kept.served
  reads := by
    intro eventId entry present isRead
    obtain ⟨before, -, same⟩ := details eventId entry present
    rw [same]
    exact kept.reads eventId entry before isRead

theorem invalidateCalendarEvent (kept : NotFromBefore page) (eventId : Option String) :
    NotFromBefore (page.invalidateCalendarEvent eventId) := by
  unfold Page.invalidateCalendarEvent
  split
  next => exact kept
  next eventId =>
    split_ifs
    · exact kept
    · refine kept.of_shrink (fun other entry present => ?_) rfl
      have different := InsertionMap.ne_of_delete_get present
      exact ⟨InsertionMap.get_of_delete present, Function.update_of_ne different _ _, rfl⟩

/-- A timely response is cached. -/
theorem store (kept : NotFromBefore page) {eventId : String} {entry : Cached Details}
    (fresh : page.invalidatedAt eventId ≤ entry.request)
    (latest : entry.isRead = true → page.updatedAt eventId ≤ entry.request) :
    NotFromBefore (page.store eventId entry) where
  cached := by
    intro other found present
    rcases InsertionMap.get_of_insert present with ⟨rfl, rfl⟩ | ⟨-, before⟩
    · exact fresh
    · exact kept.cached other found before
  served := kept.served
  reads := by
    intro other found present isRead
    rcases InsertionMap.get_of_insert present with ⟨rfl, rfl⟩ | ⟨-, before⟩
    · exact latest isRead
    · exact kept.reads other found before isRead

/-- The result of an update takes the place of what was read. -/
theorem update (kept : NotFromBefore page) {eventId : String} {entry : Cached Details}
    (fresh : page.invalidatedAt eventId ≤ entry.request) (written : entry.isRead = false)
    (mark : RequestId) :
    NotFromBefore { page.store eventId entry with
      updatedAt := Function.update page.updatedAt eventId mark } where
  cached := (kept.store fresh fun isRead => absurd (written.symm.trans isRead) (by simp)).cached
  served := kept.served
  reads := by
    intro other found present isRead
    rcases InsertionMap.get_of_insert present with ⟨rfl, rfl⟩ | ⟨different, before⟩
    · rw [written] at isRead
      cases isRead
    · change Function.update page.updatedAt eventId mark other ≤ found.request
      rw [Function.update_of_ne different]
      exact kept.reads other found before isRead

theorem getCalendarEvent (kept : NotFromBefore page) (eventId : String) :
    NotFromBefore (page.getCalendarEvent eventId) := by
  unfold Page.getCalendarEvent
  split
  next entry found =>
    refine { kept with served := fun serving member => ?_ }
    rcases List.mem_append.mp member with before | last
    · exact kept.served serving before
    · rw [List.mem_singleton.mp last]
      exact kept.cached eventId entry found
  next =>
    split
    next => exact kept
    next => exact { kept with }

theorem frame (kept : NotFromBefore page) (eventType : String) (entityId : Option String)
    (isOwnEcho : Bool) :
    NotFromBefore (page.handleCalendarResourceEvent eventType entityId isOwnEcho) := by
  unfold Page.handleCalendarResourceEvent
  split_ifs
  · exact kept.of_shrink (fun _ _ present => nomatch present) rfl
  · exact kept
  · exact kept
  · exact kept.invalidateCalendarEvent entityId

theorem answered (kept : NotFromBefore page) {asked : Request}
    (timely : Timely page request event asked) :
    NotFromBefore (page.answered request event asked) := by
  cases asked with
  | read eventId =>
      obtain ⟨fresh, latest⟩ := timely eventId rfl
      have stored := @store _ _ kept eventId ⟨event, request, true⟩ fresh latest
      exact { stored with }
  | mutate mutation =>
      cases mutation with
      | create => exact kept.store (timely event.id rfl).1 fun isRead => nomatch isRead
      | update eventId => exact kept.update (timely eventId rfl).1 rfl _
      | restore eventId => exact kept.store (timely eventId rfl).1 fun isRead => nomatch isRead
      | delete eventId => exact kept.invalidateCalendarEvent (some eventId)
      | purge eventId =>
          refine kept.of_shrink (fun other entry present => ?_) rfl
          have different := InsertionMap.ne_of_delete_get present
          exact ⟨InsertionMap.get_of_delete present, rfl, Function.update_of_ne different _ _⟩

/-- A response that is not timely is cached all the same. -/
theorem timely_of_answered {asked : Request}
    (kept : NotFromBefore (page.answered request event asked)) :
    Timely page request event asked := by
  intro eventId target
  cases asked with
  | read asked =>
      cases target
      have stored := InsertionMap.insert_get_self page.calendarEventDetails eventId
        (⟨event, request, true⟩ : Cached Details)
      exact ⟨kept.cached eventId _ stored, fun _ => kept.reads eventId _ stored rfl⟩
  | mutate mutation =>
      refine ⟨?_, fun isRead => nomatch isRead⟩
      have stored := InsertionMap.insert_get_self page.calendarEventDetails eventId
        (⟨event, request, false⟩ : Cached Details)
      cases mutation with
      | create =>
          cases target
          exact kept.cached event.id _ stored
      | update _ | restore _ =>
          cases target
          exact kept.cached eventId _ stored
      | delete deleted => cases target
      | purge purged => cases target

theorem failed (kept : NotFromBefore page) (asked : Request) :
    NotFromBefore (page.failed asked) := by
  cases asked with
  | read eventId => exact { kept with }
  | mutate mutation => exact kept

end NotFromBefore

/-! ## Runs -/

theorem notFromBefore_of_step {action : Action Details} (kept : NotFromBefore page)
    (admitted : Admits page action) (moved : step page action = some next) :
    NotFromBefore next := by
  cases action with
  | getCalendarEvent eventId =>
      cases moved
      exact kept.getCalendarEvent eventId
  | mutate mutation =>
      cases moved
      exact { kept with }
  | answer request event =>
      rw [step] at moved
      split at moved
      next => cases moved
      next asked found =>
        cases moved
        have taken : NotFromBefore { page with inFlight := page.inFlight.delete request } :=
          { kept with }
        exact taken.answered (admitted asked found)
  | fail request =>
      rw [step] at moved
      split at moved
      next => cases moved
      next asked found =>
        cases moved
        have taken : NotFromBefore { page with inFlight := page.inFlight.delete request } :=
          { kept with }
        exact taken.failed asked
  | settle eventId =>
      rw [step] at moved
      split_ifs at moved
      cases moved
      exact { kept with }
  | frame eventType entityId isOwnEcho =>
      cases moved
      exact kept.frame eventType entityId isOwnEcho

theorem notFromBefore_of_reached (reached : (system Details).ReachedWithin Admits page) :
    NotFromBefore page := by
  refine reached.invariant ?_ ?_
  · rintro page rfl
    refine ⟨fun _ _ present => ?_, List.forall_mem_nil _, fun _ _ present => ?_⟩
    · cases present
    · cases present
  · exact fun page action next kept admitted moved => notFromBefore_of_step kept admitted moved

/-- **Nothing is cached from before an invalidation**, nor a read over a later update, in a run
in which every response is timely, and the first that is not is cached. -/
theorem not_from_before (reached : (system Details).ReachedWithin Admits page) :
    NotFromBefore page ∧ ∀ action next, step page action = some next →
      (NotFromBefore next ↔ Admits page action) := by
  have kept := notFromBefore_of_reached reached
  refine ⟨kept, fun action next moved => ⟨fun after => ?_, fun admitted =>
    notFromBefore_of_step kept admitted moved⟩⟩
  cases action with
  | answer request event =>
      intro asked found
      rw [step] at moved
      split at moved
      next absent =>
        rw [absent] at found
        cases found
      next other present =>
        cases moved
        cases Option.some.inj (present.symm.trans found)
        exact after.timely_of_answered
  | _ => trivial

/-- A meeting as it was and as it has become. -/
def oldMeeting : CalendarEvent String := ⟨"meeting", "at nine"⟩

def newMeeting : CalendarEvent String := ⟨"meeting", "at ten"⟩

/-- A read that is in flight when its event is invalidated is cached. -/
theorem cached_from_before :
    ¬ ∀ page : Page String, (system String).Reachable page → NotFromBefore page := by
  intro all
  have begins : (system String).Initial .empty := rfl
  obtain ⟨page, reached, shape⟩ := TransitionSystem.exists_reachable_of_run begins
    [.getCalendarEvent "meeting", .frame "calendar.event.updated" (some "meeting") false,
      .answer 0 oldMeeting]
    (fun page => page.invalidatedAt "meeting" == 1 &&
      (page.calendarEventDetails.get "meeting").any fun entry => entry.request == 0)
    (by decide +kernel)
  rw [Bool.and_eq_true, beq_iff_eq, Option.any_eq_true] at shape
  obtain ⟨invalidated, entry, present, request⟩ := shape
  have fresh := (all page reached).cached "meeting" entry present
  rw [invalidated, beq_iff_eq.mp request] at fresh
  cases fresh

/-- One that is issued after the invalidation is cached, and its event updated. -/
theorem not_from_before_reread :
    ∃ page : Page String,
      ((page.calendarEventDetails.get "meeting").map (·.event.details) = some "at ten" ∧
        page.invalidatedAt "meeting" = 1) ∧ NotFromBefore page := by
  have begins : (system String).Initial .empty := rfl
  obtain ⟨page, reached, shape⟩ := TransitionSystem.exists_reachedWithin_of_run Admits begins
    [.getCalendarEvent "meeting", .frame "calendar.event.updated" (some "meeting") false,
      .fail 0, .settle "meeting", .getCalendarEvent "meeting", .answer 1 oldMeeting,
      .mutate (.update "meeting"), .answer 2 newMeeting, .getCalendarEvent "meeting"]
    (fun page => decide
      ((page.calendarEventDetails.get "meeting").map (·.event.details) = some "at ten" ∧
        page.invalidatedAt "meeting" = 1)) (by decide +kernel)
  exact ⟨page, of_decide_eq_true shape, (not_from_before reached).1⟩

end FrontDashboard.EventDetails
