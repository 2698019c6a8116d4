import FrontDashboard.Activity.Feed
import FrontDashboard.Library.Places

/-! # The feed has no gaps and no duplicates

The feed shown is at every moment in descending order, and once nothing is in flight
it is a prefix of the user's log under the current filter and has every row whose frame
was processed while the feed was loaded. This holds in every run in which

* a frame that arrives at a loaded feed is in it or is newer than all of it;
* a reload lands when every row committed since its page was computed is announced by a
  frame still in flight or is older than the page, and the page has every row whose
  frame was processed before;
* an older page lands when the feed still ends where the page was requested, or below;
* the first load under a filter fails only when no row of it was shown before.
-/

namespace FrontDashboard.Activity

open NewestFirst Places

/-- A row older than every row of a list that is not empty. -/
def OlderThan (event : ActivityEvent) (rows : List ActivityEvent) : Prop :=
  rows ≠ [] ∧ ∀ row ∈ rows, event.eventId < row.eventId

instance (event : ActivityEvent) (rows : List ActivityEvent) : Decidable (OlderThan event rows) :=
  inferInstanceAs (Decidable (_ ∧ _))

variable (viewer : UserId)

namespace State

/-- A row of the user's log under the current filter. -/
def Matches (state : State) (event : ActivityEvent) : Prop :=
  isOwnFeedActivity event (some viewer) state.store.activityFilter = true

instance (state : State) (event : ActivityEvent) : Decidable (state.Matches viewer event) :=
  inferInstanceAs (Decidable (_ = true))

/-- The user's log under the current filter, newest first. -/
def ownLog (state : State) : List ActivityEvent :=
  sort ActivityEvent.eventId (state.log.filter fun event => decide (state.Matches viewer event))

/-- Nothing is in flight. -/
def Quiet (state : State) : Prop := state.frames = [] ∧ state.calls = []

instance (state : State) : Decidable state.Quiet := inferInstanceAs (Decidable (_ ∧ _))

end State

/-- **The property.** -/
structure NoGaps (state : State) : Prop where
  ordered : Descending ActivityEvent.eventId state.store.activity
  isPrefix : state.Quiet → state.store.activity <+: state.ownLog viewer
  arrived : state.Quiet → ∀ event ∈ state.arrived, state.Matches viewer event →
    event ∈ state.store.activity

instance (state : State) : Decidable (NoGaps viewer state) :=
  decidable_of_iff
    (Descending ActivityEvent.eventId state.store.activity ∧
      (state.Quiet → state.store.activity <+: state.ownLog viewer) ∧
      (state.Quiet → ∀ event ∈ state.arrived, state.Matches viewer event →
        event ∈ state.store.activity))
    ⟨fun all => ⟨all.1, all.2.1, all.2.2⟩, fun holds => ⟨holds.1, holds.2, holds.3⟩⟩

/-! ## The steps admitted -/

namespace State

/-- A frame that belongs at the head of the feed, or is there already. -/
def MayArrive (state : State) (event : ActivityEvent) : Prop :=
  state.store.activityLoaded = true → state.Matches viewer event →
    event ∈ state.store.activity ∨
      ∀ row ∈ state.store.activity, row.eventId < event.eventId

/-- A page that may take the place of the feed: the rows it lacks are announced still, or
lie below it. -/
def MayReplace (state : State) (answer : Answer) : Prop :=
  (∀ event ∈ state.log.drop answer.served, state.Matches viewer event →
    event ∈ state.frames ∨ OlderThan event answer.page) ∧
  ∀ event ∈ state.arrived, state.Matches viewer event → event ∈ answer.page

/-- A page that may be added below the feed, or adds nothing. -/
def MayExtend (state : State) (oldest : Nat) (answer : Answer) : Prop :=
  (∀ row ∈ answer.page, row ∈ state.store.activity) ∨
  ∃ last ∈ state.store.activity.getLast?, last.eventId ≤ oldest ∧
    (∀ row ∈ answer.page, row ∈ state.store.activity ∨ row.eventId < last.eventId) ∧
    ∀ event ∈ state.log.drop answer.served, state.Matches viewer event →
      event.eventId < last.eventId →
        event ∈ state.frames ∨ ∀ row ∈ answer.page, event.eventId < row.eventId

def MayLand (state : State) (call : Call) (answer : Answer) : Prop :=
  match call.request with
  | .loadActivity token =>
      token = state.store.activityRequestToken → state.MayReplace viewer answer
  | .loadMoreActivity oldest =>
      state.store.activityFilter = call.filterId → state.MayExtend viewer oldest answer

/-- A failure that hides no row shown before. -/
def MayFail (state : State) (call : Call) : Prop :=
  call.request = .loadActivity state.store.activityRequestToken →
    state.store.activityLoaded = false → ∀ event ∈ state.arrived, ¬ state.Matches viewer event

instance (state : State) (event : ActivityEvent) : Decidable (state.MayArrive viewer event) :=
  inferInstanceAs (Decidable (_ → _ → _))

instance (state : State) (answer : Answer) : Decidable (state.MayReplace viewer answer) :=
  inferInstanceAs (Decidable (_ ∧ _))

instance (state : State) (oldest : Nat) (answer : Answer) :
    Decidable (state.MayExtend viewer oldest answer) :=
  inferInstanceAs (Decidable (_ ∨ _))

instance (state : State) (call : Call) (answer : Answer) :
    Decidable (state.MayLand viewer call answer) := by
  unfold MayLand
  split <;> infer_instance

instance (state : State) (call : Call) : Decidable (state.MayFail viewer call) :=
  inferInstanceAs (Decidable (_ → _ → _))

def Admits (state : State) : Action → Prop
  | .arrive place => ∀ event ∈ state.frames[place]?, state.MayArrive viewer event
  | .land index => ∀ call ∈ state.calls[index]?, ∀ answer ∈ call.answer,
      state.MayLand viewer call answer
  | .fail index => ∀ call ∈ state.calls[index]?, state.MayFail viewer call
  | _ => True

instance (state : State) (action : Action) : Decidable (state.Admits viewer action) := by
  unfold Admits
  split <;> infer_instance

end State

/-! ## Pages -/

/-- The store and the endpoint select the same rows. -/
theorem isOwnFeedActivity_iff {event : ActivityEvent} {filterId : FilterId} :
    isOwnFeedActivity event (some viewer) filterId = true ↔
      event.actorId = viewer ∧ (eventTypesForActivityFilter filterId = [] ∨
        event.eventType ∈ eventTypesForActivityFilter filterId) := by
  unfold isOwnFeedActivity
  by_cases own : event.actorId = viewer
  · cases eventTypesForActivityFilter filterId <;> simp [own]
  · simp [own]

/-- Where a request's page begins. -/
def Request.before : Request → Option Nat
  | .loadActivity _ => none
  | .loadMoreActivity oldest => some oldest

/-- A page of a log: its newest rows under a filter and below a bound. -/
structure PageOf (filterId : FilterId) (before : Option Nat) (log page : List ActivityEvent) :
    Prop where
  ordered : Descending ActivityEvent.eventId page
  own : ∀ row ∈ page, row ∈ log ∧ isOwnFeedActivity row (some viewer) filterId = true
  closed : ∀ event ∈ log, isOwnFeedActivity event (some viewer) filterId = true →
    (∀ bound ∈ before, event.eventId < bound) → event ∈ page ∨ OlderThan event page

/-- The answer is a prefix of the sorted log, cut down to the filter and to the rows below the
cursor. -/
theorem listActivity_eq (filterId : FilterId) (before : Option Nat) (log : List ActivityEvent) :
    listActivity viewer (eventTypesForActivityFilter filterId) before log =
      (sort ActivityEvent.eventId (log.filter fun event =>
        isOwnFeedActivity event (some viewer) filterId &&
          decide (∀ bound ∈ before, event.eventId < bound))).take activityPageSize := by
  have typed : (if (eventTypesForActivityFilter filterId).isEmpty = true then
        log.filter fun event => event.actorId == viewer
      else (log.filter fun event => event.actorId == viewer).filter fun event =>
        (eventTypesForActivityFilter filterId).contains event.eventType) =
      log.filter fun event => isOwnFeedActivity event (some viewer) filterId := by
    split
    next empty =>
      apply List.filter_congr
      intro event _
      rw [Bool.eq_iff_iff, isOwnFeedActivity_iff]
      simp [List.isEmpty_iff.mp empty]
    next some =>
      rw [List.filter_filter]
      apply List.filter_congr
      intro event _
      rw [Bool.eq_iff_iff, isOwnFeedActivity_iff]
      simp [List.isEmpty_iff.not.mp some, and_comm]
  simp only [listActivity, typed]
  cases before with
  | none => simp
  | some bound => simp [List.filter_filter, Bool.and_comm]

/-- What the server answers a request is the page of the whole log it asked for. -/
theorem pageOf_serve (call : Call) {log : List ActivityEvent}
    (distinct : (log.map ActivityEvent.eventId).Nodup) :
    PageOf viewer call.filterId call.request.before log (call.serve viewer log).page := by
  have served : (call.serve viewer log).page =
      listActivity viewer (eventTypesForActivityFilter call.filterId) call.request.before log := by
    cases request : call.request <;> simp [Call.serve, Request.before, request]
  rw [served, listActivity_eq]
  have sorted : Descending ActivityEvent.eventId (sort ActivityEvent.eventId
    (log.filter fun event =>
      isOwnFeedActivity event (some viewer) call.filterId &&
        decide (∀ bound ∈ call.request.before, event.eventId < bound))) :=
    descending_sort (distinct.sublist (List.filter_sublist.map _))
  constructor
  · exact sorted.sublist (List.take_sublist _ _)
  · intro row member
    have inside := List.mem_filter.mp (mem_sort.mp (List.mem_of_mem_take member))
    exact ⟨inside.1, (Bool.and_eq_true_iff.mp inside.2).1⟩
  · intro event logged matching below
    apply mem_take_or_older sorted (Nat.zero_lt_succ 49)
    apply mem_sort.mpr
    apply List.mem_filter.mpr
    exact ⟨logged, Bool.and_eq_true_iff.mpr ⟨matching, decide_eq_true below⟩⟩

/-- A page of the log as it was is a page of a longer one. -/
theorem PageOf.mono {viewer : UserId} {filterId : FilterId} {before : Option Nat} {served : Nat}
    {log page : List ActivityEvent} (pageOf : PageOf viewer filterId before (log.take served) page)
    (within : served ≤ log.length) (more : List ActivityEvent) :
    PageOf viewer filterId before ((log ++ more).take served) page := by
  rw [List.take_append_of_le_length within]
  exact pageOf

/-! ## The invariant -/

/-- What the feed shows, against the log. -/
structure Shown (log frames : List ActivityEvent) (store : Store) : Prop where
  ordered : Descending ActivityEvent.eventId store.activity
  own : ∀ row ∈ store.activity,
    row ∈ log ∧ isOwnFeedActivity row (some viewer) store.activityFilter = true
  unloaded : store.activityLoaded = false → store.activity = []
  closed : store.activityLoaded = true → ∀ event ∈ log,
    isOwnFeedActivity event (some viewer) store.activityFilter = true →
      event ∈ frames ∨ event ∈ store.activity ∨ OlderThan event store.activity

/-- The requests in flight, against the store's bookkeeping. -/
structure Calling (log : List ActivityEvent) (store : Store) (calls : List Call) : Prop where
  promise : ∀ token ∈ store.activityPromise, token = store.activityRequestToken ∧
    ∃ call ∈ calls, call.request = .loadActivity token
  live : ∀ call ∈ calls, ∀ token, call.request = .loadActivity token →
    token ≤ store.activityRequestToken ∧
      (token = store.activityRequestToken → call.filterId = store.activityFilter)
  answered : ∀ call ∈ calls, ∀ answer ∈ call.answer, answer.served ≤ log.length ∧
    PageOf viewer call.filterId call.request.before (log.take answer.served) answer.page

/-- Of the rows processed, those under the current filter are shown, or a load is under way. -/
def Kept (arrived : List ActivityEvent) (store : Store) : Prop :=
  ∀ event ∈ arrived, isOwnFeedActivity event (some viewer) store.activityFilter = true →
    event ∈ store.activity ∨ store.activityLoaded = false ∧ store.activityPromise.isSome = true

structure Good (state : State) : Prop where
  distinct : (state.log.map ActivityEvent.eventId).Nodup
  frames : ∀ event ∈ state.frames, event ∈ state.log
  shown : Shown viewer state.log state.frames state.store
  calling : Calling viewer state.log state.store state.calls
  arrived : Kept viewer state.arrived state.store

variable {viewer} {log frames : List ActivityEvent} {store : Store} {calls : List Call}

/-- Two logged events with one id are one event. -/
theorem eq_of_eventId_eq {first second : ActivityEvent}
    (distinct : (log.map ActivityEvent.eventId).Nodup) (firstLogged : first ∈ log)
    (secondLogged : second ∈ log) (same : first.eventId = second.eventId) : first = second :=
  List.inj_on_of_nodup_map distinct firstLogged secondLogged same

/-- The parts of the store that `Shown` reads. -/
theorem Shown.congr {other : Store} (shown : Shown viewer log frames store)
    (activity : other.activity = store.activity)
    (loaded : other.activityLoaded = store.activityLoaded)
    (filterId : other.activityFilter = store.activityFilter) :
    Shown viewer log frames other := by
  obtain ⟨ordered, own, unloaded, closed⟩ := shown
  constructor
  · rw [activity]
    exact ordered
  · rw [activity, filterId]
    exact own
  · rw [activity, loaded]
    exact unloaded
  · rw [activity, loaded, filterId]
    exact closed

/-- A new event leaves the rows shown without a gap: its frame is still on its way. -/
theorem Shown.commit (shown : Shown viewer log frames store) (event : ActivityEvent) :
    Shown viewer (log ++ [event]) (frames ++ [event]) store := by
  refine ⟨shown.ordered, ?_, shown.unloaded, ?_⟩
  · intro row member
    exact ⟨List.mem_append_left _ (shown.own row member).1, (shown.own row member).2⟩
  · intro loaded other member matching
    rcases List.mem_append.mp member with logged | fresh
    · exact (shown.closed loaded other logged matching).imp_left (List.mem_append_left _)
    · exact .inl (List.mem_append_right _ fresh)

/-- A store without rows shows nothing wrong. -/
theorem Shown.of_unloaded (empty : store.activity = [])
    (unloaded : store.activityLoaded = false) : Shown viewer log frames store := by
  constructor
  · rw [empty]
    exact List.Pairwise.nil
  · intro row member
    rw [empty] at member
    cases member
  · exact fun _ => empty
  · intro loaded
    rw [unloaded] at loaded
    cases loaded

/-! ### Frames -/

/-- A frame is processed without changing the feed. -/
theorem Shown.pass {place : Nat} {event : ActivityEvent} (shown : Shown viewer log frames store)
    (found : frames[place]? = some event)
    (known : store.activityLoaded = true →
      isOwnFeedActivity event (some viewer) store.activityFilter = true →
        event ∈ store.activity) :
    Shown viewer log (frames.eraseIdx place) store := by
  refine ⟨shown.ordered, shown.own, shown.unloaded, ?_⟩
  intro loaded other logged matching
  rcases shown.closed loaded other logged matching with announced | elsewhere
  · rcases eq_or_mem_eraseIdx found announced with same | remaining
    · rw [same] at matching ⊢
      exact .inr (.inl (known loaded matching))
    · exact .inl remaining
  · exact .inr elsewhere

/-- A frame newer than the whole feed becomes its first row. -/
theorem Shown.prepend {place : Nat} {event : ActivityEvent}
    (shown : Shown viewer log frames store) (found : frames[place]? = some event)
    (logged : event ∈ log) (loaded : store.activityLoaded = true)
    (matching : isOwnFeedActivity event (some viewer) store.activityFilter = true)
    (newer : ∀ row ∈ store.activity, row.eventId < event.eventId) :
    Shown viewer log (frames.eraseIdx place)
      { store with activity := event :: store.activity } := by
  constructor
  · exact List.Pairwise.cons newer shown.ordered
  · intro row member
    rcases List.mem_cons.mp member with same | older
    · rw [same]
      exact ⟨logged, matching⟩
    · exact shown.own row older
  · intro unloaded
    rw [loaded] at unloaded
    cases unloaded
  · intro _ other otherLogged otherMatching
    rcases shown.closed loaded other otherLogged otherMatching with announced | inside | below
    · rcases eq_or_mem_eraseIdx found announced with same | remaining
      · rw [same]
        exact .inr (.inl List.mem_cons_self)
      · exact .inl remaining
    · exact .inr (.inl (List.mem_cons_of_mem _ inside))
    · refine .inr (.inr ⟨List.cons_ne_nil _ _, ?_⟩)
      obtain ⟨first, present⟩ := List.exists_mem_of_ne_nil _ below.1
      intro row member
      rcases List.mem_cons.mp member with same | older
      · rw [same]
        exact Nat.lt_trans (below.2 first present) (newer first present)
      · exact below.2 row older

/-- What the store makes of a frame. -/
theorem addActivityFromSse_cases (event : ActivityEvent) (viewer : UserId) (store : Store) :
    (store.addActivityFromSse event (some viewer) = store ∧
        (store.activityLoaded = true →
          isOwnFeedActivity event (some viewer) store.activityFilter = true →
            ∃ existing ∈ store.activity, existing.eventId = event.eventId)) ∨
      (store.addActivityFromSse event (some viewer) =
          { store with activity := event :: store.activity } ∧
        store.activityLoaded = true ∧
        isOwnFeedActivity event (some viewer) store.activityFilter = true ∧
        ∀ existing ∈ store.activity, existing.eventId ≠ event.eventId) := by
  unfold Store.addActivityFromSse
  cases loaded : store.activityLoaded with
  | false => exact .inl ⟨by simp, by simp⟩
  | true =>
      cases matching : isOwnFeedActivity event (some viewer) store.activityFilter with
      | false => exact .inl ⟨by simp, by simp⟩
      | true =>
          by_cases present : (store.activity.any fun existing =>
              existing.eventId == event.eventId) = true
          · obtain ⟨existing, member, same⟩ := List.any_eq_true.mp present
            exact .inl ⟨by simp [present], fun _ _ => ⟨existing, member, eq_of_beq same⟩⟩
          · refine .inr ⟨by simp [present], rfl, rfl, ?_⟩
            intro existing member same
            exact present (List.any_eq_true.mpr ⟨existing, member, beq_iff_eq.mpr same⟩)

/-- Only an arrival at a loaded feed is noted. -/
theorem mem_arrived {state : State} {event other : ActivityEvent} {place : Nat}
    (member : other ∈ (state.arrive viewer event place).arrived) :
    state.store.activityLoaded = true ∧ other = event ∨ other ∈ state.arrived := by
  unfold State.arrive at member
  by_cases loaded : state.store.activityLoaded = true
  · simp only [loaded, if_true] at member
    exact (List.mem_cons.mp member).imp_left fun same => ⟨loaded, same⟩
  · simp only [loaded, Bool.false_eq_true, if_false] at member
    exact .inr member

/-- An arriving frame keeps the invariant. -/
theorem Good.arrive {state : State} {place : Nat} {event : ActivityEvent}
    (good : Good viewer state) (found : state.frames[place]? = some event)
    (may : state.MayArrive viewer event) : Good viewer (state.arrive viewer event place) := by
  have logged := good.frames event (List.mem_of_getElem? found)
  have remaining : ∀ other ∈ state.frames.eraseIdx place, other ∈ state.log :=
    fun other member => good.frames other (List.mem_of_mem_eraseIdx member)
  rcases addActivityFromSse_cases event viewer state.store with
    ⟨unchanged, known⟩ | ⟨prepended, loaded, matching, fresh⟩
  · have present : state.store.activityLoaded = true → state.Matches viewer event →
        event ∈ state.store.activity := by
      intro loaded matching
      obtain ⟨existing, member, same⟩ := known loaded matching
      have equal := eq_of_eventId_eq good.distinct (good.shown.own existing member).1 logged same
      rw [← equal]
      exact member
    constructor
    · exact good.distinct
    · exact remaining
    · change Shown viewer state.log (state.frames.eraseIdx place)
        (state.store.addActivityFromSse event (some viewer))
      rw [unchanged]
      exact good.shown.pass found present
    · change Calling viewer state.log (state.store.addActivityFromSse event (some viewer)) _
      rw [unchanged]
      exact good.calling
    · change Kept viewer _ (state.store.addActivityFromSse event (some viewer))
      rw [unchanged]
      intro other member matching
      rcases mem_arrived member with ⟨loaded, same⟩ | before
      · rw [same] at matching ⊢
        exact .inl (present loaded matching)
      · exact good.arrived other before matching
  · have newer : ∀ row ∈ state.store.activity, row.eventId < event.eventId := by
      rcases may loaded matching with inside | newer
      · exact absurd rfl (fresh event inside)
      · exact newer
    constructor
    · exact good.distinct
    · exact remaining
    · change Shown viewer state.log (state.frames.eraseIdx place)
        (state.store.addActivityFromSse event (some viewer))
      rw [prepended]
      exact good.shown.prepend found logged loaded matching newer
    · change Calling viewer state.log (state.store.addActivityFromSse event (some viewer)) _
      rw [prepended]
      exact ⟨good.calling.promise, good.calling.live, good.calling.answered⟩
    · change Kept viewer _ (state.store.addActivityFromSse event (some viewer))
      rw [prepended]
      intro other member otherMatching
      rcases mem_arrived member with ⟨_, same⟩ | before
      · rw [same]
        exact .inl List.mem_cons_self
      · exact (good.arrived other before otherMatching).imp_left (List.mem_cons_of_mem _)

/-! ### Pages that land -/

/-- A fresh page takes the place of the feed. -/
theorem Shown.replace {state : State} {answer : Answer} {loaded : Store}
    (page : PageOf viewer state.store.activityFilter none (state.log.take answer.served)
      answer.page)
    (may : state.MayReplace viewer answer) (activity : loaded.activity = answer.page)
    (isLoaded : loaded.activityLoaded = true)
    (filterId : loaded.activityFilter = state.store.activityFilter) :
    Shown viewer state.log state.frames loaded := by
  constructor
  · rw [activity]
    exact page.ordered
  · rw [activity, filterId]
    intro row member
    exact ⟨List.mem_of_mem_take (page.own row member).1, (page.own row member).2⟩
  · intro unloaded
    rw [isLoaded] at unloaded
    cases unloaded
  · rw [activity, filterId]
    intro _ event logged matching
    rw [← List.take_append_drop answer.served state.log] at logged
    rcases List.mem_append.mp logged with before | since
    · exact .inr (page.closed event before matching (by simp))
    · exact (may.1 event since matching).imp_right .inr

/-- The rows of a page that the store does not show yet. -/
theorem mem_unknown {page : List ActivityEvent} {row : ActivityEvent} :
    row ∈ store.unknown page ↔
      row ∈ page ∧ ∀ shown ∈ store.activity, shown.eventId ≠ row.eventId := by
  simp [Store.unknown]

/-- The feed continued by what an older page adds. -/
theorem Shown.extend {state : State} {oldest : Nat} {answer : Answer}
    (shown : Shown viewer state.log state.frames state.store)
    (page : PageOf viewer state.store.activityFilter (some oldest)
      (state.log.take answer.served) answer.page)
    (may : state.MayExtend viewer oldest answer) {more : Store}
    (activity : more.activity = state.store.activity ++ state.store.unknown answer.page)
    (loaded : more.activityLoaded = state.store.activityLoaded)
    (filterId : more.activityFilter = state.store.activityFilter) :
    Shown viewer state.log state.frames more := by
  rcases may with nothingNew | ⟨last, ends, reaches, below, late⟩
  · have nothing : state.store.unknown answer.page = [] := by
      apply List.eq_nil_iff_forall_not_mem.mpr
      intro row member
      obtain ⟨inPage, fresh⟩ := mem_unknown.mp member
      exact fresh row (nothingNew row inPage) rfl
    rw [nothing, List.append_nil] at activity
    exact shown.congr activity loaded filterId
  · have ending : last ∈ state.store.activity := List.mem_of_getLast? ends
    have added : ∀ row ∈ state.store.unknown answer.page, row.eventId < last.eventId := by
      intro row member
      obtain ⟨inPage, fresh⟩ := mem_unknown.mp member
      rcases below row inPage with inside | lower
      · exact absurd rfl (fresh row inside)
      · exact lower
    constructor
    · rw [activity]
      apply List.pairwise_append.mpr
      refine ⟨shown.ordered, page.ordered.sublist List.filter_sublist, ?_⟩
      intro row member older inUnknown
      have lower := added older inUnknown
      have least := shown.ordered.last_le ends member
      omega
    · rw [activity, filterId]
      intro row member
      rcases List.mem_append.mp member with inside | fromPage
      · exact shown.own row inside
      · have own := page.own row (mem_unknown.mp fromPage).1
        exact ⟨List.mem_of_mem_take own.1, own.2⟩
    · rw [loaded]
      intro unloaded
      rw [shown.unloaded unloaded] at ending
      cases ending
    · rw [activity, loaded, filterId]
      intro isLoaded event logged matching
      rcases shown.closed isLoaded event logged matching with announced | inside | lower
      · exact .inl announced
      · exact .inr (.inl (List.mem_append_left _ inside))
      · have underLast := lower.2 last ending
        have older : (∀ row ∈ answer.page, event.eventId < row.eventId) →
            OlderThan event (state.store.activity ++ state.store.unknown answer.page) := by
          intro underPage
          refine ⟨List.append_ne_nil_of_left_ne_nil lower.1 _, ?_⟩
          intro row member
          rcases List.mem_append.mp member with inside | fromPage
          · exact lower.2 row inside
          · exact underPage row (mem_unknown.mp fromPage).1
        rw [← List.take_append_drop answer.served state.log] at logged
        rcases List.mem_append.mp logged with before | since
        · have underBound : ∀ bound ∈ some oldest, event.eventId < bound := by
            intro bound same
            cases same
            omega
          rcases page.closed event before matching underBound with inPage | underPage
          · refine .inr (.inl (List.mem_append_right _ (mem_unknown.mpr ⟨inPage, ?_⟩)))
            intro row inside same
            have under := lower.2 row inside
            omega
          · exact .inr (.inr (older underPage.2))
        · rcases late event since matching underLast with announced | underPage
          · exact .inl announced
          · exact .inr (.inr (older underPage))

/-! ### Requests -/

/-- A new event leaves what is known of each call. -/
theorem Calling.commit (calling : Calling viewer log store calls) (event : ActivityEvent) :
    Calling viewer (log ++ [event]) store calls := by
  refine ⟨calling.promise, calling.live, ?_⟩
  intro call member answer answered
  obtain ⟨within, page⟩ := calling.answered call member answer answered
  refine ⟨?_, page.mono within [event]⟩
  rw [List.length_append]
  exact Nat.le_add_right_of_le within

/-- A call leaves, and a request the store waits for is another one. -/
theorem Calling.remove {index : Nat} {call : Call} {other : Store}
    (calling : Calling viewer log store calls) (found : calls[index]? = some call)
    (token : other.activityRequestToken = store.activityRequestToken)
    (filterId : other.activityFilter = store.activityFilter)
    (promise : ∀ waited ∈ other.activityPromise,
      waited ∈ store.activityPromise ∧ call.request ≠ .loadActivity waited) :
    Calling viewer log other (calls.eraseIdx index) := by
  constructor
  · intro waited waiting
    obtain ⟨before, another⟩ := promise waited waiting
    obtain ⟨newest, issued, member, requested⟩ := calling.promise waited before
    refine ⟨newest.trans token.symm, issued, ?_, requested⟩
    rcases eq_or_mem_eraseIdx found member with same | remaining
    · rw [same] at requested
      exact absurd requested another
    · exact remaining
  · rw [token, filterId]
    exact fun issued member => calling.live issued (List.mem_of_mem_eraseIdx member)
  · exact fun issued member => calling.answered issued (List.mem_of_mem_eraseIdx member)

/-- A reload is issued with the next token. -/
theorem Calling.issueLoad {waiting : Store} (calling : Calling viewer log store calls)
    (token : waiting.activityRequestToken = store.activityRequestToken + 1)
    (promise : waiting.activityPromise = some (store.activityRequestToken + 1)) :
    Calling viewer log waiting
      (calls ++
        [⟨.loadActivity (store.activityRequestToken + 1), waiting.activityFilter, none⟩]) := by
  constructor
  · rw [promise, token]
    intro waited same
    cases same
    exact ⟨rfl, _, List.mem_append_right _ List.mem_cons_self, rfl⟩
  · rw [token]
    intro call member issued requested
    rcases List.mem_append.mp member with before | new
    · have older := (calling.live call before issued requested).1
      exact ⟨by omega, by omega⟩
    · rw [List.mem_singleton.mp new] at requested ⊢
      cases requested
      exact ⟨Nat.le_refl _, fun _ => rfl⟩
  · intro call member answer answered
    rcases List.mem_append.mp member with before | new
    · exact calling.answered call before answer answered
    · rw [List.mem_singleton.mp new] at answered
      cases answered

/-- An older page is requested. -/
theorem Calling.issueMore {waiting : Store} (calling : Calling viewer log store calls)
    (token : waiting.activityRequestToken = store.activityRequestToken)
    (promise : waiting.activityPromise = store.activityPromise)
    (filterId : waiting.activityFilter = store.activityFilter) (oldest : Nat) (under : FilterId) :
    Calling viewer log waiting (calls ++ [⟨.loadMoreActivity oldest, under, none⟩]) := by
  constructor
  · rw [promise, token]
    intro waited waits
    obtain ⟨newest, issued, member, requested⟩ := calling.promise waited waits
    exact ⟨newest, issued, List.mem_append_left _ member, requested⟩
  · rw [token, filterId]
    intro call member issued requested
    rcases List.mem_append.mp member with before | new
    · exact calling.live call before issued requested
    · rw [List.mem_singleton.mp new] at requested
      cases requested
  · intro call member answer answered
    rcases List.mem_append.mp member with before | new
    · exact calling.answered call before answer answered
    · rw [List.mem_singleton.mp new] at answered
      cases answered

/-! ### Steps -/

namespace Good

variable {state : State}

/-- Each step keeps the invariant. -/
theorem commit {event : ActivityEvent} (good : Good viewer state)
    (fresh : event.eventId ∉ state.log.map ActivityEvent.eventId) :
    Good viewer
      { state with log := state.log ++ [event], frames := state.frames ++ [event] } := by
  constructor
  · rw [List.map_append]
    exact List.nodup_append_comm.mp (List.nodup_cons.mpr ⟨fresh, good.distinct⟩)
  · intro other member
    rcases List.mem_append.mp member with before | new
    · exact List.mem_append_left _ (good.frames other before)
    · exact List.mem_append_right _ new
  · exact good.shown.commit event
  · exact good.calling.commit event
  · exact good.arrived

theorem loadActivity (force : Bool) (good : Good viewer state) :
    Good viewer (state.calling (Store.loadActivity force)) := by
  unfold State.calling Store.loadActivity
  by_cases current : (!force && state.store.activityLoaded) = true
  · simpa only [current, if_true, List.append_nil] using good
  · by_cases waiting : state.store.activityPromise.isSome = true
    · simpa only [current, waiting, if_true, Bool.false_eq_true, if_false, List.append_nil]
        using good
    · simp only [current, waiting, Bool.false_eq_true, if_false]
      constructor
      · exact good.distinct
      · exact good.frames
      · exact good.shown.congr rfl rfl rfl
      · exact good.calling.issueLoad rfl rfl
      · intro event member matching
        exact (good.arrived event member matching).imp_right fun both => ⟨both.1, rfl⟩

theorem loadMoreActivity (good : Good viewer state) :
    Good viewer (state.calling Store.loadMoreActivity) := by
  unfold State.calling Store.loadMoreActivity
  by_cases waiting : state.store.activityLoadMorePromise = true
  · simpa only [waiting, if_true, List.append_nil] using good
  · simp only [waiting, Bool.false_eq_true, if_false]
    cases state.store.activity.getLast? with
    | none => simpa only [List.append_nil] using good
    | some oldest =>
        by_cases loading : state.store.activityLoadingMore = true
        · simpa only [loading, if_true, List.append_nil] using good
        · simp only [loading, Bool.false_eq_true, if_false]
          constructor
          · exact good.distinct
          · exact good.frames
          · exact good.shown.congr rfl rfl rfl
          · refine Calling.issueMore good.calling ?_ ?_ ?_ _ _ <;> rfl
          · exact good.arrived

theorem setActivityFilter (filterId : FilterId) (good : Good viewer state) :
    Good viewer (state.calling (Store.setActivityFilter filterId)) := by
  unfold State.calling Store.setActivityFilter
  by_cases same : state.store.activityFilter = filterId
  · simpa only [same, if_true, List.append_nil] using good
  · simp only [same, if_false, Store.loadActivity, Bool.not_false, Bool.and_false,
      Bool.false_eq_true, Option.isSome_none]
    constructor
    · exact good.distinct
    · exact good.frames
    · exact Shown.of_unloaded rfl rfl
    · exact good.calling.issueLoad rfl rfl
    · exact fun event member matching => .inr ⟨rfl, rfl⟩

theorem serve {index : Nat} {call : Call} (good : Good viewer state)
    (found : state.calls[index]? = some call) :
    Good viewer { state with
      calls :=
        state.calls.set index { call with answer := some (call.serve viewer state.log) } } := by
  have member := List.mem_of_getElem? found
  refine ⟨good.distinct, good.frames, good.shown, ?_, good.arrived⟩
  constructor
  · intro token waiting
    obtain ⟨newest, issued, present, requested⟩ := good.calling.promise token waiting
    refine ⟨newest, ?_⟩
    rcases eq_or_mem_set { call with answer := some (call.serve viewer state.log) } found present
      with same | remains
    · rw [same] at requested
      exact ⟨_, mem_set_self found, requested⟩
    · exact ⟨issued, remains, requested⟩
  · intro issued present token requested
    rcases List.mem_or_eq_of_mem_set present with before | answered
    · exact good.calling.live issued before token requested
    · rw [answered] at requested ⊢
      exact good.calling.live call member token requested
  · intro issued present answer answered
    rcases List.mem_or_eq_of_mem_set present with before | new
    · exact good.calling.answered issued before answer answered
    · rw [new] at answered ⊢
      cases answered
      have whole : (call.serve viewer state.log).served = state.log.length := by
        cases request : call.request <;> simp [Call.serve, request]
      rw [whole, List.take_length]
      exact ⟨Nat.le_refl _, pageOf_serve viewer call good.distinct⟩

/-- A call is settled: what the store shows, and what it waits for afterwards. -/
theorem settle {index : Nat} {call : Call} {other : Store} (good : Good viewer state)
    (found : state.calls[index]? = some call)
    (shown : Shown viewer state.log state.frames other)
    (token : other.activityRequestToken = state.store.activityRequestToken)
    (filterId : other.activityFilter = state.store.activityFilter)
    (promise : ∀ waited ∈ other.activityPromise,
      waited ∈ state.store.activityPromise ∧ call.request ≠ .loadActivity waited)
    (kept : Kept viewer state.arrived other) : Good viewer (state.settle index other) :=
  ⟨good.distinct, good.frames, shown, good.calling.remove found token filterId promise, kept⟩

/-- A superseded reload is settled. -/
theorem settle_superseded {index token : Nat} {call : Call} (good : Good viewer state)
    (found : state.calls[index]? = some call) (requested : call.request = .loadActivity token)
    (superseded : token ≠ state.store.activityRequestToken) :
    Good viewer (state.settle index state.store) := by
  apply good.settle found good.shown rfl rfl _ good.arrived
  intro waited waiting
  refine ⟨waiting, fun same => superseded ?_⟩
  rw [requested] at same
  cases same
  exact (good.calling.promise token waiting).1

/-- An older page is settled without a change of the feed. -/
theorem settle_more {index oldest : Nat} {call : Call} {other : Store} (good : Good viewer state)
    (found : state.calls[index]? = some call)
    (requested : call.request = .loadMoreActivity oldest)
    (shown : Shown viewer state.log state.frames other)
    (token : other.activityRequestToken = state.store.activityRequestToken)
    (filterId : other.activityFilter = state.store.activityFilter)
    (promise : other.activityPromise = state.store.activityPromise)
    (loaded : other.activityLoaded = state.store.activityLoaded)
    (grows : ∀ row ∈ state.store.activity, row ∈ other.activity) :
    Good viewer (state.settle index other) := by
  apply good.settle found shown token filterId
  · rw [promise]
    intro waited waiting
    refine ⟨waiting, fun same => ?_⟩
    rw [requested] at same
    cases same
  · unfold Kept
    rw [filterId, promise, loaded]
    intro event member matching
    exact (good.arrived event member matching).imp_left (grows event)

theorem finishLoadMore {index oldest : Nat} {call : Call} (good : Good viewer state)
    (found : state.calls[index]? = some call)
    (requested : call.request = .loadMoreActivity oldest) :
    Good viewer (state.settle index state.store.finishLoadMore) := by
  apply good.settle_more found requested
  · exact good.shown.congr rfl rfl rfl
  · rfl
  · rfl
  · rfl
  · rfl
  · exact fun row inside => inside

theorem land {index : Nat} {call : Call} {answer : Answer} (good : Good viewer state)
    (found : state.calls[index]? = some call) (answered : answer ∈ call.answer)
    (may : state.MayLand viewer call answer) :
    Good viewer (state.settle index (call.land answer.page state.store)) := by
  have member := List.mem_of_getElem? found
  have page := (good.calling.answered call member answer answered).2
  unfold Call.land
  unfold State.MayLand at may
  cases requested : call.request with
  | loadActivity token =>
      simp only [requested] at may page ⊢
      unfold Store.loadAnswered
      by_cases live : token = state.store.activityRequestToken
      · have under := (good.calling.live call member token requested).2 live
        rw [under] at page
        rw [if_neg (not_not_intro live)]
        apply good.settle found
        · exact Shown.replace page (may live) rfl rfl rfl
        · rfl
        · rfl
        · intro waited waiting
          cases waiting
        · exact fun event known matching => .inl ((may live).2 event known matching)
      · rw [if_pos live]
        exact good.settle_superseded found requested live
  | loadMoreActivity oldest =>
      simp only [requested] at may page ⊢
      unfold Store.loadMoreAnswered
      by_cases under : state.store.activityFilter = call.filterId
      · rw [if_neg (not_not_intro under)]
        rw [← under] at page
        apply good.settle_more found requested
        · exact good.shown.extend page (may under) rfl rfl rfl
        · rfl
        · rfl
        · rfl
        · rfl
        · exact fun row inside => List.mem_append_left _ inside
      · rw [if_pos under]
        exact good.finishLoadMore found requested

theorem fail {index : Nat} {call : Call} (good : Good viewer state)
    (found : state.calls[index]? = some call) (may : state.MayFail viewer call) :
    Good viewer (state.settle index (call.fail state.store)) := by
  unfold Call.fail
  cases requested : call.request with
  | loadActivity token =>
      simp only
      unfold Store.loadFailed
      by_cases live : token = state.store.activityRequestToken
      · rw [if_neg (not_not_intro live)]
        apply good.settle found
        · exact good.shown.congr rfl rfl rfl
        · rfl
        · rfl
        · intro waited waiting
          cases waiting
        · intro event member matching
          rcases good.arrived event member matching with inside | ⟨unloaded, _⟩
          · exact .inl inside
          · rw [live] at requested
            exact absurd matching (may requested unloaded event member)
      · rw [if_pos live]
        exact good.settle_superseded found requested live
  | loadMoreActivity oldest =>
      exact good.finishLoadMore found requested

/-- **Every admitted step keeps the invariant.** -/
theorem next {action : Action} {after : State} (good : Good viewer state)
    (admitted : state.Admits viewer action) (moved : step viewer state action = some after) :
    Good viewer after := by
  cases action with
  | commit event =>
      simp only [step] at moved
      split at moved
      next => cases moved
      next fresh =>
        cases moved
        exact good.commit fresh
  | arrive place =>
      obtain ⟨event, found, rfl⟩ := Option.map_eq_some_iff.mp moved
      exact good.arrive found (admitted event found)
  | loadActivity force =>
      cases moved
      exact good.loadActivity force
  | loadMoreActivity =>
      cases moved
      exact good.loadMoreActivity
  | setActivityFilter filterId =>
      cases moved
      exact good.setActivityFilter filterId
  | serve index =>
      obtain ⟨call, found, moved⟩ := Option.bind_eq_some_iff.mp moved
      split at moved
      next => cases moved
      next =>
        cases moved
        exact good.serve found
  | land index =>
      obtain ⟨call, found, moved⟩ := Option.bind_eq_some_iff.mp moved
      obtain ⟨answer, answered, moved⟩ := Option.bind_eq_some_iff.mp moved
      cases moved
      exact good.land found answered (admitted call found answer answered)
  | fail index =>
      obtain ⟨call, found, rfl⟩ := Option.map_eq_some_iff.mp moved
      exact good.fail found (admitted call found)

/-- A feed not loaded yet is good. -/
theorem initially (begins : (system viewer).Initial state) : Good viewer state := by
  obtain ⟨distinct, frames, store, calls, arrived⟩ := begins
  constructor
  · exact distinct
  · rw [frames]
    exact fun event member => nomatch member
  · rw [store]
    exact Shown.of_unloaded rfl rfl
  · rw [store, calls]
    exact ⟨fun token waiting => (nomatch waiting), fun call member => (nomatch member),
      fun call member => (nomatch member)⟩
  · rw [arrived]
    exact fun event member => nomatch member

/-- A good feed shows no gaps. -/
theorem noGaps (good : Good viewer state) : NoGaps viewer state := by
  have unpromised : state.Quiet → state.store.activityPromise = none := by
    intro quiet
    cases promise : state.store.activityPromise with
    | none => rfl
    | some token =>
        obtain ⟨_, call, member, _⟩ := good.calling.promise token promise
        rw [quiet.2] at member
        cases member
  constructor
  · exact good.shown.ordered
  · intro quiet
    apply isPrefix_of_closed good.shown.ordered
    · exact descending_sort (good.distinct.sublist (List.filter_sublist.map _))
    · intro row member
      obtain ⟨logged, matching⟩ := good.shown.own row member
      exact mem_sort.mpr (List.mem_filter.mpr ⟨logged, decide_eq_true matching⟩)
    · intro event inLog row member newer
      obtain ⟨logged, matching⟩ := List.mem_filter.mp (mem_sort.mp inLog)
      cases loaded : state.store.activityLoaded with
      | false =>
          rw [good.shown.unloaded loaded] at member
          cases member
      | true =>
          rcases good.shown.closed loaded event logged (of_decide_eq_true matching) with
            announced | inside | older
          · rw [quiet.1] at announced
            cases announced
          · exact inside
          · have under := older.2 row member
            omega
  · intro quiet event member matching
    rcases good.arrived event member matching with inside | ⟨_, waiting⟩
    · exact inside
    · rw [unpromised quiet] at waiting
      cases waiting

end Good

/-- **No gaps and no duplicates** in any state reached by admitted steps. -/
theorem noGaps_of_admitted {state : State}
    (reached : (system viewer).ReachedWithin (State.Admits viewer) state) :
    NoGaps viewer state :=
  (reached.invariant (fun _ begins => Good.initially begins)
    fun _ _ _ good admitted moved => good.next admitted moved).noGaps

/-- The tab of user 1, whose log has one row. -/
def opened : State := ⟨[⟨0, 1, .listCreated⟩], [], .initial, [], []⟩

/-- The page of the run below starts as a feed does. -/
theorem opened_initial : (system 1).Initial opened := ⟨by decide, rfl, rfl, rfl, rfl⟩

/-- A run with a filter switch and both kinds of request. -/
theorem noGaps_after_switch :
    ∃ state : State, state.Quiet ∧
      state.store.activity = [⟨4, 1, .itemCreated⟩, ⟨2, 1, .itemChecked⟩] ∧ NoGaps 1 state := by
  obtain ⟨state, reached, shape⟩ := TransitionSystem.exists_reachedWithin_of_run
    (State.Admits 1) opened_initial
    [.loadActivity false, .serve 0, .land 0, .commit ⟨2, 1, .itemChecked⟩, .arrive 0,
      .loadMoreActivity, .setActivityFilter .listItems, .serve 1, .commit ⟨3, 8, .itemCreated⟩,
      .commit ⟨4, 1, .itemCreated⟩, .land 1, .serve 0, .land 0, .arrive 0, .arrive 0,
      .loadActivity true, .fail 0]
    (fun state => decide (state.Quiet ∧
      state.store.activity = [⟨4, 1, .itemCreated⟩, ⟨2, 1, .itemChecked⟩])) (by decide)
  obtain ⟨quiet, rows⟩ := of_decide_eq_true shape
  exact ⟨state, quiet, rows, noGaps_of_admitted reached⟩

/-- A reload that was answered before a row was committed takes the row away again. -/
theorem reload_drops_arrived_row :
    ¬ ∀ state : State, (system 1).Reachable state → NoGaps 1 state := by
  intro noGaps
  obtain ⟨state, reached, gap⟩ := TransitionSystem.exists_reachable_of_run opened_initial
    [.loadActivity false, .serve 0, .land 0, .loadActivity true, .serve 0,
      .commit ⟨1, 1, .itemCreated⟩, .arrive 0, .land 0]
    (fun state => decide (¬ NoGaps 1 state)) (by decide)
  exact of_decide_eq_true gap (noGaps state reached)

end FrontDashboard.Activity
