import FrontDashboard.Resync.Agendas

/-! # Scoped and full resyncs

A page that is connected again refetches what the types of the events it missed stand for. What
no such event stands for has to be as it was.
-/

namespace FrontDashboard.Resync

open Calendar (TimezoneName Zone)
open FrontDashboard.Stream (resyncNeeded)

variable {client : Client} {before after : Tables} {resource : Resource}

/-! ## What is invalidated -/

/-- A route leads to the handler of a resource. -/
def Resource.heeds (resource : Resource) : EventRoute → Bool
  | .list => resource.ofLists || resource.ofAgenda
  | .calendar => resource.ofCalendar || resource.ofAgenda
  | .dashboard => resource.ofMembers || resource.ofDashboards

theorem mem_onResync_none {cached : List Resource} :
    resource ∈ onResync none cached ↔ resource ∈ cached := by
  cases resource <;>
    simp [onResync, Resource.ofLists, Resource.ofCalendar, Resource.ofAgenda, Resource.ofMembers,
      Resource.ofDashboards]

theorem mem_onResync_some {routes : List EventRoute} {cached : List Resource} :
    resource ∈ onResync (some routes) cached ↔
      resource ∈ cached ∧ ∃ route ∈ routes, resource.heeds route := by
  have among : (∃ route ∈ routes, resource.heeds route) ↔
      (.list ∈ routes ∧ resource.heeds .list) ∨ (.calendar ∈ routes ∧ resource.heeds .calendar) ∨
        (.dashboard ∈ routes ∧ resource.heeds .dashboard) := by
    constructor
    · rintro ⟨route, member, heeded⟩
      cases route with
      | list => exact .inl ⟨member, heeded⟩
      | calendar => exact .inr (.inl ⟨member, heeded⟩)
      | dashboard => exact .inr (.inr ⟨member, heeded⟩)
    · rintro (⟨member, heeded⟩ | ⟨member, heeded⟩ | ⟨member, heeded⟩)
      · exact ⟨_, member, heeded⟩
      · exact ⟨_, member, heeded⟩
      · exact ⟨_, member, heeded⟩
  rw [among]
  cases resource <;>
    simp [onResync, Resource.heeds, Resource.ofLists, Resource.ofCalendar, Resource.ofAgenda,
      Resource.ofMembers, Resource.ofDashboards, and_or_left, and_comm]

theorem routesOf_eq_none {scopes : List String} :
    routesOf scopes = none ↔ ∃ scope ∈ scopes, resyncTargets scope = none := by
  induction scopes with
  | nil => simp [routesOf]
  | cons scope rest ih =>
      cases known : resyncTargets scope with
      | none => simp [routesOf, known]
      | some targets => simp [routesOf, known, ih]

theorem mem_routesOf {scopes : List String} {routes : List EventRoute} {route : EventRoute}
    (known : routesOf scopes = some routes) :
    route ∈ routes ↔ ∃ scope ∈ scopes, ∃ targets ∈ resyncTargets scope, route ∈ targets := by
  induction scopes generalizing routes with
  | nil =>
      cases known
      simp
  | cons scope rest ih =>
      rw [routesOf] at known
      split at known
      next => cases known
      next targets found =>
        obtain ⟨others, later, rfl⟩ := Option.map_eq_some_iff.mp known
        simp [found, ih later]

/-! ## What is announced -/

namespace Client

/-- An event since the mark, of a dashboard that is seen now. -/
def Missed (client : Client) (tables : Tables) (event : ActivityEvent) : Prop :=
  event ∈ tables.log ∧ (∃ mark ∈ client.mark, mark < event.eventId) ∧
    ∃ id ∈ event.dashboardId, tables.Sees client.user id

/-- No scopes are sent, or some that the page does not know: without a mark, after too many
events, or for an event of a type it does not know. -/
def Unscoped (client : Client) (tables : Tables) : Prop :=
  client.mark = none ∨
    (∃ mark ∈ client.mark, Tables.changesLimit < (tables.eventsSince mark).length) ∨
    ∃ event, client.Missed tables event ∧ resyncTargets event.entityType = none

/-- An event tells of a resource: its type stands for the handler of the resource. -/
def Announced (client : Client) (tables : Tables) (resource : Resource) : Prop :=
  ∃ event, client.Missed tables event ∧ ∃ targets ∈ resyncTargets event.entityType,
    ∃ route ∈ targets, resource.heeds route

end Client

section Scopes

variable {mark : Nat} {visible : List DashboardId}

theorem length_take_arranged {α : Type} (order : α → α → Prop) [DecidableRel order]
    (rows : List α) (limit : Nat) :
    limit < ((arranged order rows).take (limit + 1)).length ↔ limit < rows.length := by
  rw [List.length_take, arranged, List.length_insertionSort]
  omega

theorem entityTypesChangedSince_eq_none :
    after.entityTypesChangedSince mark visible = none ↔
      Tables.changesLimit < (after.eventsSince mark).length := by
  have bounded := length_take_arranged
    (fun event other : ActivityEvent => event.eventId < other.eventId) (after.eventsSince mark)
    Tables.changesLimit
  simp only [Tables.entityTypesChangedSince]
  split_ifs with many
  · exact iff_of_true rfl (bounded.mp many)
  · exact iff_of_false (fun none => by cases none) (bounded.not.mp many)

theorem mem_entityTypesChangedSince {scopes : List String}
    (answered : after.entityTypesChangedSince mark visible = some scopes) {type : String} :
    type ∈ scopes ↔ ∃ event ∈ after.eventsSince mark,
      (∃ id ∈ event.dashboardId, id ∈ visible) ∧ event.entityType = type := by
  have few : (after.eventsSince mark).length ≤ Tables.changesLimit := by
    by_contra many
    rw [entityTypesChangedSince_eq_none.mpr (Nat.lt_of_not_le many)] at answered
    cases answered
  have whole : ((arranged (fun event other : ActivityEvent => event.eventId < other.eventId)
      (after.eventsSince mark)).take (Tables.changesLimit + 1)) =
        arranged (fun event other : ActivityEvent => event.eventId < other.eventId)
          (after.eventsSince mark) := by
    refine List.take_of_length_le ?_
    rw [arranged, List.length_insertionSort]
    omega
  simp only [Tables.entityTypesChangedSince, whole] at answered
  split_ifs at answered
  cases answered
  simp [mem_arranged, and_assoc]

end Scopes

/-- **What is invalidated**, when a page with a mark is sent a resync. -/
theorem mem_reconnect
    (needed : ∀ mark ∈ client.mark, resyncNeeded (some mark) after.currentEventId = true) :
    resource ∈ client.reconnect after ↔
      resource ∈ client.cached ∧ (client.Unscoped after ∨ client.Announced after resource) := by
  rw [Client.reconnect]
  cases marked : client.mark with
  | none =>
      dsimp only
      rw [mem_onResync_none]
      exact (and_iff_left (.inl (.inl marked))).symm
  | some mark =>
      have missed : ∀ event, client.Missed after event ↔ event ∈ after.eventsSince mark ∧
          ∃ id ∈ event.dashboardId, id ∈ after.listAccessibleDashboardIds client.user := by
        intro event
        simp [Client.Missed, marked, Tables.eventsSince, Tables.Sees, and_assoc]
      simp only [Tables.connectState, needed mark marked]
      cases answered : after.entityTypesChangedSince mark
        (after.listAccessibleDashboardIds client.user) with
      | none =>
          have many := entityTypesChangedSince_eq_none.mp answered
          rw [resyncDict, resyncRoutes, Option.map_none, Option.bind_none, mem_onResync_none]
          exact (and_iff_left (.inl (.inr (.inl ⟨mark, marked, many⟩)))).symm
      | some scopes =>
          have few : ¬ ∃ mark ∈ client.mark,
              Tables.changesLimit < (after.eventsSince mark).length := by
            rintro ⟨other, same, many⟩
            obtain rfl : mark = other := Option.some.inj (marked.symm.trans same)
            rw [entityTypesChangedSince_eq_none.mpr many] at answered
            cases answered
          have sorted : ∀ type, type ∈ scopes.insertionSort (· ≤ ·) ↔
              ∃ event, client.Missed after event ∧ event.entityType = type := by
            intro type
            rw [List.mem_insertionSort, mem_entityTypesChangedSince answered]
            simp only [missed, and_assoc]
          rw [resyncDict, resyncRoutes, Option.map_some, Option.bind_some]
          cases known : routesOf (scopes.insertionSort (· ≤ ·)) with
          | none =>
              obtain ⟨type, listed, foreign⟩ := routesOf_eq_none.mp known
              obtain ⟨event, lost, rfl⟩ := (sorted type).mp listed
              rw [mem_onResync_none]
              exact (and_iff_left (.inl (.inr (.inr ⟨event, lost, foreign⟩)))).symm
          | some routes =>
              have scopedOnly : ¬ client.Unscoped after := by
                rintro (unmarked | many | ⟨event, lost, foreign⟩)
                · rw [marked] at unmarked
                  cases unmarked
                · exact few many
                · have foreigner := routesOf_eq_none.mpr
                    ⟨event.entityType, (sorted _).mpr ⟨event, lost, rfl⟩, foreign⟩
                  rw [known] at foreigner
                  cases foreigner
              rw [mem_onResync_some, or_iff_right scopedOnly]
              refine and_congr_right fun _ => ?_
              simp only [mem_routesOf known, sorted, Client.Announced]
              constructor
              · rintro ⟨route, ⟨_, ⟨event, lost, rfl⟩, targets, found, member⟩, heeded⟩
                exact ⟨event, lost, targets, found, route, member, heeded⟩
              · rintro ⟨event, lost, targets, found, route, member, heeded⟩
                exact ⟨route, ⟨_, ⟨event, lost, rfl⟩, targets, found, member⟩, heeded⟩

/-! ## What comes differently -/

section Histories

variable {zoneInfo : TimezoneName → Zone} {settings : Settings} {history : List Commit}
  {events : List ActivityEvent}

/-- **A resource that no event tells of** comes as before exactly when it is settled. -/
theorem fetch_eq_iff (context : Context) (constrained : before.Constrained)
    (replayed : Replayed before after events)
    (silent : ∀ event ∈ events, ∀ targets ∈ resyncTargets event.entityType, ∀ route ∈ targets,
      resource.heeds route → ∀ id ∈ event.dashboardId, ¬ after.Sees client.user id) :
    resource.fetch context client.user before = resource.fetch context client.user after ↔
      Settled context client.user before after resource := by
  have boards : resource.heeds .dashboard →
      BoardsShown client.user (after.listAccessibleDashboardIds client.user) before after :=
    fun heeded => (replayed.boards _ fun event member type => silent event member [.dashboard]
      (by rw [type]; rfl) .dashboard List.mem_cons_self heeded).shown client.user
  have lists : resource.heeds .list →
      ListsKept (after.listAccessibleDashboardIds client.user) before.lists after.lists :=
    fun heeded => replayed.lists _ fun event member type =>
      silent event member [.list] (by rcases type with type | type <;> rw [type] <;> rfl) .list
        List.mem_cons_self heeded
  have calendar : resource.heeds .calendar →
      CalendarKept (after.listAccessibleDashboardIds client.user) before.calendar after.calendar :=
    fun heeded => replayed.calendar _ fun event member type =>
      silent event member [.calendar] (by rw [type]; rfl) .calendar List.mem_cons_self heeded
  cases resource with
  | summaries => exact fetch_summaries_iff context constrained replayed.constrained (boards rfl)
  | dashboard id => exact fetch_dashboard_iff context constrained replayed.constrained (boards rfl)
  | members id => exact fetch_members_iff context constrained replayed.constrained (boards rfl)
  | listSummaries id => exact fetch_listSummaries_iff context replayed.constrained (lists rfl)
  | listDetail list =>
      exact fetch_listDetail_iff context constrained replayed.constrained (lists rfl)
  | reminders id => exact fetch_reminders_iff context constrained replayed.constrained (lists rfl)
  | occurrences id windowStart windowEnd => exact fetch_occurrences_iff context (calendar rfl)
  | event id => exact fetch_event_iff context constrained replayed.constrained (calendar rfl)

/-- A history that is not empty is in the log. -/
theorem exists_event_of_cons (constrained : before.Constrained) {first : Commit}
    (ran : replay zoneInfo settings (first :: history) before = some after) :
    ∃ event ∈ after.log, before.currentEventId.getD 0 < event.eventId := by
  obtain ⟨middle, committed, continued⟩ := Option.bind_eq_some_iff.mp ran
  obtain ⟨event, one⟩ := replayed_of_commit constrained committed
  obtain ⟨events, others⟩ := replayed_of_replay one.constrained continued
  refine ⟨event, ?_, one.later event List.mem_cons_self⟩
  rw [others.log, one.log]
  exact List.mem_append_left _ (List.mem_append_right _ List.mem_cons_self)

/-- What happened is missed, by a page that was told of no more. -/
theorem missed_of_mem (replayed : Replayed before after events)
    (marked : ∃ mark ∈ client.mark, mark ≤ before.currentEventId.getD 0) {event : ActivityEvent}
    (member : event ∈ events) {id : DashboardId} (named : id ∈ event.dashboardId)
    (seen : after.Sees client.user id) : client.Missed after event := by
  obtain ⟨mark, holds, told⟩ := marked
  refine ⟨?_, ⟨mark, holds, lt_of_le_of_lt told (replayed.later event member)⟩, id, named, seen⟩
  rw [replayed.log]
  exact List.mem_append_right _ member

/-- **When a scoped resync is as good as a full one.** Of a page that was told of nothing that
happened since, every resource has to be announced or settled, unless no scopes reach it. -/
theorem asGoodAsFull_iff (context : Context) (constrained : before.Constrained)
    (ran : replay zoneInfo settings history before = some after)
    (told : ∀ mark ∈ client.mark, mark ≤ before.currentEventId.getD 0) :
    AsGoodAsFull context client before after ↔
      client.Unscoped after ∨ ∀ resource ∈ client.cached,
        client.Announced after resource ∨ Settled context client.user before after resource := by
  cases history with
  | nil =>
      cases ran
      exact iff_of_true (fun _ _ differs => absurd rfl differs)
        (.inr fun resource _ => .inr (Settled.refl context client.user before resource))
  | cons first rest =>
      obtain ⟨last, logged, later⟩ := exists_event_of_cons constrained ran
      obtain ⟨events, replayed⟩ := replayed_of_replay constrained ran
      have needed : ∀ mark ∈ client.mark, resyncNeeded (some mark) after.currentEventId = true := by
        intro mark holds
        have reached : last.eventId ≤ after.currentEventId.getD 0 :=
          List.le_max?_getD_of_mem (List.mem_map_of_mem logged)
        have passed := (told mark holds).trans_lt (later.trans_le reached)
        cases head : after.currentEventId with
        | none =>
            rw [head] at passed
            exact absurd passed (Nat.not_lt_zero mark)
        | some head' =>
            rw [head] at passed
            exact decide_eq_true passed
      have settled : ∀ resource, ¬ client.Unscoped after → ¬ client.Announced after resource →
          (resource.fetch context client.user before = resource.fetch context client.user after ↔
            Settled context client.user before after resource) := by
        intro resource answered unannounced
        obtain ⟨mark, holds⟩ := Option.ne_none_iff_exists'.mp fun none => answered (.inl none)
        refine fetch_eq_iff context constrained replayed
          fun event member targets found route listed heeded id named seen => ?_
        have lost := missed_of_mem replayed ⟨mark, holds, told mark holds⟩ member named seen
        exact unannounced ⟨event, lost, targets, found, route, listed, heeded⟩
      simp only [AsGoodAsFull, mem_reconnect needed]
      constructor
      · intro good
        by_cases answered : client.Unscoped after
        · exact .inl answered
        · refine .inr fun resource cached => ?_
          by_cases announced : client.Announced after resource
          · exact .inl announced
          · refine .inr ((settled resource answered announced).mp ?_)
            by_contra differs
            exact (good resource cached differs).2.elim answered announced
      · rintro (answered | good) resource cached differs
        · exact ⟨cached, .inl answered⟩
        · refine ⟨cached, ?_⟩
          by_contra unreached
          obtain ⟨answered, unannounced⟩ := not_or.mp unreached
          have same := (good resource cached).resolve_left unannounced
          exact differs ((settled resource answered unannounced).mpr same)

end Histories

/-! ## A removal and a new name -/

def sharedContext : Context := ⟨Calendar.utc, id, id, fun _ => "", 0⟩

/-- The same after the owner has removed the other. -/
def removedTables : Tables :=
  { (sharedTables.forget [2] 1).deleteShare 1 ⟨1, 2, .viewer, 1⟩ with
    log := sharedTables.log ++ [⟨2, EntityType.dashboard.text, some 1⟩] }

/-- The one who was removed keeps the dashboard in the summaries: no event of a dashboard that
can be seen tells of the removal. -/
theorem removal_goes_unannounced :
    replay Calendar.utc sharedSettings [⟨2, .deleteDashboardShare 1 1 1⟩] sharedTables =
        some removedTables ∧
      ¬ AsGoodAsFull sharedContext ⟨2, some 1, [.summaries]⟩ sharedTables removedTables := by
  refine ⟨rfl, fun good => ?_⟩
  have differs : Resource.fetch sharedContext 2 sharedTables .summaries ≠
      Resource.fetch sharedContext 2 removedTables .summaries := by
    intro same
    have shown := congrArg List.length (Content.summaries.inj same)
    revert shown
    decide
  have unreached : Resource.summaries ∉
      Client.reconnect ⟨2, some 1, [.summaries]⟩ removedTables := by decide
  exact unreached (good .summaries List.mem_cons_self differs)

/-- The same after the owner has renamed the dashboard. -/
def renamedTables : Tables :=
  { sharedTables with
    dashboards := [⟨1, 1, "Kitchen", [], 0, 0, 5, none⟩]
    log := sharedTables.log ++ [⟨2, EntityType.dashboard.text, some 1⟩] }

/-- The new name is announced to who can still see the dashboard, and the lists, of which
nothing is announced, are what they were. -/
theorem rename_is_announced :
    AsGoodAsFull sharedContext ⟨2, some 1, [.summaries, .listSummaries 1]⟩ sharedTables
      renamedTables := by
  have ran : replay Calendar.utc sharedSettings
      [⟨2, .updateDashboardMeta 1 1 (some "Kitchen") 5⟩] sharedTables = some renamedTables := rfl
  refine (asGoodAsFull_iff sharedContext constrained_sharedTables ran fun mark told => ?_).mpr
    (.inr fun resource cached => ?_)
  · cases told
    decide
  · rcases List.mem_pair.mp cached with rfl | rfl
    · exact .inl ⟨⟨2, EntityType.dashboard.text, some 1⟩,
        ⟨by decide, ⟨1, rfl, by decide⟩, 1, rfl, by decide⟩, [.dashboard], rfl, .dashboard,
        List.mem_cons_self, rfl⟩
    · exact .inr ⟨by decide, fun list order moment => Iff.rfl⟩

end FrontDashboard.Resync
