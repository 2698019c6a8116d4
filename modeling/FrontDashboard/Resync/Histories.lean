import FrontDashboard.Calendar.Belongs
import FrontDashboard.Resync.Footprints

/-! # What a history leaves

Of the dashboards that no event of a history names with their kind, the rows of this kind are
kept. A commit keeps them, and so do any number of commits.
-/

namespace FrontDashboard.Resync

open Calendar (CalendarEvent EventId TimezoneName Zone)
open FrontDashboard.Lists (ListId)
open Lists.Page (Carried ListRow Mutation Response)

variable {ids : List DashboardId} {id : DashboardId} {tables before middle after next : Tables}

/-! ## Widgets of a deleted list -/

/-- Unbinding a list leaves a row's id. -/
theorem unboundRow_id (list : ListId) (now : Time) (row : Dashboard) :
    (tables.unboundRow list now row).id = row.id := by
  simp only [Tables.unboundRow]
  split_ifs
  · rfl
  · rw [Dashboard.saved]
    split_ifs <;> rfl

/-- The deletion of a list takes widgets from boards and raises their versions. -/
theorem boardsKept_removeResourceWidgets (list : ListId) (now : Time) :
    BoardsKept ids tables (tables.removeResourceWidgets list now) where
  boards := by
    refine ⟨fun board => (tables.unboundRow list now board.1,
      board.2.filter fun widget => widget.resourceId ≠ some list), ?_, ?_⟩
    · intro board member
      obtain ⟨row, -, rfl⟩ := List.mem_map.mp member
      by_cases spared : ((tables.widgetsOf row.id).filter fun widget =>
        widget.resourceId = some list) = []
      · have kept : (tables.widgetsOf row.id).filter (fun widget =>
            widget.resourceId ≠ some list) = tables.widgetsOf row.id := by
          refine List.filter_eq_self.mpr fun widget listed => decide_eq_true fun bound => ?_
          exact List.filter_eq_nil_iff.mp spared widget listed (decide_eq_true bound)
        have same : tables.unboundRow list now row = row := by
          simp only [Tables.unboundRow, spared, List.map_nil, if_true]
        simp only [kept, same]
        exact .refl _
      · have changed : tables.unboundRow list now row =
            { row with
              layout := (tables.unboundRow list now row).layout
              version := row.version + 1, updatedAt := now } := by
          simp only [Tables.unboundRow, List.map_eq_nil_iff, spared, if_false]
          rw [Dashboard.saved, if_neg]
          intro same
          have raised := congrArg Dashboard.version same
          exact absurd raised (by simp)
        constructor
        · dsimp only
          rw [changed]
        · dsimp only
          rw [changed]
          exact Int.le.intro 1 rfl
        · dsimp only
          rw [changed]
          intro same
          simp at same
    · have chosen : ∀ row ∈ tables.dashboards,
          ((fun row : Dashboard => decide (row.id ∈ ids)) ∘ tables.unboundRow list now) row =
            decide (row.id ∈ ids) := by
        intro row _
        rw [Function.comp_apply, unboundRow_id]
      rw [Tables.boards, Tables.boards, Tables.removeResourceWidgets, List.filter_map,
        List.filter_congr chosen, List.map_map, List.map_map]
      refine List.map_congr_left fun row _ => ?_
      simp only [Function.comp_apply, unboundRow_id, Tables.widgetsOf, List.filter_filter]
      congr 1
      refine List.filter_congr fun widget _ => ?_
      rw [Bool.and_comm]
  shares := fun _ _ => rfl
  favorites := fun _ _ _ => .rfl

/-- A mutation of lists keeps the boards but for the bindings it takes. -/
theorem boardsKept_unbound (mutation : Mutation) (lists : Lists.Page.Tables) :
    BoardsKept ids tables { tables.unbound mutation with lists := lists } := by
  have same : ∀ {tables' : Tables}, BoardsKept ids tables tables' →
      BoardsKept ids tables { tables' with lists := lists } := fun kept =>
    ⟨kept.boards, kept.shares, kept.favorites⟩
  cases mutation with
  | deleteList role list now => exact same (boardsKept_removeResourceWidgets list now)
  | createList | updateListName | restoreList | reorderLists | addListItem | updateListItem
    | deleteListItem | reorderListItems => exact same (.refl tables)

/-! ## Mutations of lists -/

section Lists

variable {lists after : Lists.Page.Tables}

/-- The dashboard of a row is that of its id. -/
theorem dashboardOfList_row (constrained : tables.Constrained) {row : ListRow}
    (listed : row ∈ tables.lists.lists) :
    tables.dashboardOfList row.id = some row.dashboardId := by
  have found : tables.lists.lists.find? (fun other => other.id = row.id) = some row :=
    (KeyedRows.find?_eq_some_iff constrained.lists.unique fun _ same =>
      of_decide_eq_true same).mpr ⟨listed, decide_eq_true rfl⟩
  rw [Tables.dashboardOfList, found]
  rfl

/-- One row is replaced by another of its dashboard, which is none of those chosen. -/
theorem listsApart_replace (constrained : tables.Constrained) {row updated : ListRow}
    (listed : row ∈ tables.lists.lists) (sameId : updated.id = row.id)
    (sameDashboard : updated.dashboardId = row.dashboardId) (absent : row.dashboardId ∉ ids) :
    ListsApart ids tables.lists (tables.lists.replace updated) where
  live := by
    intro id member
    have elsewhere : row.dashboardId ≠ id := fun here => absent (here ▸ member)
    refine filter_map_of_beside (fun other member' chosen => ?_) fun other _ beside => ?_
    · rw [if_neg]
      intro here
      have same := constrained.lists.row_eq member' listed (here.trans sameId)
      exact elsewhere (same ▸ (of_decide_eq_true chosen).1)
    · split_ifs
      · exact decide_eq_false fun chosen => elsewhere (sameDashboard ▸ chosen.1)
      · exact beside
  items := fun _ _ _ _ => rfl

/-- The items of one list change, whose dashboard is none of those chosen. -/
theorem listsApart_setItems (constrained : tables.Constrained) {row : ListRow}
    {rows : List Lists.Row}
    (listed : row ∈ tables.lists.lists) (absent : row.dashboardId ∉ ids) :
    ListsApart ids tables.lists (tables.lists.setItems row.id rows) where
  live := fun _ _ => rfl
  items := by
    intro id member other live
    obtain ⟨listed', here, -⟩ := Lists.Page.Tables.mem_live.mp live
    rw [Lists.Page.Tables.setItems_items, if_neg]
    intro same
    have rows := constrained.lists.row_eq listed' listed same
    exact absent (rows ▸ here ▸ member)

/-- The lists of a dashboard are moved that is none of those chosen. -/
theorem listsApart_renumberLists (orderedIds : List ListId) (stamp : ListRow → Time)
    (absent : id ∉ ids) :
    ListsApart ids lists (lists.renumberLists id orderedIds stamp) where
  live := by
    intro other member
    have elsewhere : other ≠ id := ne_of_mem_of_not_mem member absent
    refine filter_map_of_beside (fun row _ chosen => ?_) fun row _ beside => ?_
    · rw [if_neg]
      exact fun here => elsewhere ((of_decide_eq_true chosen).1.symm.trans here.1)
    · split_ifs
      · exact beside
      · exact beside
  items := fun _ _ _ _ => rfl

/-- The lists of a dashboard are moved. -/
theorem listsKept_renumberLists (id : DashboardId) (orderedIds : List ListId)
    (stamp : ListRow → Time) :
    ListsKept ids lists (lists.renumberLists id orderedIds stamp) where
  live := by
    intro other _
    refine ⟨fun row => if row.dashboardId = id ∧ row.deletedAt = none then
      (orderedIds.idxOf row.id, stamp row)
      else (row.sortOrder, row.updatedAt), [], ?_, fun _ none =>
        (List.not_mem_nil none).elim⟩
    rw [List.append_nil, Lists.Page.Tables.live, Lists.Page.Tables.renumberLists, List.filter_map]
    refine (List.map_congr_left fun row _ => ?_).trans
      (congrArg _ (List.filter_congr fun row _ => ?_))
    · rw [moved]
      split_ifs <;> rfl
    · rw [Function.comp_apply]
      split_ifs <;> rfl
  items := fun _ _ _ _ => rfl

/-- **A mutation of lists** leaves the lists of other dashboards alone. -/
theorem listsApart_carried (constrained : tables.Constrained) {mutation : Mutation}
    {response : Response} (carried : Carried tables.lists mutation response after)
    (on : tables.mutatedDashboard mutation = some id) (absent : id ∉ ids) :
    ListsApart ids tables.lists after := by
  have ofRow : ∀ {trashed : Bool} {list : ListId} {row : ListRow},
      tables.lists.row? trashed list = some row → tables.dashboardOfList list = some id →
        row ∈ tables.lists.lists ∧ row.id = list ∧ row.dashboardId ∉ ids := by
    intro trashed list row found on
    obtain ⟨listed, named, -⟩ := Lists.Page.Tables.of_row? found
    refine ⟨listed, named, fun member => absent ?_⟩
    rw [← named, dashboardOfList_row constrained listed] at on
    exact Option.some.inj on ▸ member
  cases carried with
  | created fresh =>
      cases on
      exact .append absent
  | renamed found | deleted found | restored found =>
      obtain ⟨listed, -, absent⟩ := ofRow found on
      exact listsApart_replace constrained listed rfl rfl absent
  | reordered =>
      cases on
      exact listsApart_renumberLists _ _ absent
  | itemAdded found _ _ | itemUpdated found _ _ | itemDeleted found _ _
    | itemsReordered found _ =>
      obtain ⟨listed, named, absent⟩ := ofRow found on
      rw [← named]
      exact listsApart_setItems constrained listed absent

/-- It moves them only where its event does not say that it is about lists. -/
theorem listsKept_carried (constrained : tables.Constrained) {mutation : Mutation}
    {response : Response} (carried : Carried tables.lists mutation response after)
    (on : tables.mutatedDashboard mutation = some id)
    (elsewhere : mutationType mutation = .list ∨ mutationType mutation = .listItem → id ∉ ids) :
    ListsKept ids tables.lists after := by
  have apart : id ∉ ids → ListsKept ids tables.lists after := fun absent =>
    (listsApart_carried constrained carried on absent).kept
  cases carried with
  | reordered => exact listsKept_renumberLists _ _ _
  | created | renamed | deleted | restored => exact apart (elsewhere (.inl rfl))
  | itemAdded | itemUpdated | itemDeleted | itemsReordered => exact apart (elsewhere (.inr rfl))

end Lists

/-! ## Requests on the calendar -/

section Calendar

variable {calendar after : Calendar.Tables} {zoneInfo : TimezoneName → Zone}
  {settings : Calendar.Settings}

/-- An event belongs to the dashboard in its row. -/
theorem dashboardOfEvent_row (constrained : tables.Constrained) {event : CalendarEvent}
    (listed : event ∈ tables.calendar.events) :
    tables.dashboardOfEvent event.id = some event.dashboardId := by
  have found : tables.calendar.events.find? (fun other => other.id = event.id) = some event :=
    (KeyedRows.find?_eq_some_iff constrained.events fun _ same =>
      of_decide_eq_true same).mpr ⟨listed, decide_eq_true rfl⟩
  rw [Tables.dashboardOfEvent, found]
  rfl

/-- There is one event an id. -/
theorem event_eq (constrained : tables.Constrained) {event other : CalendarEvent}
    (listed : event ∈ tables.calendar.events) (listed' : other ∈ tables.calendar.events)
    (same : event.id = other.id) : event = other :=
  List.inj_on_of_nodup_map constrained.events listed listed' same

/-- One event is replaced by another of its dashboard, which is none of those chosen. -/
theorem calendarKept_setEvent (constrained : tables.Constrained) {event changed : CalendarEvent}
    (listed : event ∈ tables.calendar.events) (sameId : changed.id = event.id)
    (sameDashboard : changed.dashboardId = event.dashboardId) (absent : event.dashboardId ∉ ids) :
    CalendarKept ids tables.calendar (tables.calendar.setEvent changed) where
  events := by
    refine filter_map_of_beside (fun other member chosen => ?_) fun other _ beside => ?_
    · rw [if_neg]
      intro here
      have same := event_eq constrained member listed (here.trans sameId)
      exact absent (same ▸ of_decide_eq_true chosen)
    · split_ifs
      · exact decide_eq_false (sameDashboard ▸ absent)
      · exact beside
  overrides := fun _ _ _ => rfl

/-- The overrides of one event change, whose dashboard is none of those chosen. -/
theorem calendarKept_overrides (constrained : tables.Constrained) {event : CalendarEvent}
    {overrides : List Calendar.CalendarEventOverride}
    (listed : event ∈ tables.calendar.events) (absent : event.dashboardId ∉ ids)
    (same : ∀ other, other ≠ event.id →
      overrides.filter (fun override => override.calendarEventId == other) =
        tables.calendar.overridesOf other) :
    CalendarKept ids tables.calendar { tables.calendar with overrides := overrides } where
  events := rfl
  overrides := by
    intro other listed' member
    refine same other.id fun here => absent ?_
    exact event_eq constrained listed' listed here ▸ member

/-- **A request on the calendar** leaves the events of other dashboards alone. -/
theorem calendarKept_handle (constrained : tables.Constrained) {request : Calendar.Request}
    (handled : Calendar.handle zoneInfo settings tables.calendar request = .ok after)
    (on : tables.scheduledDashboard request = some id) (absent : id ∉ ids) :
    CalendarKept ids tables.calendar after := by
  have ofEvent : ∀ {event : CalendarEvent} {eventId : EventId},
      event ∈ tables.calendar.events ∧ event.id = eventId →
        tables.dashboardOfEvent eventId = some id → event.dashboardId ∉ ids := by
    rintro event _ ⟨listed, rfl⟩ on member
    rw [dashboardOfEvent_row constrained listed] at on
    exact absent (Option.some.inj on ▸ member)
  cases request with
  | createEvent eventId caller body =>
      obtain ⟨event, created, -, rfl⟩ := Calendar.createEvent_eq_ok handled
      obtain ⟨_, _, _, _, _, _, _, written⟩ := Calendar.createdEvent_eq_ok created
      cases on
      refine ⟨?_, fun _ _ _ => rfl⟩
      rw [List.filter_append, List.filter_singleton, Calendar.flushed_eq_ok written,
        decide_eq_false absent]
      exact List.append_nil _
  | updateEvent eventId caller body =>
      obtain ⟨event, revised, live, ok, rfl⟩ := Calendar.updateEvent_eq_ok handled
      have found := Calendar.liveEvent_eq_some live
      have beside := ofEvent found on
      have sameId := Calendar.revisedEvent_id ok
      have sameDashboard : revised.dashboardId = event.dashboardId := by
        obtain ⟨_, _, _, _, _, _, _, _, written⟩ := Calendar.revisedEvent_eq_ok ok
        rw [Calendar.flushed_eq_ok written]
      have replaced := calendarKept_setEvent constrained found.1 sameId sameDashboard beside
      split_ifs
      · refine ⟨replaced.events, fun other listed member => ?_⟩
        have different : other.id ≠ eventId := by
          rintro rfl
          exact beside (event_eq constrained listed found.1 found.2.symm ▸ member)
        refine List.filter_filter.trans (List.filter_congr fun override _ => ?_)
        by_cases here : override.calendarEventId = other.id
        · simp [here, different]
        · simp [here]
      · exact replaced
  | updateOccurrence eventId caller body =>
      obtain ⟨event, live, -, -, rfl⟩ := Calendar.updateOccurrence_eq_ok handled
      have found := Calendar.liveEvent_eq_some live
      refine calendarKept_overrides constrained found.1 (ofEvent found on) fun other different => ?_
      rw [List.filter_append, List.filter_singleton]
      have others : (Calendar.Tables.overridden tables.calendar event caller body).calendarEventId =
        event.id := rfl
      rw [others, beq_false_of_ne (Ne.symm different)]
      refine (List.append_nil _).trans
        (List.filter_filter.trans (List.filter_congr fun override _ => ?_))
      by_cases here : override.calendarEventId = other
      · simp [here, different]
      · simp [here]
  | deleteEvent eventId caller now =>
      obtain ⟨event, live, rfl⟩ := Calendar.deleteEvent_eq_ok handled
      have found := Calendar.liveEvent_eq_some live
      exact calendarKept_setEvent constrained found.1 rfl rfl (ofEvent found on)
  | restoreEvent eventId caller =>
      obtain ⟨event, trashed, rfl⟩ := Calendar.restoreEvent_eq_ok handled
      have found := Calendar.trashedEvent_eq_some trashed
      exact calendarKept_setEvent constrained found.1 rfl rfl (ofEvent found on)
  | purgeTrashedEvent eventId => cases on

/-- A changed event leaves the ids distinct. -/
theorem nodup_setEvent {changed : CalendarEvent} (unique : (calendar.events.map (·.id)).Nodup) :
    ((calendar.setEvent changed).events.map (·.id)).Nodup := by
  have same : (calendar.setEvent changed).events.map (·.id) = calendar.events.map (·.id) := by
    rw [Calendar.Tables.setEvent, List.map_map]
    refine List.map_congr_left fun event _ => ?_
    rw [Function.comp_apply]
    split_ifs with here
    · exact here.symm
    · rfl
  exact same ▸ unique

/-- Any calendar request leaves the ids distinct. -/
theorem nodup_handle {request : Calendar.Request} (unique : (calendar.events.map (·.id)).Nodup)
    (handled : Calendar.handle zoneInfo settings calendar request = .ok after) :
    (after.events.map (·.id)).Nodup := by
  cases request with
  | createEvent eventId caller body =>
      obtain ⟨event, -, fresh, rfl⟩ := Calendar.createEvent_eq_ok handled
      rw [List.map_append, List.map_singleton]
      exact List.nodup_append_comm.mp (List.nodup_cons.mpr ⟨fresh, unique⟩)
  | updateEvent eventId caller body =>
      obtain ⟨event, revised, -, -, rfl⟩ := Calendar.updateEvent_eq_ok handled
      split_ifs <;> exact nodup_setEvent unique
  | updateOccurrence eventId caller body =>
      obtain ⟨event, -, -, -, rfl⟩ := Calendar.updateOccurrence_eq_ok handled
      exact unique
  | deleteEvent eventId caller now =>
      obtain ⟨event, -, rfl⟩ := Calendar.deleteEvent_eq_ok handled
      exact nodup_setEvent unique
  | restoreEvent eventId caller =>
      obtain ⟨event, -, rfl⟩ := Calendar.restoreEvent_eq_ok handled
      exact nodup_setEvent unique
  | purgeTrashedEvent eventId =>
      rw [Calendar.purgeTrashedEvent_eq_ok handled]
      exact unique.sublist (List.filter_sublist.map _)

end Calendar

/-! ## Commits -/

/-- What a commit leaves of any dashboards that its event does not name with their kind. -/
structure Footprint (type : EntityType) (id : DashboardId) (before after : Tables) : Prop where
  boards : ∀ ids, (type = .dashboard → id ∉ ids) → BoardsKept ids before after
  lists : ∀ ids, (type = .list ∨ type = .listItem → id ∉ ids) →
    ListsKept ids before.lists after.lists
  calendar : ∀ ids, (type = .calendarEvent → id ∉ ids) →
    CalendarKept ids before.calendar after.calendar
  constrained : after.Constrained

/-- A change to one board leaves no other footprint. -/
theorem OnBoard.footprint (onBoard : OnBoard id before after) (constrained : before.Constrained) :
    Footprint .dashboard id before after where
  boards := fun ids elsewhere => (onBoard.elsewhere ids (elsewhere rfl)).boardsKept
  lists := fun ids _ => onBoard.lists ids
  calendar := fun _ _ => onBoard.calendar ▸ .refl _
  constrained := onBoard.constrained constrained

/-- Unbinding leaves the dashboards in place. -/
theorem unbound_ids (mutation : Mutation) :
    (tables.unbound mutation).dashboards.map Dashboard.id = tables.dashboards.map Dashboard.id := by
  cases mutation with
  | deleteList role list now =>
      exact List.map_map.trans (List.map_congr_left fun row _ => unboundRow_id list now row)
  | createList | updateListName | restoreList | reorderLists | addListItem | updateListItem
    | deleteListItem | reorderListItems => rfl

/-- Unbinding leaves the calendar. -/
theorem unbound_calendar (mutation : Mutation) :
    (tables.unbound mutation).calendar = tables.calendar := by
  cases mutation <;> rfl

variable {zoneInfo : TimezoneName → Zone} {settings : Settings}

variable (zoneInfo : TimezoneName → Zone) (settings : Settings) (tables) (id) in
/-- What a request has done that went through: what it ran, or what it carried. -/
inductive Performs : Request → Tables → Prop
  | createDashboard {caller name now next}
      (ran : createDashboard settings caller id name now tables = .ok (some next)) :
      Performs (.createDashboard caller id name now) next
  | updateDashboardMeta {caller name now next}
      (ran : updateDashboardMeta caller id name now tables = .ok (some next)) :
      Performs (.updateDashboardMeta caller id name now) next
  | updateLayout {caller body now next}
      (ran : updateLayout caller id body now tables = .ok (some next)) :
      Performs (.updateLayout caller id body now) next
  | addWidget {caller body name config newWidget newList now next}
      (ran : addWidget settings caller id body name config newWidget newList now tables =
        .ok (some next)) :
      Performs (.addWidget caller id body name config newWidget newList now) next
  | updateWidget {caller widget config now next}
      (ran : updateWidget caller id widget config now tables = .ok (some next)) :
      Performs (.updateWidget caller id widget config now) next
  | deleteWidget {caller widget now next}
      (ran : deleteWidget caller id widget now tables = .ok (some next)) :
      Performs (.deleteWidget caller id widget now) next
  | deleteDashboard {caller now next}
      (ran : deleteDashboard caller id now tables = .ok (some next)) :
      Performs (.deleteDashboard caller id now) next
  | restoreDashboard {caller now next}
      (ran : restoreDashboard caller id now tables = .ok (some next)) :
      Performs (.restoreDashboard caller id now) next
  | acceptInvite {caller role invitedBy newShare next}
      (ran : acceptInvite caller id role invitedBy newShare tables = .ok (some next)) :
      Performs (.acceptInvite caller id role invitedBy newShare) next
  | updateDashboardShare {caller share role next}
      (ran : updateDashboardShare caller id share role tables = .ok (some next)) :
      Performs (.updateDashboardShare caller id share role) next
  | deleteDashboardShare {caller share next}
      (ran : deleteDashboardShare caller id share tables = .ok (some next)) :
      Performs (.deleteDashboardShare caller id share) next
  | leaveDashboard {caller next} (ran : leaveDashboard caller id tables = .ok (some next)) :
      Performs (.leaveDashboard caller id) next
  | transferDashboardOwnership {caller user newShare now next}
      (ran : transferDashboardOwnership caller id user newShare now tables = .ok (some next)) :
      Performs (.transferDashboardOwnership caller id user newShare now) next
  | lists {mutation response lists} (on : tables.mutatedDashboard mutation = some id)
      (found : (tables.dashboard? id).isSome)
      (carried : Carried tables.lists mutation response lists) :
      Performs (.lists mutation) { tables.unbound mutation with lists := lists }
  | calendar {request calendar} (on : tables.scheduledDashboard request = some id)
      (found : (tables.dashboard? id).isSome)
      (handled :
        Calendar.handle zoneInfo settings.calendar tables.calendar request = .ok calendar) :
      Performs (.calendar request) { tables with calendar }

/-- **What can be performed**, one case a request. -/
theorem performs_of_perform {request : Request}
    (performed : perform zoneInfo settings tables request = some (id, .ok (some next))) :
    Performs id tables zoneInfo settings request next := by
  cases request with
  | lists mutation =>
      obtain ⟨other, on, same⟩ := Option.map_eq_some_iff.mp performed
      obtain ⟨rfl, ran⟩ := Prod.mk.inj same
      split_ifs at ran with missing
      obtain ⟨⟨response, lists⟩, served, written⟩ := Outcomes.map_eq_ok.mp ran
      cases written
      exact .lists on (by simpa [Option.isSome_iff_ne_none] using missing)
        (Lists.Page.carried_of_ok served)
  | calendar scheduled =>
      obtain ⟨other, on, same⟩ := Option.map_eq_some_iff.mp performed
      obtain ⟨rfl, ran⟩ := Prod.mk.inj same
      split_ifs at ran with missing
      obtain ⟨calendar, handled, written⟩ := Outcomes.map_eq_ok.mp ran
      cases written
      exact .calendar on (by simpa [Option.isSome_iff_ne_none] using missing) handled
  | _ =>
      obtain ⟨rfl, ran⟩ := Prod.mk.inj (Option.some.inj performed)
      constructor
      exact ran

/-- A request that is not on lists or the calendar is on a dashboard. -/
theorem onBoard_of_perform (constrained : tables.Constrained) {request : Request}
    (performed : perform zoneInfo settings tables request = some (id, .ok (some next))) :
    (∃ mutation response lists, request = .lists mutation ∧
        next = { tables.unbound mutation with lists := lists } ∧
        tables.mutatedDashboard mutation = some id ∧
        Carried tables.lists mutation response lists) ∨
      (∃ scheduled calendar, request = .calendar scheduled ∧ next = { tables with calendar } ∧
        tables.scheduledDashboard scheduled = some id ∧
        Calendar.handle zoneInfo settings.calendar tables.calendar scheduled = .ok calendar) ∨
      (request.entityType = .dashboard ∧ OnBoard id tables next) := by
  cases performs_of_perform performed with
  | lists on _ carried => exact .inl ⟨_, _, _, rfl, rfl, on, carried⟩
  | calendar on _ handled => exact .inr (.inl ⟨_, _, rfl, rfl, on, handled⟩)
  | createDashboard ran =>
      exact .inr (.inr ⟨rfl, onBoard_createDashboard ran⟩)
  | updateDashboardMeta ran =>
      exact .inr (.inr ⟨rfl, onBoard_updateDashboardMeta ran⟩)
  | updateLayout ran =>
      exact .inr (.inr ⟨rfl, onBoard_updateLayout ran⟩)
  | addWidget ran =>
      exact .inr (.inr ⟨rfl, onBoard_addWidget constrained ran⟩)
  | updateWidget ran =>
      exact .inr (.inr ⟨rfl, onBoard_updateWidget ran⟩)
  | deleteWidget ran =>
      exact .inr (.inr ⟨rfl, onBoard_deleteWidget ran⟩)
  | deleteDashboard ran =>
      exact .inr (.inr ⟨rfl, onBoard_deleteDashboard ran⟩)
  | restoreDashboard ran =>
      exact .inr (.inr ⟨rfl, onBoard_restoreDashboard ran⟩)
  | acceptInvite ran =>
      exact .inr (.inr ⟨rfl, onBoard_acceptInvite ran⟩)
  | updateDashboardShare ran =>
      exact .inr (.inr ⟨rfl, onBoard_updateDashboardShare ran⟩)
  | deleteDashboardShare ran =>
      exact .inr (.inr ⟨rfl, onBoard_deleteDashboardShare ran⟩)
  | leaveDashboard ran =>
      exact .inr (.inr ⟨rfl, onBoard_leaveDashboard ran⟩)
  | transferDashboardOwnership ran =>
      exact .inr (.inr ⟨rfl, onBoard_transferDashboardOwnership ran⟩)

/-- **The footprint of a request.** -/
theorem footprint_of_perform (constrained : tables.Constrained) {request : Request}
    (performed : perform zoneInfo settings tables request = some (id, .ok (some next))) :
    Footprint request.entityType id tables next := by
  obtain ⟨mutation, response, lists, rfl, rfl, on, carried⟩ |
      ⟨scheduled, calendar, rfl, rfl, on, handled⟩ | ⟨type, onBoard⟩ :=
    onBoard_of_perform constrained performed
  · refine ⟨fun ids _ => boardsKept_unbound mutation lists, fun ids elsewhere =>
      listsKept_carried constrained carried on elsewhere, fun ids _ => ?_, ?_, ?_, ?_⟩
    · rw [unbound_calendar]
      exact .refl _
    · rw [unbound_ids]
      exact constrained.dashboards
    · exact constrained.lists.carried carried
    · rw [unbound_calendar]
      exact constrained.events
  · exact ⟨fun ids _ => ⟨(BoardsKept.refl tables).boards, fun _ _ => rfl, fun _ _ _ => .rfl⟩,
      fun ids _ => .refl _, fun ids elsewhere => calendarKept_handle constrained handled on
        (elsewhere rfl), constrained.dashboards, constrained.lists,
      nodup_handle constrained.events handled⟩
  · rw [type]
    exact onBoard.footprint constrained

/-- A commit takes a later id than the head and carries out its request. -/
theorem commit_eq_some {step : Commit}
    (committed : commit zoneInfo settings tables step = some after) :
    tables.currentEventId.getD 0 < step.eventId ∧ ∃ id next,
      perform zoneInfo settings tables step.request = some (id, .ok (some next)) ∧
        after = { next with
          log := tables.log ++ [⟨step.eventId, step.request.entityType.text, some id⟩] } := by
  rw [commit] at committed
  split_ifs at committed with later
  split at committed
  next id next performed =>
    cases committed
    exact ⟨later, id, next, performed, rfl⟩
  next => cases committed

/-- **The footprint of a commit**, and its event. -/
theorem footprint_of_commit (constrained : tables.Constrained) {step : Commit}
    (committed : commit zoneInfo settings tables step = some after) :
    tables.currentEventId.getD 0 < step.eventId ∧
      ∃ id, after.log = tables.log ++ [⟨step.eventId, step.request.entityType.text, some id⟩] ∧
        Footprint step.request.entityType id tables after := by
  obtain ⟨later, id, next, performed, rfl⟩ := commit_eq_some committed
  have footprint := footprint_of_perform constrained performed
  exact ⟨later, id, rfl,
    fun ids elsewhere => ⟨(footprint.boards ids elsewhere).boards,
      (footprint.boards ids elsewhere).shares, (footprint.boards ids elsewhere).favorites⟩,
    footprint.lists, footprint.calendar,
    ⟨footprint.constrained.dashboards, footprint.constrained.lists, footprint.constrained.events⟩⟩

/-! ## Histories -/

/-- What a history leaves, and the events it logs. -/
structure Replayed (before after : Tables) (events : List ActivityEvent) : Prop where
  log : after.log = before.log ++ events
  later : ∀ event ∈ events, before.currentEventId.getD 0 < event.eventId
  boards : ∀ ids, (∀ event ∈ events, event.entityType = EntityType.dashboard.text →
    ∀ id ∈ event.dashboardId, id ∉ ids) → BoardsKept ids before after
  lists : ∀ ids, (∀ event ∈ events, event.entityType = EntityType.list.text ∨
      event.entityType = EntityType.listItem.text → ∀ id ∈ event.dashboardId, id ∉ ids) →
    ListsKept ids before.lists after.lists
  calendar : ∀ ids, (∀ event ∈ events, event.entityType = EntityType.calendarEvent.text →
    ∀ id ∈ event.dashboardId, id ∉ ids) → CalendarKept ids before.calendar after.calendar
  constrained : after.Constrained

/-- No commits replay to nothing. -/
theorem Replayed.refl (constrained : tables.Constrained) : Replayed tables tables [] where
  log := (List.append_nil _).symm
  later := fun _ none => (List.not_mem_nil none).elim
  boards := fun _ _ => .refl _
  lists := fun _ _ => .refl _
  calendar := fun _ _ => .refl _
  constrained := constrained

/-- Two runs of commits replay one after the other. -/
theorem Replayed.trans {first second : List ActivityEvent} (one : Replayed before middle first)
    (two : Replayed middle after second) : Replayed before after (first ++ second) where
  log := by
    rw [two.log, one.log, List.append_assoc]
  later := by
    intro event member
    rcases List.mem_append.mp member with early | late
    · exact one.later event early
    · refine lt_of_le_of_lt ?_ (two.later event late)
      cases head : before.currentEventId with
      | none => exact Nat.zero_le _
      | some last =>
          obtain ⟨logged, member', rfl⟩ := List.mem_map.mp (List.max?_mem head)
          refine List.le_max?_getD_of_mem (List.mem_map_of_mem ?_)
          exact one.log ▸ List.mem_append_left _ member'
  boards := fun ids silent =>
    (one.boards ids fun event member => silent event (List.mem_append_left _ member)).trans
      (two.boards ids fun event member => silent event (List.mem_append_right _ member))
  lists := fun ids silent =>
    (one.lists ids fun event member => silent event (List.mem_append_left _ member)).trans
      (two.lists ids fun event member => silent event (List.mem_append_right _ member))
  calendar := fun ids silent =>
    (one.calendar ids fun event member => silent event (List.mem_append_left _ member)).trans
      (two.calendar ids fun event member => silent event (List.mem_append_right _ member))
  constrained := two.constrained

/-- One commit replays to its event. -/
theorem replayed_of_commit (constrained : tables.Constrained) {step : Commit}
    (committed : commit zoneInfo settings tables step = some after) :
    ∃ event, Replayed tables after [event] := by
  obtain ⟨later, id, logged, footprint⟩ := footprint_of_commit constrained committed
  refine ⟨_, logged, ?_, fun ids silent => ?_, fun ids silent => ?_, fun ids silent => ?_,
    footprint.constrained⟩
  · intro event member
    rw [List.mem_singleton.mp member]
    exact later
  · refine footprint.boards ids fun type => ?_
    exact silent _ List.mem_cons_self (congrArg EntityType.text type) id rfl
  · refine footprint.lists ids fun type => ?_
    exact silent _ List.mem_cons_self
      (type.imp (congrArg EntityType.text) (congrArg EntityType.text)) id rfl
  · refine footprint.calendar ids fun type => ?_
    exact silent _ List.mem_cons_self (congrArg EntityType.text type) id rfl

/-- **What a whole history leaves.** -/
theorem replayed_of_replay (constrained : before.Constrained) {history : List Commit}
    (ran : replay zoneInfo settings history before = some after) :
    ∃ events, Replayed before after events := by
  induction history generalizing before with
  | nil =>
      cases ran
      exact ⟨[], .refl constrained⟩
  | cons first rest ih =>
      obtain ⟨middle, committed, continued⟩ := Option.bind_eq_some_iff.mp ran
      obtain ⟨event, one⟩ := replayed_of_commit constrained committed
      obtain ⟨events, others⟩ := ih one.constrained continued
      exact ⟨_, one.trans others⟩

/-! ## A shared dashboard -/

/-- A dashboard of one user, shared with another. -/
def sharedTables : Tables where
  dashboards := [⟨1, 1, "Home", [], 0, 0, 0, none⟩]
  shares := fun id => if id = 1 then [⟨1, 2, .viewer, 1⟩] else []
  widgets := []
  favorites := fun _ => []
  lists := ⟨[], fun _ => []⟩
  calendar := ⟨[], []⟩
  log := [⟨1, EntityType.dashboard.text, some 1⟩]

def sharedSettings : Settings :=
  ⟨⟨100, 1000, 200, 100⟩, ⟨⟨5000, 25000⟩, 1000, 200⟩, ⟨1000⟩⟩

/-- The tables below satisfy their constraints. -/
theorem constrained_sharedTables : sharedTables.Constrained :=
  ⟨List.nodup_singleton 1, ⟨List.nodup_nil, fun _ => List.nodup_nil, fun _ _ _ _ member =>
    (List.not_mem_nil member).elim, fun _ _ => rfl⟩, List.nodup_nil⟩

end FrontDashboard.Resync
