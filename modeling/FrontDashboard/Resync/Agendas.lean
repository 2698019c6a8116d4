import FrontDashboard.Calendar.Refusal
import FrontDashboard.Resync.Contents

/-! # What comes differently of agendas and calendars

Reminders are derived from the lists of a dashboard, in their order; a calendar is read through
the dashboards that its user sees.
-/

namespace FrontDashboard.Resync

open FrontDashboard.Lists (ListId Row shown)
open Lists.Page (ListRow Reminder fetchAgendaReminders)

variable {user : UserId} {tables before after : Tables} {id : DashboardId} {today : Nat}

/-! ## Reminders -/

section Reminders

/-- A list followed by runs of one element each, told by these elements. -/
theorem dedup_replicate_append {α : Type} [DecidableEq α] {first : α} {rest : List α}
    (fresh : first ∉ rest.dedup) {count : Nat} (filled : count ≠ 0) :
    (List.replicate count first ++ rest).dedup = first :: rest.dedup := by
  rw [List.dedup_append]
  induction count with
  | zero => exact absurd rfl filled
  | succ count ih =>
      rw [List.replicate_succ, List.cons_union]
      rcases Nat.eq_zero_or_pos count with rfl | more
      · rw [List.replicate_zero, List.nil_union, List.insert_of_not_mem fresh]
      · rw [ih (Nat.pos_iff_ne_zero.mp more), List.insert_of_mem List.mem_cons_self]

/-- Elements that come from nonempty chunks, each under the key of its chunk, tell the keys. -/
theorem dedup_flatMap_keys {α β κ : Type} [DecidableEq κ] {chunk : α → List β} {keyOf : β → κ}
    {key : α → κ} {rows : List α} (unique : (rows.map key).Nodup)
    (filled : ∀ row ∈ rows, chunk row ≠ [])
    (keyed : ∀ row ∈ rows, ∀ element ∈ chunk row, keyOf element = key row) :
    ((rows.flatMap chunk).map keyOf).dedup = rows.map key := by
  induction rows with
  | nil => rfl
  | cons row rest ih =>
      have later := ih (List.nodup_cons.mp unique).2
        (fun other member => filled other (List.mem_cons_of_mem row member))
        fun other member => keyed other (List.mem_cons_of_mem row member)
      have here : (chunk row).map keyOf = List.replicate (chunk row).length (key row) :=
        List.map_eq_replicate_iff.mpr (keyed row List.mem_cons_self)
      rw [List.flatMap_cons, List.map_append, here, dedup_replicate_append, later, List.map_cons]
      · rw [later]
        exact (List.nodup_cons.mp unique).1
      · exact fun none => filled row List.mem_cons_self (List.length_eq_zero_iff.mp none)

/-- Empty chunks do not count. -/
theorem flatMap_filter_nonempty {α β : Type} (chunk : α → List β) (rows : List α) :
    (rows.filter fun row => ¬ (chunk row).isEmpty).flatMap chunk = rows.flatMap chunk := by
  induction rows with
  | nil => rfl
  | cons row rest ih =>
      cases empty : chunk row with
      | nil => simp [empty, ← ih]
      | cons element others => simp [empty, ← ih]

theorem due_eq (row : ListRow) : tables.due today row =
    (shown (arranged Row.Before (tables.lists.items row.id))).filterMap fun item =>
      Reminder.ofItem item row.id row.name today := by
  simp [Tables.due, fetchAgendaReminders, Tables.detail, ListRow.response]

theorem listId_of_mem_due {row : ListRow} {reminder : Reminder}
    (member : reminder ∈ tables.due today row) : reminder.listId = row.id := by
  rw [due_eq] at member
  obtain ⟨item, -, derived⟩ := List.mem_filterMap.mp member
  exact (Lists.Page.Reminder.ofItem_eq_some derived).2

/-- The reminders of a dashboard are those of its lists. -/
theorem reminders_eq : fetchAgendaReminders today ((tables.orderedLists id).map tables.detail) =
    (tables.orderedLists id).flatMap (tables.due today) := by
  rw [fetchAgendaReminders, List.flatMap_map]
  refine List.flatMap_congr fun row _ => ?_
  rw [due_eq]
  rfl

/-- The lists that are in the reminders. -/
theorem remindedLists_eq (constrained : tables.Constrained) :
    (((tables.orderedLists id).flatMap (tables.due today)).map Reminder.listId).dedup =
      tables.remindedLists today id := by
  rw [← flatMap_filter_nonempty, Tables.remindedLists]
  refine dedup_flatMap_keys ?_ (fun row member => ?_) fun row _ reminder => listId_of_mem_due
  · have sorted : (tables.orderedLists id).Perm (tables.lists.live id) :=
      List.perm_insertionSort _ _
    have unique := (sorted.map ListRow.id).nodup_iff.mpr (constrained.lists.live_unique id)
    exact unique.sublist (List.filter_sublist.map _)
  · have filled := (List.mem_filter.mp member).2
    intro none
    simp [none] at filled

theorem toOption_reminders (constrained : tables.Constrained) :
    ((tables.listListDetails user id).map (fetchAgendaReminders today)).toOption =
      if tables.Sees user id then some ((tables.orderedLists id).flatMap (tables.due today))
      else none := by
  by_cases seen : tables.Sees user id
  · obtain ⟨row, listed, accessible, rfl⟩ := sees_iff.mp seen
    obtain ⟨role, -, loaded⟩ := constrained.loadDashboardAccess_row listed accessible
    rw [if_pos seen, ← reminders_eq, Tables.listListDetails, loaded]
    rfl
  · obtain ⟨error, refused⟩ := loadDashboardAccess_of_not_sees seen
    rw [if_neg seen, Tables.listListDetails, refused]
    rfl

/-- Lists that are kept and have the reminders as before, in the same order, have them alike. -/
theorem due_eq_of_remindedLists (constrained : before.Constrained)
    (kept : ListsKept (after.listAccessibleDashboardIds user) before.lists after.lists)
    (seen : after.Sees user id)
    (same : before.remindedLists today id = after.remindedLists today id) :
    (before.orderedLists id).flatMap (before.due today) =
      (after.orderedLists id).flatMap (after.due today) := by
  -- What is due of a list of an id, before.
  let dueOf := fun list : ListId =>
    (((before.lists.live id).find? fun row => row.id = list).map (before.due today)).getD []
  have dueOf_row : ∀ row ∈ before.lists.live id, dueOf row.id = before.due today row := by
    intro row live
    have found : (before.lists.live id).find? (fun other => other.id = row.id) = some row :=
      (KeyedRows.find?_eq_some_iff (constrained.lists.live_unique id) fun _ named =>
        of_decide_eq_true named).mpr ⟨live, decide_eq_true rfl⟩
    simp only [dueOf, found, Option.map_some, Option.getD_some]
  have dueOf_moved : ∀ row ∈ after.lists.live id, after.due today row ≠ [] →
      dueOf row.id = after.due today row := by
    intro row live filled
    obtain ⟨place, fresh, standing, empty⟩ := kept.live id seen
    rw [standing] at live
    rcases List.mem_append.mp live with old | new
    · obtain ⟨origin, live', rfl⟩ := List.mem_map.mp old
      refine (dueOf_row origin live').trans ?_
      rw [due_eq, due_eq]
      have items : after.lists.items (moved place origin).id = before.lists.items origin.id :=
        kept.items id seen origin live'
      rw [items]
      rfl
    · refine absurd ?_ filled
      rw [due_eq, empty row new]
      rfl
  have told : ∀ {tables : Tables}, (∀ row ∈ tables.orderedLists id,
        tables.due today row ≠ [] → dueOf row.id = tables.due today row) →
      (tables.orderedLists id).flatMap (tables.due today) =
        (tables.remindedLists today id).flatMap dueOf := by
    intro tables agree
    rw [← flatMap_filter_nonempty, Tables.remindedLists, List.flatMap_map]
    refine List.flatMap_congr fun row member => ?_
    obtain ⟨listed, filled⟩ := List.mem_filter.mp member
    exact (agree row listed fun none => by simp [none] at filled).symm
  rw [told fun row listed _ => dueOf_row row (mem_arranged.mp listed),
    told fun row listed filled => dueOf_moved row (mem_arranged.mp listed) filled, same]

/-- **The reminders** come as before while the dashboard is seen, if the lists that have some
stand in the same order. -/
theorem fetch_reminders_iff (context : Context) (constrained : before.Constrained)
    (constrained' : after.Constrained)
    (kept : ListsKept (after.listAccessibleDashboardIds user) before.lists after.lists) :
    Resource.fetch context user before (.reminders id) =
        Resource.fetch context user after (.reminders id) ↔
      Settled context user before after (.reminders id) := by
  have mapped : ∀ tables : Tables, Resource.fetch context user tables (.reminders id) =
      .of .reminders ((tables.listListDetails user id).map
        (fetchAgendaReminders context.today)) := by
    intro tables
    rw [Resource.fetch]
    cases tables.listListDetails user id <;> rfl
  rw [mapped, mapped, contentOf_eq_iff (fun _ _ => Content.reminders.inj) (by simp),
    toOption_reminders constrained, toOption_reminders constrained', Settled]
  by_cases seen : before.Sees user id
  · by_cases seen' : after.Sees user id
    · rw [if_pos seen, if_pos seen', Option.some_inj]
      constructor
      · intro same
        refine ⟨iff_of_true seen seen', fun _ => ?_⟩
        rw [← remindedLists_eq constrained, ← remindedLists_eq constrained', same]
      · rintro ⟨-, same⟩
        exact due_eq_of_remindedLists constrained kept seen' (same seen')
    · simp [seen, seen']
  · by_cases seen' : after.Sees user id
    · simp [seen, seen']
    · simp [seen, seen']

end Reminders

/-! ## The calendar -/

section Calendar

open Calendar (CalendarEvent CalendarEventOverride EventId TimezoneName Zone
  expandAll listOccurrences listRows listWindow listWindow_eq_listRows)

variable {ids : List DashboardId}

/-- The loop over the events asks for their edits alone. -/
theorem expandAll_congr (zoneInfo : TimezoneName → Zone)
    {edits others : CalendarEvent → List CalendarEventOverride} {windowStart windowEnd : Int}
    {events : List CalendarEvent} (same : ∀ event ∈ events, edits event = others event)
    (remaining collected : Nat) :
    expandAll zoneInfo edits windowStart windowEnd events remaining collected =
      expandAll zoneInfo others windowStart windowEnd events remaining collected := by
  induction events generalizing remaining collected with
  | nil => rfl
  | cons event rest ih =>
      have later := ih fun other member => same other (List.mem_cons_of_mem event member)
      unfold expandAll
      rw [same event List.mem_cons_self]
      split
      next => rfl
      next expanded left _ =>
        dsimp only
        rw [later]

/-- A calendar that is kept is listed alike, of the dashboards it is kept of. -/
theorem CalendarKept.listWindow_eq (context : Context)
    (kept : CalendarKept ids before.calendar after.calendar) {asked : List DashboardId}
    (among : ∀ id ∈ asked, id ∈ ids) (windowStart windowEnd : Int) :
    listWindow context.zoneInfo context.lower before.calendar asked windowStart windowEnd =
      listWindow context.zoneInfo context.lower after.calendar asked windowStart windowEnd := by
  have edits : ∀ event ∈ before.calendar.events, event.dashboardId ∈ ids →
      before.calendar.editsInWindow event windowStart windowEnd =
        after.calendar.editsInWindow event windowStart windowEnd := by
    intro event listed member
    rw [Calendar.Tables.editsInWindow, Calendar.Tables.editsInWindow,
      kept.overrides event listed member]
  have narrowed : ∀ tables : Calendar.Tables,
      tables.events.filter (fun event =>
          decide (tables.selected asked windowStart windowEnd event)) =
        (tables.events.filter fun event => event.dashboardId ∈ ids).filter fun event =>
          decide (tables.selected asked windowStart windowEnd event) := by
    intro tables
    rw [List.filter_filter]
    refine List.filter_congr fun event _ => ?_
    by_cases selected : tables.selected asked windowStart windowEnd event
    · simp [selected, among _ selected.1.2]
    · simp [selected]
  have rows : before.calendar.events.filter (fun event =>
        decide (before.calendar.selected asked windowStart windowEnd event)) =
      after.calendar.events.filter fun event =>
        decide (after.calendar.selected asked windowStart windowEnd event) := by
    rw [narrowed, narrowed, kept.events]
    refine List.filter_congr fun event member => ?_
    have here : event.dashboardId ∈ ids := of_decide_eq_true (List.mem_filter.mp member).2
    rw [decide_eq_decide]
    simp only [Calendar.Tables.selected, edits event (List.mem_filter.mp member).1 here]
  have agree : ∀ event ∈ after.calendar.events.filter (fun event =>
        decide (after.calendar.selected asked windowStart windowEnd event)),
      before.calendar.editsInWindow event windowStart windowEnd =
        after.calendar.editsInWindow event windowStart windowEnd := by
    rw [← rows]
    intro event member
    obtain ⟨listed, selected⟩ := List.mem_filter.mp member
    exact edits event listed (among _ (of_decide_eq_true selected).1.2)
  rw [listWindow_eq_listRows, listWindow_eq_listRows, rows, listRows, listRows,
    List.flatMap_congr agree, expandAll_congr context.zoneInfo agree]

/-- A calendar that is kept is answered alike. -/
theorem CalendarKept.listOccurrences_eq (context : Context)
    (kept : CalendarKept ids before.calendar after.calendar) (named : Option DashboardId)
    (windowStart windowEnd : Int) :
    listOccurrences context.zoneInfo context.lower before.calendar ids named windowStart windowEnd =
      listOccurrences context.zoneInfo context.lower after.calendar ids named windowStart
        windowEnd := by
  rw [listOccurrences, listOccurrences]
  split_ifs with _ _ _ unseen
  · rfl
  · rfl
  · rfl
  · rfl
  · have among : ∀ id ∈ named.elim ids fun id => [id], id ∈ ids := by
      cases named with
      | none => exact fun id member => member
      | some asked =>
          intro id member
          rw [List.mem_singleton.mp member]
          by_contra beside
          exact unseen ⟨asked, rfl, beside⟩
    dsimp only
    rw [kept.listWindow_eq context among]

/-- **A window of calendars** comes as before if the dashboards that are seen show it so. -/
theorem fetch_occurrences_iff (context : Context) {named : Option DashboardId}
    {windowStart windowEnd : Int}
    (kept : CalendarKept (after.listAccessibleDashboardIds user) before.calendar after.calendar) :
    Resource.fetch context user before (.occurrences named windowStart windowEnd) =
        Resource.fetch context user after (.occurrences named windowStart windowEnd) ↔
      Settled context user before after (.occurrences named windowStart windowEnd) := by
  rw [Resource.fetch, Resource.fetch,
    contentOf_eq_iff (fun _ _ => Content.occurrences.inj) (by simp), Settled]
  dsimp only
  rw [kept.listOccurrences_eq context]

/-- An event is read when its dashboard is seen. -/
theorem Tables.Constrained.reads_iff (constrained : tables.Constrained) {id : EventId} :
    tables.Reads user id ↔ (tables.getEvent user id).toOption.isSome := by
  rw [Tables.Reads, Tables.getEvent]
  cases tables.calendar.liveEvent id with
  | none => simp [Except.toOption]
  | some event =>
      dsimp only
      by_cases seen : tables.Sees user event.dashboardId
      · obtain ⟨row, listed, accessible, named⟩ := sees_iff.mp seen
        obtain ⟨role, -, loaded⟩ := constrained.loadDashboardAccess_row listed accessible
        rw [← named, loaded]
        exact iff_of_true ⟨event, rfl, seen⟩ rfl
      · obtain ⟨error, refused⟩ := loadDashboardAccess_of_not_sees seen
        rw [refused]
        refine iff_of_false ?_ Bool.false_ne_true
        rintro ⟨other, same, seen'⟩
        cases same
        exact seen seen'

theorem Tables.of_getEvent {id : EventId} {answer : CalendarEvent}
    (ran : tables.getEvent user id = .ok answer) :
    answer ∈ tables.calendar.events ∧ answer.id = id ∧ tables.Sees user answer.dashboardId := by
  rw [Tables.getEvent] at ran
  split at ran
  next => cases ran
  next event live =>
    obtain ⟨access, loaded, result⟩ := Outcomes.bind_eq_ok.mp ran
    cases result
    obtain ⟨listed, named⟩ := Calendar.liveEvent_eq_some live
    refine ⟨listed, named, ?_⟩
    by_contra unseen
    obtain ⟨error, refused⟩ := loadDashboardAccess_of_not_sees unseen
    rw [refused] at loaded
    cases loaded

/-- **An event** comes as before while it is read. -/
theorem fetch_event_iff (context : Context) (constrained : before.Constrained)
    (constrained' : after.Constrained) {id : EventId}
    (kept : CalendarKept (after.listAccessibleDashboardIds user) before.calendar after.calendar) :
    Resource.fetch context user before (.event id) =
        Resource.fetch context user after (.event id) ↔
      Settled context user before after (.event id) := by
  rw [Resource.fetch, Resource.fetch, contentOf_eq_iff (fun _ _ => Content.event.inj) (by simp),
    Settled, constrained.reads_iff, constrained'.reads_iff]
  constructor
  · intro same
    rw [same]
  · intro settled
    cases answered : before.getEvent user id with
    | error error =>
        rw [answered] at settled
        rw [Option.not_isSome_iff_eq_none.mp (settled.not.mp Bool.false_ne_true)]
        rfl
    | ok event =>
        rw [answered] at settled
        obtain ⟨other, answered'⟩ := Option.isSome_iff_exists.mp (settled.mp rfl)
        obtain ⟨listed, named, -⟩ := Tables.of_getEvent answered
        obtain ⟨listed', named', seen⟩ :=
          Tables.of_getEvent (Outcomes.toOption_eq_some.mp answered')
        rw [answered', event_eq constrained listed ((kept.mem_events seen).mp listed')
          (named.trans named'.symm)]
        rfl

end Calendar

end FrontDashboard.Resync
