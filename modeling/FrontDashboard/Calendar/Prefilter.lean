import FrontDashboard.Calendar.Listing
import FrontDashboard.Calendar.Slots
import FrontDashboard.Library.KeyedRows

/-! # The queries of the listing lose nothing

What is listed of an event is what it expands to with all of its overrides: an override
that neither query's predicate selects shows nothing in the window and hides nothing, and
an event that is not selected has nothing in the window.
-/

namespace FrontDashboard.Calendar

open Outcomes

/-! ## What is shown of a start -/

/-- The occurrence of a start, when it is built and overlaps the window. -/
def shownAt (event : CalendarEvent) (override : Option CalendarEventOverride)
    (windowStart windowEnd start : Int) : Option ExpandedOccurrence :=
  inWindow windowStart windowEnd
    ((buildOccurrence event override start event.duration).toOption.getD none)

section Build

variable {event : CalendarEvent} {overrides : List CalendarEventOverride}
  {windowStart windowEnd : Int}

/-- What is shown at a start is what was built for it, where that lies in the window. -/
theorem shownAt_of_built {override : Option CalendarEventOverride} {start : Int}
    {built : Option ExpandedOccurrence}
    (ok : buildOccurrence event override start event.duration = .ok built) :
    shownAt event override windowStart windowEnd start = inWindow windowStart windowEnd built := by
  unfold shownAt
  rw [ok]
  rfl

/-- All are built when the first is and the rest are. -/
theorem buildAll_cons {start : Int} {rest : List Int} {result : List ExpandedOccurrence} :
    buildAll event overrides windowStart windowEnd (start :: rest) = .ok result ↔
      (∃ built, buildOccurrence event (overrideAt overrides start) start event.duration =
        .ok built) ∧
      ∃ others, buildAll event overrides windowStart windowEnd rest = .ok others ∧
        result = (shownAt event (overrideAt overrides start) windowStart windowEnd
          start).toList ++ others := by
  constructor
  · intro all
    obtain ⟨built, ok, remaining⟩ := bind_eq_ok.mp all
    obtain ⟨others, continued, combined⟩ := bind_eq_ok.mp remaining
    cases combined
    refine ⟨⟨built, ok⟩, others, continued, ?_⟩
    rw [shownAt_of_built ok]
  · rintro ⟨⟨built, ok⟩, others, continued, same⟩
    refine bind_eq_ok.mpr ⟨built, ok, bind_eq_ok.mpr ⟨others, continued, ?_⟩⟩
    rw [same, shownAt_of_built ok]

/-- All are built when each is. -/
theorem buildAll_eq_ok {starts : List Int} {result : List ExpandedOccurrence} :
    buildAll event overrides windowStart windowEnd starts = .ok result ↔
      (∀ start ∈ starts, ∃ built,
        buildOccurrence event (overrideAt overrides start) start event.duration = .ok built) ∧
      result = starts.filterMap fun start =>
        shownAt event (overrideAt overrides start) windowStart windowEnd start := by
  induction starts generalizing result with
  | nil =>
      constructor
      · intro built
        cases built
        exact ⟨fun start member => (nomatch member), rfl⟩
      · rintro ⟨_, same⟩
        rw [same]
        rfl
  | cons start rest ih =>
      rw [buildAll_cons, List.forall_mem_cons]
      constructor
      · rintro ⟨first, others, continued, same⟩
        obtain ⟨all, shown⟩ := ih.mp continued
        refine ⟨⟨first, all⟩, ?_⟩
        rw [same, shown, List.filterMap_cons]
        split
        next none => rw [none]; rfl
        next some => rw [some]; rfl
      · rintro ⟨⟨first, all⟩, same⟩
        refine ⟨first, _, ih.mpr ⟨all, rfl⟩, ?_⟩
        rw [same, List.filterMap_cons]
        split
        next none => rw [none]; rfl
        next some => rw [some]; rfl

/-- What a built occurrence has from its event, its start and its override. -/
theorem buildOccurrence_some {override : Option CalendarEventOverride} {start duration : Int}
    {occurrence : ExpandedOccurrence}
    (built : buildOccurrence event override start duration = .ok (some occurrence)) :
    occurrence.eventId = event.id ∧ occurrence.originalStart = start ∧
      override.any (·.cancelled) = false ∧
      occurrence.occurrenceStart = (override.bind (·.startsAt)).getD start ∧
      occurrence.occurrenceEnd = (override.bind (·.endsAt)).getD
        ((override.bind (·.startsAt)).getD start + duration) := by
  unfold buildOccurrence at built
  split at built
  next => cases built
  next kept =>
    obtain ⟨finish, ended, whole⟩ := bind_eq_ok.mp built
    cases whole
    refine ⟨rfl, rfl, Bool.eq_false_iff.mpr kept, rfl, ?_⟩
    cases given : override.bind (·.endsAt) with
    | some endsAt =>
        rw [given] at ended
        cases ended
        rfl
    | none =>
        rw [given] at ended
        exact (checked_eq_ok.mp ended).1

/-- Only what overlaps the window is shown. -/
theorem shownAt_some {override : Option CalendarEventOverride} {start : Int}
    {occurrence : ExpandedOccurrence}
    (shown : shownAt event override windowStart windowEnd start = some occurrence) :
    buildOccurrence event override start event.duration = .ok (some occurrence) ∧
      overlaps occurrence.occurrenceStart occurrence.occurrenceEnd windowStart windowEnd := by
  unfold shownAt at shown
  cases built : buildOccurrence event override start event.duration with
  | error error =>
      rw [built] at shown
      cases shown
  | ok whole =>
      rw [built] at shown
      obtain ⟨same, inside⟩ := Option.filter_eq_some_iff.mp shown
      change whole = some occurrence at same
      rw [same]
      exact ⟨rfl, of_decide_eq_true inside⟩

/-- An unedited start whose own time is outside the window shows nothing. -/
theorem shownAt_none_of_outside {start : Int}
    (outside : ¬ overlaps start (start + event.duration) windowStart windowEnd) :
    shownAt event none windowStart windowEnd start = none := by
  cases shown : shownAt event none windowStart windowEnd start with
  | none => rfl
  | some occurrence =>
      obtain ⟨built, inside⟩ := shownAt_some shown
      obtain ⟨_, _, _, starts, ends⟩ := buildOccurrence_some built
      rw [starts, ends] at inside
      exact absurd inside outside

/-- An edited start whose edited time is outside the window shows nothing. -/
theorem shownAt_some_of_outside {override : CalendarEventOverride}
    (outside : ¬ overlaps override.editStart (override.editEnd event.duration) windowStart
      windowEnd) :
    shownAt event (some override) windowStart windowEnd override.occurrenceStart = none := by
  cases shown : shownAt event (some override) windowStart windowEnd override.occurrenceStart with
  | none => rfl
  | some occurrence =>
      obtain ⟨built, inside⟩ := shownAt_some shown
      obtain ⟨_, _, _, starts, ends⟩ := buildOccurrence_some built
      rw [starts, ends] at inside
      exact absurd inside outside

end Build

/-! ## Selecting overrides -/

section Select

variable {overrides : List CalendarEventOverride}

/-- The override of a start is one of the overrides. -/
theorem overrideAt_eq_some {start : Int} {override : CalendarEventOverride}
    (found : overrideAt overrides start = some override) :
    override ∈ overrides ∧ override.occurrenceStart = start := by
  unfold overrideAt at found
  have same := List.find?_some found
  exact ⟨List.mem_of_find?_eq_some found, eq_of_beq same⟩

/-- Each override is that of its own start. -/
theorem overrideAt_of_mem (unique : (overrides.map (·.occurrenceStart)).Nodup)
    {override : CalendarEventOverride} (member : override ∈ overrides) :
    overrideAt overrides override.occurrenceStart = some override := by
  cases found : overrideAt overrides override.occurrenceStart with
  | none =>
      have absent := List.find?_eq_none.mp found override member
      exact absurd (beq_self_eq_true _) absent
  | some other =>
      obtain ⟨present, same⟩ := overrideAt_eq_some found
      rw [List.inj_on_of_nodup_map unique present member same]

/-- The override of a start among those selected. -/
theorem overrideAt_filter (unique : (overrides.map (·.occurrenceStart)).Nodup)
    (selects : CalendarEventOverride → Bool) (start : Int) :
    overrideAt (overrides.filter selects) start = (overrideAt overrides start).filter selects := by
  have uniqueStill : ((overrides.filter selects).map (·.occurrenceStart)).Nodup :=
    unique.sublist (List.filter_sublist.map _)
  cases found : overrideAt (overrides.filter selects) start with
  | some override =>
      obtain ⟨present, same⟩ := overrideAt_eq_some found
      obtain ⟨member, selected⟩ := List.mem_filter.mp present
      have original := overrideAt_of_mem unique member
      rw [same] at original
      rw [original]
      exact (Option.filter_eq_some_iff.mpr ⟨rfl, selected⟩).symm
  | none =>
      cases original : overrideAt overrides start with
      | none => rfl
      | some override =>
          obtain ⟨member, same⟩ := overrideAt_eq_some original
          by_cases selected : selects override = true
          · have present := overrideAt_of_mem uniqueStill (List.mem_filter.mpr ⟨member, selected⟩)
            rw [same, found] at present
            cases present
          · exact (Option.filter_eq_none_iff.mpr fun _ found => by cases found; exact selected).symm

/-- The edited starts are the overrides' that were not generated. -/
theorem filterMap_editedStarts {α : Type} (generated : List Int) (shown : Int → Option α) :
    (editedStarts overrides generated).filterMap shown =
      overrides.filterMap fun override =>
        if generated.contains override.occurrenceStart then none
        else shown override.occurrenceStart := by
  unfold editedStarts
  rw [List.filterMap_filter, List.filterMap_map]
  apply List.filterMap_congr
  intro override _
  by_cases known : generated.contains override.occurrenceStart = true
  · simp only [Function.comp_apply, known, Bool.not_true, Bool.false_eq_true, if_false, if_true]
  · simp only [Function.comp_apply, known, Bool.not_false, Bool.false_eq_true, if_false, if_true]

theorem mem_editedStarts {generated : List Int} {start : Int} :
    start ∈ editedStarts overrides generated ↔
      (∃ override ∈ overrides, override.occurrenceStart = start) ∧ start ∉ generated := by
  simp [editedStarts]

variable {event : CalendarEvent} {windowStart windowEnd : Int}

/-- An expansion succeeds within its budget, and then shows what each start shows. -/
theorem expandStarts_eq_ok {starts : List Int} {result : List ExpandedOccurrence} :
    expandStarts event overrides windowStart windowEnd starts = .ok result ↔
      (starts.length ≤ maxEventOccurrences ∧ overrides.length ≤ maxEventOccurrences) ∧
      buildAll event overrides windowStart windowEnd (starts ++ editedStarts overrides starts) =
        .ok result := by
  unfold expandStarts
  split
  next exceeds =>
    constructor
    · intro failed
      cases failed
    · rintro ⟨⟨few, fewEdits⟩, _⟩
      rcases exceeds with exceeds | exceeds
      · exact absurd few (Nat.not_le.mpr exceeds)
      · exact absurd fewEdits (Nat.not_le.mpr exceeds)
  next within =>
    exact ⟨fun built => ⟨⟨Nat.not_lt.mp fun exceeds => within (.inl exceeds),
      Nat.not_lt.mp fun exceeds => within (.inr exceeds)⟩, built⟩, fun both => both.2⟩

/-- What is shown of a start does not depend on an override that is not selected. -/
theorem shownAt_selected (start : Int) (unique : (overrides.map (·.occurrenceStart)).Nodup) :
    shownAt event (overrideAt (overrides.filter fun override =>
        decide (editInWindow event override windowStart windowEnd)) start)
        windowStart windowEnd start =
      shownAt event (overrideAt overrides start) windowStart windowEnd start := by
  rw [overrideAt_filter unique]
  cases found : overrideAt overrides start with
  | none => rfl
  | some override =>
      obtain ⟨_, same⟩ := overrideAt_eq_some found
      by_cases selected : editInWindow event override windowStart windowEnd
      · rw [Option.filter_some, if_pos (decide_eq_true selected)]
      · have unedited : ¬ overlaps start (start + event.duration) windowStart windowEnd := by
          rw [← same]
          exact fun inside => selected (.inl inside)
        have edited : shownAt event (some override) windowStart windowEnd start = none := by
          rw [← same]
          exact shownAt_some_of_outside fun inside => selected (.inr inside)
        rw [Option.filter_some, if_neg (by simpa using selected), edited]
        exact shownAt_none_of_outside unedited

/-- **The override filter loses nothing**: an event expands with the overrides selected to
what it expands to with all of them. -/
theorem expandStarts_selected {starts : List Int} {full : List ExpandedOccurrence}
    (unique : (overrides.map (·.occurrenceStart)).Nodup)
    (fits : ∀ start ∈ starts, ∀ override, overrideAt overrides start = some override →
      ¬ editInWindow event override windowStart windowEnd →
        ∃ finish, checked (start + event.duration) = .ok finish)
    (whole : expandStarts event overrides windowStart windowEnd starts = .ok full) :
    expandStarts event (overrides.filter fun override =>
      decide (editInWindow event override windowStart windowEnd)) windowStart windowEnd starts =
        .ok full := by
  obtain ⟨⟨few, fewEdits⟩, all⟩ := expandStarts_eq_ok.mp whole
  obtain ⟨builds, shown⟩ := buildAll_eq_ok.mp all
  refine expandStarts_eq_ok.mpr ⟨⟨few, (List.length_filter_le _ _).trans fewEdits⟩, ?_⟩
  refine buildAll_eq_ok.mpr ⟨?_, ?_⟩
  · intro start member
    rw [overrideAt_filter unique]
    rcases List.mem_append.mp member with generated | edited
    · cases found : overrideAt overrides start with
      | none =>
          have built := builds start (List.mem_append_left _ generated)
          rwa [found] at built
      | some override =>
          by_cases selected : editInWindow event override windowStart windowEnd
          · rw [Option.filter_some, if_pos (decide_eq_true selected), ← found]
            exact builds start (List.mem_append_left _ generated)
          · rw [Option.filter_some, if_neg (by simpa using selected)]
            obtain ⟨finish, ends⟩ := fits start generated override found selected
            exact ⟨_, bind_eq_ok.mpr ⟨finish, ends, rfl⟩⟩
    · obtain ⟨⟨override, present, same⟩, fresh⟩ := mem_editedStarts.mp edited
      obtain ⟨listed, selected⟩ := List.mem_filter.mp present
      have found := overrideAt_of_mem unique listed
      rw [same] at found
      have built := builds start (List.mem_append_right _
        (mem_editedStarts.mpr ⟨⟨override, listed, same⟩, fresh⟩))
      rw [found] at built ⊢
      rwa [Option.filter_some, if_pos selected]
  · simp only [shownAt_selected _ unique]
    rw [shown, List.filterMap_append, List.filterMap_append, filterMap_editedStarts,
      filterMap_editedStarts, List.filterMap_filter]
    congr 1
    apply List.filterMap_congr
    intro override listed
    by_cases selected : editInWindow event override windowStart windowEnd
    · rw [if_pos (decide_eq_true selected)]
    · have unselected : ¬ decide (editInWindow event override windowStart windowEnd) = true :=
        fun selects => selected (of_decide_eq_true selects)
      rw [if_neg unselected]
      have edited : shownAt event (some override) windowStart windowEnd
          override.occurrenceStart = none :=
        shownAt_some_of_outside fun inside => selected (.inr inside)
      rw [overrideAt_of_mem unique listed, edited, ite_self]

end Select

/-! ## One event -/

section Event

variable (zoneInfo : TimezoneName → Zone) {tables : Tables} {event : CalendarEvent}
  {windowStart windowEnd : Int}

/-- An event has one override a start. -/
theorem overridesOf_unique (constrained : tables.Constrained) (eventId : EventId) :
    ((tables.overridesOf eventId).map (·.occurrenceStart)).Nodup := by
  apply List.Nodup.map_on
  · intro first inFirst second inSecond same
    obtain ⟨listedFirst, ofFirst⟩ := List.mem_filter.mp inFirst
    obtain ⟨listedSecond, ofSecond⟩ := List.mem_filter.mp inSecond
    apply List.inj_on_of_nodup_map constrained.overrides_unique listedFirst listedSecond
    rw [eq_of_beq ofFirst, eq_of_beq ofSecond, same]
  · exact (List.Nodup.of_map _ constrained.overrides_unique).filter _

/-- The starts of a recurring event are slots of its series before the window's end. -/
theorem generatedStarts_slots {rule : RecurrenceRule} {walkLimit : Nat} {starts : List Int}
    (recurs : event.recurrence = some rule)
    (generated : generatedStarts zoneInfo event windowStart windowEnd walkLimit = .ok starts) :
    ∃ series, seriesOf (zoneInfo event.timezone) event rule = .ok series ∧
      ∀ start ∈ starts, series.IsSlot start ∧ start < windowEnd := by
  unfold generatedStarts at generated
  rw [recurs] at generated
  exact iterRecurrenceStarts_isSlot generated

/-- A single event generates its own start. -/
theorem generatedStarts_oneOff {walkLimit : Nat} {starts : List Int}
    (single : event.recurrence = none)
    (generated : generatedStarts zoneInfo event windowStart windowEnd walkLimit = .ok starts) :
    starts = [event.startsAt] := by
  unfold generatedStarts at generated
  rw [single] at generated
  cases generated
  rfl

/-- An event ends its duration after it starts. -/
theorem startsAt_add_duration (event : CalendarEvent) :
    event.startsAt + event.duration = event.endsAt := by
  unfold CalendarEvent.duration
  omega

/-- A start that the window does not overlap has an end that is a `datetime`. -/
theorem checked_end (constrained : tables.Constrained) (member : event ∈ tables.events)
    {valid : Int} (begins : checked windowStart = .ok valid) {walkLimit : Nat} {starts : List Int}
    (generated : generatedStarts zoneInfo event windowStart windowEnd walkLimit = .ok starts)
    {start : Int} (started : start ∈ starts)
    (outside : ¬ overlaps start (start + event.duration) windowStart windowEnd) :
    ∃ finish, checked (start + event.duration) = .ok finish := by
  cases recurs : event.recurrence with
  | none =>
      rw [generatedStarts_oneOff zoneInfo recurs generated, List.mem_singleton] at started
      rw [started, startsAt_add_duration]
      exact ⟨_, constrained.ends event member⟩
  | some rule =>
      obtain ⟨series, _, slots⟩ := generatedStarts_slots zoneInfo recurs generated
      obtain ⟨slot, early⟩ := slots start started
      have range := constrained.time_range event member
      have representable := (checked_eq_ok.mp slot.checked).2
      have window := (checked_eq_ok.mp begins).2
      have ended : start + event.duration ≤ windowStart :=
        Int.not_lt.mp fun later => outside ⟨early, later⟩
      refine ⟨_, checked_eq_ok.mpr ⟨rfl, ?_⟩⟩
      unfold CalendarEvent.duration at ended ⊢
      exact ⟨by omega, by omega⟩

/-- An event that is not selected starts nothing in the window. -/
theorem outside_of_unselected {dashboardIds : List DashboardId}
    (listed : listedOn dashboardIds event)
    (unselected : ¬ tables.selected dashboardIds windowStart windowEnd event) {walkLimit : Nat}
    {starts : List Int}
    (generated : generatedStarts zoneInfo event windowStart windowEnd walkLimit = .ok starts) :
    ∀ start ∈ starts, ¬ overlaps start (start + event.duration) windowStart windowEnd := by
  intro start started
  rintro ⟨early, late⟩
  cases recurs : event.recurrence with
  | none =>
      rw [generatedStarts_oneOff zoneInfo recurs generated, List.mem_singleton] at started
      rw [started] at early late
      rw [startsAt_add_duration] at late
      exact unselected ⟨listed, .inr (.inl ⟨early, late⟩)⟩
  | some rule =>
      obtain ⟨series, found, slots⟩ := generatedStarts_slots zoneInfo recurs generated
      obtain ⟨afterStart, beforeEnd⟩ := (slots start started).1.bounds
      obtain ⟨startsAt, _, _, sameRule⟩ := seriesOf_ok found
      refine unselected ⟨listed, .inl ⟨rule, recurs, ?_, ?_⟩⟩
      · rw [startsAt] at afterStart
        omega
      · cases ends : rule.untilAt with
        | none => exact .inl rfl
        | some untilAt =>
            refine .inr ⟨untilAt, rfl, ?_⟩
            have within : ¬ untilAt < start := by
              intro after
              refine beforeEnd ⟨untilAt, ?_, after⟩
              rw [sameRule]
              exact ends
            omega

/-- **One event.** With the overrides selected it expands to what it expands to with all of
them; when it is not selected that is nothing. -/
theorem expandEventOccurrences_selected (constrained : tables.Constrained)
    (member : event ∈ tables.events) {valid : Int} (begins : checked windowStart = .ok valid)
    {full : List ExpandedOccurrence}
    (whole : expandEventOccurrences zoneInfo event (tables.overridesOf event.id) windowStart
      windowEnd = .ok full) :
    expandEventOccurrences zoneInfo event (tables.editsInWindow event windowStart windowEnd)
      windowStart windowEnd = .ok full := by
  obtain ⟨starts, generated, expanded⟩ := bind_eq_ok.mp whole
  refine bind_eq_ok.mpr ⟨starts, generated, ?_⟩
  apply expandStarts_selected (overridesOf_unique constrained event.id) _ expanded
  intro start started override found unselected
  obtain ⟨_, same⟩ := overrideAt_eq_some found
  apply checked_end zoneInfo constrained member begins generated started
  rw [← same]
  exact fun inside => unselected (.inl inside)

/-- An event the query leaves out would show nothing. -/
theorem expandEventOccurrences_unselected (constrained : tables.Constrained)
    (member : event ∈ tables.events) {valid : Int} (begins : checked windowStart = .ok valid)
    {dashboardIds : List DashboardId} (listed : listedOn dashboardIds event)
    (unselected : ¬ tables.selected dashboardIds windowStart windowEnd event)
    {full : List ExpandedOccurrence}
    (whole : expandEventOccurrences zoneInfo event (tables.overridesOf event.id) windowStart
      windowEnd = .ok full) : full = [] := by
  have selected := expandEventOccurrences_selected zoneInfo constrained member begins whole
  have none : tables.editsInWindow event windowStart windowEnd = [] := by
    by_contra some
    exact unselected ⟨listed, .inr (.inr some)⟩
  rw [none] at selected
  obtain ⟨starts, generated, expanded⟩ := bind_eq_ok.mp selected
  obtain ⟨_, built⟩ := expandStarts_eq_ok.mp expanded
  obtain ⟨_, shown⟩ := buildAll_eq_ok.mp built
  rw [shown]
  apply List.filterMap_eq_nil_iff.mpr
  intro start present
  have started : start ∈ starts := by
    rcases List.mem_append.mp present with started | edited
    · exact started
    · obtain ⟨⟨_, impossible, _⟩, _⟩ := mem_editedStarts.mp edited
      cases impossible
  exact shownAt_none_of_outside
    (outside_of_unselected zoneInfo listed unselected generated start started)

/-- Starts that were not cut off are found under a higher limit. -/
theorem generatedStarts_more {walkLimit higher : Nat} (further : walkLimit ≤ higher) :
    (∀ starts, generatedStarts zoneInfo event windowStart windowEnd walkLimit = .ok starts →
      starts.length ≤ walkLimit →
        generatedStarts zoneInfo event windowStart windowEnd higher = .ok starts) ∧
    ∀ error, generatedStarts zoneInfo event windowStart windowEnd walkLimit = .error error →
      generatedStarts zoneInfo event windowStart windowEnd higher = .error error := by
  unfold generatedStarts
  cases event.recurrence with
  | none => exact ⟨fun starts generated _ => generated, fun error generated => generated⟩
  | some rule =>
      obtain ⟨succeeds, fails⟩ := @iterRecurrenceStarts_more (zoneInfo event.timezone) event rule
        windowStart windowEnd _ _ (Nat.succ_le_succ further)
      exact ⟨fun starts generated short => succeeds starts generated (Nat.lt_succ_of_le short),
        fails⟩

/-- A budget that is not exceeded changes nothing. -/
theorem expandWithin_eq_ok {overrides : List CalendarEventOverride} {remaining left : Nat}
    {expanded : Except CalendarExpansionError (List ExpandedOccurrence)}
    (within : expandWithin zoneInfo event overrides windowStart windowEnd remaining =
      .ok (expanded, left)) :
    expandEventOccurrences zoneInfo event overrides windowStart windowEnd = expanded := by
  obtain ⟨succeeds, fails⟩ := @generatedStarts_more zoneInfo event windowStart windowEnd _ _
    (Nat.min_le_left maxEventOccurrences remaining)
  unfold expandWithin at within
  unfold expandEventOccurrences
  cases generated : generatedStarts zoneInfo event windowStart windowEnd
      (min maxEventOccurrences remaining) with
  | error error =>
      rw [generated] at within
      cases within
      rw [fails error generated]
      rfl
  | ok starts =>
      rw [generated] at within
      obtain ⟨rest, spent, same⟩ := bind_eq_ok.mp within
      cases same
      unfold spend at spent
      split at spent
      next few =>
        have found : generatedStarts zoneInfo event windowStart windowEnd maxEventOccurrences =
            .ok starts := by
          by_cases fewer : remaining ≤ maxEventOccurrences
          · apply succeeds starts generated
            rw [Nat.min_eq_right fewer]
            omega
          · rwa [Nat.min_eq_left (by omega)] at generated
        rw [found]
        rfl
      next => cases spent

/-- What is shown of an event names it. -/
theorem eventId_of_expanded {overrides : List CalendarEventOverride}
    {expanded : List ExpandedOccurrence}
    (ok : expandEventOccurrences zoneInfo event overrides windowStart windowEnd = .ok expanded) :
    ∀ occurrence ∈ expanded, occurrence.eventId = event.id := by
  obtain ⟨starts, _, expands⟩ := bind_eq_ok.mp ok
  obtain ⟨_, shown⟩ := buildAll_eq_ok.mp (expandStarts_eq_ok.mp expands).2
  rw [shown]
  intro occurrence member
  obtain ⟨start, _, found⟩ := List.mem_filterMap.mp member
  exact (buildOccurrence_some (shownAt_some found).1).1

/-- What the listing has of an event. -/
def listedOf (edits : CalendarEvent → List CalendarEventOverride) (windowStart windowEnd : Int)
    (event : CalendarEvent) : List ExpandedOccurrence :=
  (expandEventOccurrences zoneInfo event (edits event) windowStart windowEnd).toOption.getD []

/-- What is listed for an event is its own. -/
theorem eventId_of_listedOf {edits : CalendarEvent → List CalendarEventOverride} :
    ∀ occurrence ∈ listedOf zoneInfo edits windowStart windowEnd event,
      occurrence.eventId = event.id := by
  unfold listedOf
  cases expanded : expandEventOccurrences zoneInfo event (edits event) windowStart windowEnd with
  | error error => exact fun occurrence member => nomatch member
  | ok occurrences => exact eventId_of_expanded zoneInfo expanded

/-- The loop collects what each event expands to. -/
theorem expandAll_eq_ok {edits : CalendarEvent → List CalendarEventOverride}
    {events : List CalendarEvent} {remaining collected : Nat}
    {occurrences : List ExpandedOccurrence}
    (expanded : expandAll zoneInfo edits windowStart windowEnd events remaining collected =
      .ok occurrences) :
    occurrences = events.flatMap (listedOf zoneInfo edits windowStart windowEnd) := by
  induction events generalizing remaining collected occurrences with
  | nil =>
      cases expanded
      rfl
  | cons event rest ih =>
      unfold expandAll at expanded
      split at expanded
      next => cases expanded
      next result left within =>
        dsimp only at expanded
        split at expanded
        next => cases expanded
        next =>
          obtain ⟨others, continued, same⟩ := bind_eq_ok.mp expanded
          cases same
          rw [ih continued, List.flatMap_cons, listedOf, expandWithin_eq_ok zoneInfo within]

end Event

/-- The event of an id, where ids are distinct. -/
theorem find?_of_unique {events : List CalendarEvent} (unique : (events.map (·.id)).Nodup)
    {event : CalendarEvent} (member : event ∈ events) :
    (events.find? fun other => other.id == event.id) = some event := by
  apply (KeyedRows.find?_eq_some_iff unique fun other named => eq_of_beq named).mpr
  exact ⟨member, beq_self_eq_true _⟩

/-- What a list of events with distinct ids lists of one of them. -/
theorem filter_flatMap {events : List CalendarEvent}
    {shown : CalendarEvent → List ExpandedOccurrence}
    (unique : (events.map (·.id)).Nodup)
    (named : ∀ event, ∀ occurrence ∈ shown event, occurrence.eventId = event.id)
    (event : CalendarEvent) :
    (events.flatMap shown).filter (fun occurrence => occurrence.eventId == event.id) =
      (events.find? fun other => other.id == event.id).toList.flatMap shown := by
  induction events with
  | nil => rfl
  | cons first rest ih =>
      obtain ⟨fresh, restUnique⟩ := List.nodup_cons.mp unique
      rw [List.flatMap_cons, List.filter_append, ih restUnique, List.find?_cons]
      by_cases same : first.id = event.id
      · have all : (shown first).filter (fun occurrence => occurrence.eventId == event.id) =
            shown first := by
          apply List.filter_eq_self.mpr
          intro occurrence member
          exact beq_iff_eq.mpr ((named first occurrence member).trans same)
        have none : (rest.find? fun other => other.id == event.id) = none := by
          apply List.find?_eq_none.mpr
          intro other member found
          exact fresh (List.mem_map.mpr ⟨other, member, (eq_of_beq found).trans same.symm⟩)
        rw [all, none, beq_iff_eq.mpr same]
        simp
      · have nothing : (shown first).filter (fun occurrence => occurrence.eventId == event.id) =
            [] := by
          apply List.filter_eq_nil_iff.mpr
          intro occurrence member found
          exact same ((named first occurrence member).symm.trans (eq_of_beq found))
        rw [nothing, beq_eq_false_iff_ne.mpr same]
        rfl

/-! ## The listing -/

/-- The dashboards a listing is about. -/
def scopeOf (accessibleDashboardIds : List DashboardId) (dashboardId : Option DashboardId) :
    List DashboardId :=
  match dashboardId with
  | none => accessibleDashboardIds
  | some named => accessibleDashboardIds.filter (· == named)

section Listing

/-- The events the query selects. -/
theorem mem_selected {tables : Tables} {dashboardIds : List DashboardId}
    {windowStart windowEnd : Int} {event : CalendarEvent} :
    (event ∈ tables.events.filter fun event =>
        decide (tables.selected dashboardIds windowStart windowEnd event)) ↔
      event ∈ tables.events ∧ tables.selected dashboardIds windowStart windowEnd event := by
  rw [List.mem_filter, decide_eq_true_eq]

variable (zoneInfo : TimezoneName → Zone) {lower : String → String} {tables : Tables}
  {windowStart windowEnd : Int}

/-- What is listed, for the events selected. -/
theorem listWindow_perm {dashboardIds : List DashboardId} {shown : List ExpandedOccurrence}
    (listed : listWindow zoneInfo lower tables dashboardIds windowStart windowEnd = .ok shown) :
    shown.Perm ((tables.events.filter fun event =>
        decide (tables.selected dashboardIds windowStart windowEnd event)).flatMap
      (listedOf zoneInfo (fun event => tables.editsInWindow event windowStart windowEnd)
        windowStart windowEnd)) := by
  unfold listWindow at listed
  dsimp only at listed
  split at listed
  next => cases listed
  next =>
    split at listed
    next => cases listed
    next =>
      obtain ⟨occurrences, expanded, sorted⟩ := bind_eq_ok.mp listed
      cases sorted
      rw [← expandAll_eq_ok zoneInfo expanded]
      exact List.perm_insertionSort _ _

/-- A listing that is not refused asks for the dashboards in scope, in a window of
`datetime`s. -/
theorem listOccurrences_eq_ok {accessibleDashboardIds : List DashboardId}
    {dashboardId : Option DashboardId} {shown : List ExpandedOccurrence}
    (listed : listOccurrences zoneInfo lower tables accessibleDashboardIds dashboardId windowStart
      windowEnd = .ok shown) :
    (scopeOf accessibleDashboardIds dashboardId = [] ∧ shown = []) ∨
      ∃ dashboardIds valid, checked windowStart = .ok valid ∧
        (∀ id, id ∈ dashboardIds ↔ id ∈ scopeOf accessibleDashboardIds dashboardId) ∧
        listWindow zoneInfo lower tables dashboardIds windowStart windowEnd = .ok shown := by
  unfold listOccurrences at listed
  split at listed
  next => cases listed
  next =>
    split at listed
    next => cases listed
    next =>
      split at listed
      next empty =>
        cases listed
        left
        unfold scopeOf
        rw [empty]
        cases dashboardId <;> exact ⟨rfl, rfl⟩
      next =>
        split at listed
        next => cases listed
        next known =>
          dsimp only at listed
          split at listed
          next valid _ begins _ =>
            refine .inr ⟨_, valid, begins, ?_, listed⟩
            intro id
            unfold scopeOf
            cases dashboardId with
            | none => rfl
            | some named =>
                have accessible : named ∈ accessibleDashboardIds :=
                  Decidable.not_not.mp fun absent => known ⟨named, rfl, absent⟩
                simp only [Option.elim_some, List.mem_singleton, List.mem_filter, beq_iff_eq]
                constructor
                · intro same
                  rw [same]
                  exact ⟨accessible, rfl⟩
                · exact fun both => both.2
          next => cases listed

/-- **The prefilter loses nothing.** A listing that is not refused has occurrences of live
events in its scope only, and of each of these whose expansion is not refused exactly what
the event expands to with all of its overrides. -/
theorem listing_exact (constrained : tables.Constrained)
    {accessibleDashboardIds : List DashboardId} {dashboardId : Option DashboardId}
    {shown : List ExpandedOccurrence}
    (listed : listOccurrences zoneInfo lower tables accessibleDashboardIds dashboardId windowStart
      windowEnd = .ok shown) :
    (∀ occurrence ∈ shown, ∃ event ∈ tables.events, event.id = occurrence.eventId ∧
      listedOn (scopeOf accessibleDashboardIds dashboardId) event) ∧
    ∀ event ∈ tables.events, listedOn (scopeOf accessibleDashboardIds dashboardId) event →
      ∀ full, expandEventOccurrences zoneInfo event (tables.overridesOf event.id) windowStart
          windowEnd = .ok full →
        (shown.filter fun occurrence => occurrence.eventId == event.id).Perm full := by
  rcases listOccurrences_eq_ok zoneInfo listed with ⟨empty, nothing⟩ |
    ⟨dashboardIds, valid, begins, scope, window⟩
  · rw [empty, nothing]
    constructor
    · exact fun occurrence member => nomatch member
    · exact fun event _ live => nomatch live.2
  · have permuted := listWindow_perm zoneInfo window
    constructor
    · intro occurrence member
      obtain ⟨event, selected, shows⟩ := List.mem_flatMap.mp (permuted.mem_iff.mp member)
      obtain ⟨stored, ⟨live, on⟩, _⟩ := mem_selected.mp selected
      exact ⟨event, stored, (eventId_of_listedOf zoneInfo occurrence shows).symm,
        live, (scope _).mp on⟩
    · intro event stored ⟨live, on⟩ full whole
      have visible : listedOn dashboardIds event := ⟨live, (scope _).mpr on⟩
      have expanded := expandEventOccurrences_selected zoneInfo constrained stored begins whole
      have unique := constrained.events_unique.sublist ((List.filter_sublist (p := fun event =>
        decide (tables.selected dashboardIds windowStart windowEnd event))).map _)
      refine (permuted.filter _).trans (List.Perm.of_eq ?_)
      rw [filter_flatMap unique (fun event => eventId_of_listedOf zoneInfo) event]
      by_cases selected : tables.selected dashboardIds windowStart windowEnd event
      · have found := find?_of_unique unique (mem_selected.mpr ⟨stored, selected⟩)
        rw [found]
        simp only [Option.toList_some, List.flatMap_cons, List.flatMap_nil, List.append_nil,
          listedOf, expanded]
        rfl
      · have absent : ((tables.events.filter fun event =>
            decide (tables.selected dashboardIds windowStart windowEnd event)).find?
              fun other => other.id == event.id) = none := by
          apply List.find?_eq_none.mpr
          intro other present same
          obtain ⟨storedOther, selectedOther⟩ := mem_selected.mp present
          have equal := List.inj_on_of_nodup_map constrained.events_unique storedOther stored
            (eq_of_beq same)
          rw [equal] at selectedOther
          exact selected selectedOther
        rw [absent, expandEventOccurrences_unselected zoneInfo constrained stored begins visible
          selected whole]
        rfl

end Listing

/-! ## An edit that moves an occurrence into the window -/

/-- Every timezone is UTC. -/
def utc : TimezoneName → Zone := fun _ => ⟨fun _ => 0, fun _ => 0⟩

/-- The instant of a full hour of a day, in UTC. -/
def hourOf (ordinal hour : Int) : Int := ordinal * day + hour * 3600000000

def mondays : RecurrenceRule where
  frequency := .weekly
  interval := 1
  byWeekday := some [0]
  untilAt := none
  count := none
  interval_bounds := by decide
  count_bounds := fun limit counted => nomatch counted
  weekdays := fun _ => ⟨[0], rfl, by decide, by decide⟩

/-- An hour every Monday from the fifth of January 2026 on. -/
def standup : CalendarEvent :=
  { id := 1, dashboardId := 1, createdBy := 1, updatedBy := 1, title := "Standup"
    description := none, location := none, startsAt := hourOf 739621 9, endsAt := hourOf 739621 10
    timezone := "UTC", allDay := false, recurrence := some mondays, deletedAt := none }

/-- An override of one of its occurrences, with the times it is moved to. -/
def standupMoved (occurrenceStart startsAt endsAt : Int) : CalendarEventOverride :=
  { calendarEventId := 1, occurrenceStart := occurrenceStart, createdBy := 1, updatedBy := 1
    cancelled := false, title := none, description := none, location := none
    startsAt := some startsAt, endsAt := some endsAt, timezone := none, allDay := none }

/-- The second occurrence, moved to the afternoon of the ninth. -/
def standupTables : Tables :=
  ⟨[standup], [standupMoved (hourOf 739628 9) (hourOf 739677 14) (hourOf 739677 15)]⟩

/-- The tables below satisfy their constraints. -/
theorem standupTables_constrained : standupTables.Constrained where
  events_unique := by decide
  overrides_unique := by decide
  time_range := by
    intro event member
    rw [List.mem_singleton.mp member]
    decide
  starts := by
    intro event member
    rw [List.mem_singleton.mp member]
    exact checked_eq_ok.mpr ⟨rfl, by decide, by decide⟩
  ends := by
    intro event member
    rw [List.mem_singleton.mp member]
    exact checked_eq_ok.mpr ⟨rfl, by decide, by decide⟩

/-- A week of the standup is listed. -/
theorem listing_of_standup :
    ∃ shown full : List ExpandedOccurrence,
      listOccurrences utc id standupTables [1] none (hourOf 739676 0) (hourOf 739683 0) =
        .ok shown ∧
      full.map (·.originalStart) = [hourOf 739677 9, hourOf 739628 9] ∧
      (shown.filter fun occurrence => occurrence.eventId == standup.id).Perm full := by
  have listed : ((listOccurrences utc id standupTables [1] none (hourOf 739676 0)
      (hourOf 739683 0)).toOption.map List.length) = some 2 := by decide
  have expanded : ((expandEventOccurrences utc standup (standupTables.overridesOf standup.id)
      (hourOf 739676 0) (hourOf 739683 0)).toOption.map fun full =>
        full.map (·.originalStart)) = some [hourOf 739677 9, hourOf 739628 9] := by decide
  obtain ⟨shown, listing, _⟩ := exists_of_toOption_map listed
  obtain ⟨full, whole, starts⟩ := exists_of_toOption_map expanded
  refine ⟨shown, full, listing, starts, ?_⟩
  exact (listing_exact utc standupTables_constrained listing).2 standup (List.mem_singleton.mpr rfl)
    (by decide) full whole

end FrontDashboard.Calendar
