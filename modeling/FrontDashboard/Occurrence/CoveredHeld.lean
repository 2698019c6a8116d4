import FrontDashboard.Occurrence.SpanBound

/-! # Covered means held

While the server does not change and nothing is invalidated, the store holds the occurrences of
the server that overlap what is covered, and no others.
-/

namespace FrontDashboard.Occurrence

open HalfOpen

variable {Details : Type} {world next : World Details} {occurrence : CalendarOccurrence Details}

/-- The occurrence overlaps one of the intervals. -/
def OverlapsAny (intervals : List Interval) (occurrence : CalendarOccurrence Details) : Prop :=
  ∃ interval ∈ intervals, occurrence.span.Overlaps interval

/-- Every occurrence of the server that overlaps a covered interval is held with the server's
values, and what is held is one of the server's that overlaps a covered interval. -/
structure CoveredIsHeld (world : World Details) : Prop where
  held : ∀ occurrence ∈ world.calendar.occurrences, OverlapsAny world.entry.covered occurrence →
    world.entry.byKey.get occurrence.key = some occurrence
  stored : ∀ occurrence ∈ world.entry.byKey.values,
    occurrence ∈ world.calendar.occurrences ∧ OverlapsAny world.entry.covered occurrence

/-- Loads only: no retry, no invalidation and no write of the server. -/
def OfLoads (_ : World Details) (action : Action Details) : Prop := action.ofLoads = true

instance (world : World Details) (action : Action Details) : Decidable (OfLoads world action) :=
  inferInstanceAs (Decidable (_ = true))

theorem overlapsAny_iff {intervals : List Interval} :
    OverlapsAny intervals occurrence ↔
      ∃ instant ∈ occurrence.span, Covers intervals instant := by
  constructor
  · rintro ⟨interval, member, overlap⟩
    obtain ⟨instant, inSpan, within⟩ := overlaps_iff_exists_mem.mp overlap
    exact ⟨instant, inSpan, interval, member, within⟩
  · rintro ⟨instant, inSpan, interval, member, within⟩
    exact ⟨interval, member, overlaps_of_mem inSpan within⟩

theorem overlapsAny_addInterval {covered : List Interval} {interval : Interval} :
    OverlapsAny (addInterval covered interval) occurrence ↔
      OverlapsAny covered occurrence ∨ occurrence.span.Overlaps interval := by
  rw [overlapsAny_iff, overlapsAny_iff, overlaps_iff_exists_mem, ← exists_or]
  refine exists_congr fun instant => ?_
  rw [covers_addInterval, and_or_left]

/-- What is held after a response is reconciled: what it lists, and what was held beside it. -/
theorem mem_reconcile_iff {calendar : Calendar Details} {byKey : Occurrences Details}
    (keyed : byKey.Keyed CalendarOccurrence.key) {interval : Interval}
    (known : ∀ occurrence ∈ byKey.values, occurrence ∈ calendar.occurrences) :
    occurrence ∈ (Entry.reconcile byKey interval (calendar.list interval)).values ↔
      occurrence ∈ calendar.occurrences ∧
        (occurrence ∈ byKey.values ∨ occurrence.span.Overlaps interval) := by
  by_cases listed : occurrence ∈ calendar.occurrences ∧
      (occurrence ∈ byKey.values ∨ occurrence.span.Overlaps interval)
  · refine iff_of_true
      ((mem_reconcile keyed (fun _ => Iff.rfl) fun apart => ?_).mpr listed.1) listed
    exact iff_of_true (listed.2.resolve_right apart) listed.1
  · refine iff_of_false (fun member => listed ?_) listed
    rw [mem_values_of_keyed (keyed_reconcile keyed interval _)] at member
    rcases InsertionMap.get_of_insertAll member with fetched | before
    · obtain ⟨inCalendar, overlap⟩ := mem_list.mp fetched
      exact ⟨inCalendar, .inr overlap⟩
    · rw [InsertionMap.filterValues_get, Option.filter_eq_some_iff] at before
      have held := (mem_values_of_keyed keyed).mpr before.1
      exact ⟨known occurrence held, .inl held⟩

/-- The invariant: the store holds exactly what overlaps the coverage, and what is answered is
what the server lists. -/
structure Exact (world : World Details) : Prop where
  keyed : world.entry.byKey.Keyed CalendarOccurrence.key
  holds : ∀ occurrence, occurrence ∈ world.entry.byKey.values ↔
    occurrence ∈ world.calendar.occurrences ∧ OverlapsAny world.entry.covered occurrence
  answers : ∀ interval fetched, world.entry.inFlight.get interval = some (some fetched) →
    fetched = world.calendar.list interval

/-- What a response that lands leaves in the store. -/
theorem mem_land (exact_ : Exact world) (interval : Interval) :
    occurrence ∈ (world.entry.land interval (world.calendar.list interval)).byKey.values ↔
      occurrence ∈ world.calendar.occurrences ∧
        OverlapsAny (retain (addInterval world.entry.covered interval) interval) occurrence := by
  have reconciled : occurrence ∈
      (Entry.reconcile world.entry.byKey interval (world.calendar.list interval)).values ↔
        occurrence ∈ world.calendar.occurrences ∧
          OverlapsAny (addInterval world.entry.covered interval) occurrence := by
    rw [mem_reconcile_iff exact_.keyed fun other held => ((exact_.holds other).mp held).1,
      exact_.holds, overlapsAny_addInterval]
    tauto
  refine mem_trim.trans ?_
  rw [reconciled, and_assoc]
  refine and_congr_right fun _ => ?_
  by_cases within : coveredSpan (addInterval world.entry.covered interval) ≤ maxCoveredMs
  · rw [retain, if_pos within]
    exact and_iff_left fun beyond => absurd within (not_le.mpr beyond)
  · constructor
    · rintro ⟨-, kept⟩
      obtain ⟨other, member, overlap⟩ := kept (not_le.mp within)
      exact ⟨other, member, overlap.symm⟩
    · rintro ⟨other, member, overlap⟩
      exact ⟨⟨other, mem_of_mem_retain member, overlap⟩, fun _ => ⟨other, member, overlap.symm⟩⟩

/-- Loads keep the store exact, in whatever order they are flushed, answered and resumed. -/
theorem Exact.of_step {action : Action Details} (exact_ : Exact world)
    (loads : action.ofLoads = true) (moved : step world action = some next) : Exact next := by
  cases effect_of_step moved with
  | quiet covered byKey calendar answered =>
      refine ⟨?_, fun occurrence => ?_, fun interval fetched present => ?_⟩
      · rw [byKey]
        exact exact_.keyed
      · rw [covered, byKey, calendar]
        exact exact_.holds occurrence
      · rw [calendar]
        exact (answered interval fetched present).elim (exact_.answers interval fetched) id
  | @landed interval fetched answered entry calendar =>
      have current := exact_.answers interval fetched answered
      subst current
      refine ⟨?_, fun occurrence => ?_, fun other later present => ?_⟩
      · rw [entry]
        exact keyed_land exact_.keyed interval _
      · rw [entry, calendar]
        exact mem_land exact_ interval
      · rw [entry] at present
        rw [calendar]
        exact exact_.answers other later (InsertionMap.get_of_delete present)
  | disturbed disturbs => simp [loads] at disturbs

theorem exact_of_reached (reached : (system Details).ReachedWithin OfLoads world) :
    Exact world := by
  refine reached.invariant ?_ ?_
  · rintro world ⟨empty, -, -⟩
    refine ⟨?_, fun occurrence => ?_, fun interval fetched present => ?_⟩
    · rw [empty]
      exact fun key value present => nomatch present
    · rw [empty]
      refine iff_of_false (fun member => ?_) fun here => ?_
      · cases member
      · obtain ⟨-, interval, member, -⟩ := here
        cases member
    · rw [empty] at present
      cases present
  · exact fun world action next exact_ loads moved => exact_.of_step loads moved

/-- **Covered means held**: after loads alone the store has, with the server's values, exactly
the occurrences that overlap what is covered. -/
theorem coveredIsHeld_of_loads (reached : (system Details).ReachedWithin OfLoads world) :
    CoveredIsHeld world := by
  have exact_ := exact_of_reached reached
  refine ⟨fun occurrence member overlap => ?_, fun occurrence => (exact_.holds occurrence).mp⟩
  exact (mem_values_of_keyed exact_.keyed).mp ((exact_.holds occurrence).mpr ⟨member, overlap⟩)

def afternoon : Interval := ⟨10, 20, by decide⟩

/-- A store that has loaded both holds the meeting. -/
theorem coveredIsHeld_of_morning :
    ∃ world : World String, (world.entry.covered = [⟨0, 20, by decide⟩] ∧
      world.entry.byKey.values = meetingCalendar.occurrences) ∧ CoveredIsHeld world := by
  have begins : (system String).Initial ⟨.empty, meetingCalendar, 0, 0⟩ := ⟨rfl, rfl, rfl⟩
  obtain ⟨world, reached, shape⟩ := TransitionSystem.exists_reachedWithin_of_run OfLoads begins
    [.mount 0 afternoon, .flush, .mount 1 morning, .flush, .serve afternoon, .serve morning,
      .land morning, .land afternoon]
    (fun world => decide (world.entry.covered = [⟨0, 20, by decide⟩] ∧
      world.entry.byKey.values = meetingCalendar.occurrences)) (by decide +kernel)
  exact ⟨world, of_decide_eq_true shape, coveredIsHeld_of_loads reached⟩

end FrontDashboard.Occurrence
