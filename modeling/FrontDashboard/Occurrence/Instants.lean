import FrontDashboard.Occurrence.Store
import FrontDashboard.Library.Places

/-! # The instants of a calendar

What it is for the occurrence store to be coherent, and the steps that keep it so. An
instant is *held* when the store has exactly the server's occurrences at it, and *shown*
when the published list has; a load covers what it asks for, and a response what it
answers.
-/

namespace FrontDashboard.Occurrence

open HalfOpen

variable {Details : Type}

namespace Entry

/-- The intervals that loads await. -/
def awaited (entry : Entry Details) : List Interval :=
  entry.loads.flatMap fun load => if load.rejected.isNone then load.waits else []

/-- Nothing is in flight or about to be. -/
def AtRest (entry : Entry Details) : Prop :=
  entry.pending = [] ∧ entry.inFlight.keys = [] ∧ entry.loads = []

end Entry

/-- Each mounted window shows an error or what the server lists for it. -/
def Coherent (world : World Details) : Prop :=
  world.entry.AtRest → world.announced = world.revision →
    ∀ window ∈ world.entry.windows.values, world.entry.error.isSome = true ∨
      ∀ occurrence, occurrence ∈ world.entry.visible window ↔
        occurrence ∈ world.calendar.list window

/-! ## The steps that break nothing -/

/-- Two lists have the same occurrences within an interval. -/
def SameWithin (interval : Interval) (first second : List (CalendarOccurrence Details)) : Prop :=
  (∀ occurrence ∈ first, occurrence.span.Overlaps interval → occurrence ∈ second) ∧
    ∀ occurrence ∈ second, occurrence.span.Overlaps interval → occurrence ∈ first

/-- What the server has answered so far is what it would answer now. -/
def AnsweredNow (world : World Details) : Prop :=
  ∀ interval ∈ world.entry.inFlight.keys,
    ∀ fetched ∈ (world.entry.inFlight.get interval).join.toList,
      (∀ occurrence ∈ fetched, occurrence ∈ world.calendar.list interval) ∧
        ∀ occurrence ∈ world.calendar.list interval, occurrence ∈ fetched

/-- Every mounted window is covered, or will be by the given intervals. -/
def WindowsCovered (entry : Entry Details) (coming : List Interval) : Prop :=
  ∀ window ∈ entry.windows.values, gapsIn (coming.foldl addInterval entry.covered) window = []

/-- What a landing response makes `trim` drop belongs to no mounted window. -/
def TrimsUnseen (entry : Entry Details) (interval : Interval)
    (fetched : List (CalendarOccurrence Details)) : Prop :=
  maxCoveredMs < coveredSpan (addInterval entry.covered interval) →
    ∀ occurrence ∈ (Entry.reconcile entry.byKey interval fetched).values,
      ∀ window ∈ entry.windows.values, occurrence.span.Overlaps window →
        ∃ kept ∈ retain (addInterval entry.covered interval) interval,
          kept.Overlaps occurrence.span

/-- A flush that loads nothing finds its windows published, and one that clears an
error covers every mounted window. -/
def FlushAdmitted (entry : Entry Details) : Prop :=
  if ∀ wanted ∈ Entry.batchLoads entry.pending, gapsIn entry.covered wanted = [] then
    entry.error = none → entry.loads = [] → ∀ wanted ∈ entry.pending,
      SameWithin wanted entry.occurrences entry.byKey.values
  else
    entry.error ≠ none → WindowsCovered entry (Entry.batchLoads entry.pending ++ entry.awaited)

/-- The steps under which the store stays coherent. The news an invalidation brings
must not have been missed by a response already given, and reach windows that can
be reloaded together; a response must not push a mounted window out of the cache;
and an error is cleared only by a load that leaves no window behind. -/
def Admits (world : World Details) : Action Details → Prop
  | .invalidate upTo => world.announced < world.revision → upTo = world.revision →
      AnsweredNow world ∧
        (world.entry.windows.values ≠ [] → world.entry.watchedInterval.isSome = true)
  | .land interval => ∀ fetched ∈ (world.entry.inFlight.get interval).join.toList,
      TrimsUnseen world.entry interval fetched
  | .flush => FlushAdmitted world.entry
  | .resume index => ∀ load ∈ world.entry.loads[index]?.toList, load.rejected = none →
      world.entry.error ≠ none →
        WindowsCovered world.entry (world.entry.pending ++ world.entry.awaited)
  | _ => True

/-! ## Instants -/

/-- The store has exactly the server's occurrences at the instant. -/
def Held (world : World Details) (instant : Millis) : Prop :=
  ∀ occurrence : CalendarOccurrence Details, instant ∈ occurrence.span →
    (occurrence ∈ world.entry.byKey.values ↔ occurrence ∈ world.calendar.occurrences)

/-- The published list has exactly the server's occurrences at the instant. -/
def Shown (world : World Details) (instant : Millis) : Prop :=
  ∀ occurrence : CalendarOccurrence Details, instant ∈ occurrence.span →
    (occurrence ∈ world.entry.occurrences ↔ occurrence ∈ world.calendar.occurrences)

/-- The instant is about to be requested, awaited by a load, or held and shown or
about to be. -/
def Cared (world : World Details) (instant : Millis) : Prop :=
  Covers world.entry.pending instant ∨ Covers world.entry.awaited instant ∨
    Held world instant ∧ (world.entry.loads ≠ [] ∨ Shown world instant)

/-- A load has been rejected and has not resumed yet. -/
def Failing (entry : Entry Details) : Prop :=
  ∃ load ∈ entry.loads, load.rejected.isSome = true

/-- The invariant. What depends on the calendar is owed only once every write has
been announced. -/
structure Good (world : World Details) : Prop where
  keyed : world.entry.byKey.Keyed CalendarOccurrence.key
  bound : world.announced ≤ world.revision
  covered : world.announced = world.revision →
    ∀ instant, Covers world.entry.covered instant → Held world instant
  answered : world.announced = world.revision →
    ∀ interval fetched, world.entry.inFlight.get interval = some (some fetched) →
      ∀ occurrence, occurrence ∈ fetched ↔ occurrence ∈ world.calendar.list interval
  windows : world.announced = world.revision → world.entry.error = none →
    ¬ Failing world.entry → ∀ window ∈ world.entry.windows.values, ∀ instant ∈ window,
      Cared world instant

/-- The server lists what overlaps the window. -/
theorem mem_list {calendar : Calendar Details} {window : Interval}
    {occurrence : CalendarOccurrence Details} :
    occurrence ∈ calendar.list window ↔
      occurrence ∈ calendar.occurrences ∧ occurrence.span.Overlaps window := by
  simp [Calendar.list]

/-- A good world is coherent. -/
theorem Good.coherent {world : World Details} (good : Good world) : Coherent world := by
  rintro ⟨noPending, -, noLoads⟩ announced window member
  cases failed : world.entry.error with
  | some message => exact .inl rfl
  | none =>
      refine .inr fun occurrence => ?_
      have notFailing : ¬ Failing world.entry := by
        rintro ⟨load, present, -⟩
        rw [noLoads] at present
        cases present
      rw [mem_list, Entry.visible, List.mem_filter, decide_eq_true_eq]
      refine and_congr_left fun overlap => ?_
      obtain ⟨instant, inSpan, inWindow⟩ := overlaps_iff_exists_mem.mp overlap
      have cared := good.windows announced failed notFailing window member instant inWindow
      rw [Cared, noPending, Entry.awaited, noLoads] at cared
      rcases cared with pending | awaited | ⟨-, loading | shown⟩
      · exact absurd pending (covers_nil instant)
      · exact absurd awaited (covers_nil instant)
      · exact absurd rfl loading
      · exact shown occurrence inSpan

/-! ## Responses -/

/-- An occurrence is held under its key. -/
theorem mem_values_of_keyed {map : Occurrences Details} (keyed : map.Keyed CalendarOccurrence.key)
    {occurrence : CalendarOccurrence Details} :
    occurrence ∈ map.values ↔ map.get occurrence.key = some occurrence := by
  rw [InsertionMap.mem_values]
  constructor
  · rintro ⟨key, present⟩
    rw [keyed key occurrence present]
    exact present
  · intro present
    exact ⟨_, present⟩

/-- A response is filed by key. -/
theorem keyed_reconcile {byKey : Occurrences Details} (keyed : byKey.Keyed CalendarOccurrence.key)
    (interval : Interval) (fetched : List (CalendarOccurrence Details)) :
    (Entry.reconcile byKey interval fetched).Keyed CalendarOccurrence.key :=
  (keyed.filterValues _).insertAll fetched

/-- **A current response is held.** Reconciled with what the server lists for an
interval, the store holds every instant of it, and every instant it held before. -/
theorem mem_reconcile {calendar : Calendar Details} {byKey : Occurrences Details}
    (keyed : byKey.Keyed CalendarOccurrence.key) {interval : Interval}
    {fetched : List (CalendarOccurrence Details)}
    (current : ∀ occurrence, occurrence ∈ fetched ↔ occurrence ∈ calendar.list interval)
    {occurrence : CalendarOccurrence Details}
    (held : ¬ occurrence.span.Overlaps interval →
      (occurrence ∈ byKey.values ↔ occurrence ∈ calendar.occurrences)) :
    occurrence ∈ (Entry.reconcile byKey interval fetched).values ↔
      occurrence ∈ calendar.occurrences := by
  have unique : ∀ first ∈ fetched, ∀ second ∈ fetched, first.key = second.key →
      first = second := by
    intro first inFirst second inSecond
    exact calendar.unique first (mem_list.mp ((current first).mp inFirst)).1 second
      (mem_list.mp ((current second).mp inSecond)).1
  rw [mem_values_of_keyed (keyed_reconcile keyed interval fetched), Entry.reconcile]
  by_cases listed : ∃ other ∈ fetched, other.key = occurrence.key
  · obtain ⟨other, member, sameKey⟩ := listed
    have present : (InsertionMap.insertAll CalendarOccurrence.key
        (byKey.filterValues fun occurrence => !decide (occurrence.span.Overlaps interval))
        fetched).get other.key = some other :=
      InsertionMap.insertAll_get_of_mem unique member
    have inCalendar := (mem_list.mp ((current other).mp member)).1
    rw [← sameKey, present]
    constructor
    · rintro same
      cases same
      exact inCalendar
    · intro member
      rw [calendar.unique other inCalendar occurrence member sameKey]
  · have absent : ∀ other ∈ fetched, other.key ≠ occurrence.key :=
      fun other member same => listed ⟨other, member, same⟩
    rw [InsertionMap.insertAll_get_of_absent absent, InsertionMap.filterValues_get,
      Option.filter_eq_some_iff]
    by_cases overlap : occurrence.span.Overlaps interval
    · constructor
      · rintro ⟨-, kept⟩
        simp [overlap] at kept
      · intro member
        exact absurd rfl
          (absent occurrence ((current occurrence).mpr (mem_list.mpr ⟨member, overlap⟩)))
    · rw [← held overlap, mem_values_of_keyed keyed]
      simp [overlap]

/-- An instant that was held, or lies in the response's interval, is held after the
response is reconciled. -/
theorem Good.held_reconcile {world : World Details} (good : Good world) {interval : Interval}
    {fetched : List (CalendarOccurrence Details)}
    (current : ∀ occurrence, occurrence ∈ fetched ↔ occurrence ∈ world.calendar.list interval)
    {instant : Millis} (known : instant ∈ interval ∨ Held world instant)
    {occurrence : CalendarOccurrence Details} (inSpan : instant ∈ occurrence.span) :
    occurrence ∈ (Entry.reconcile world.entry.byKey interval fetched).values ↔
      occurrence ∈ world.calendar.occurrences := by
  refine mem_reconcile good.keyed current fun apart => ?_
  have outside : instant ∉ interval := fun inside => apart (overlaps_of_mem inSpan inside)
  exact known.resolve_left outside occurrence inSpan

/-- Trimming drops what lies outside when too much is covered. -/
theorem mem_trim {entry : Entry Details} {keep : Interval}
    {occurrence : CalendarOccurrence Details} :
    occurrence ∈ (entry.trim keep).byKey.values ↔ occurrence ∈ entry.byKey.values ∧
      (maxCoveredMs < coveredSpan entry.covered →
        ∃ kept ∈ retain entry.covered keep, kept.Overlaps occurrence.span) := by
  unfold Entry.trim
  dsimp only
  split
  next within => simp [not_lt.mpr within]
  next beyond =>
    rw [InsertionMap.mem_values_filterValues]
    simp [not_le.mp beyond]

/-- What is covered after a response was so, or is answered by it. -/
theorem covers_land {entry : Entry Details} {interval : Interval}
    {fetched : List (CalendarOccurrence Details)} {instant : Millis}
    (covered : Covers (entry.land interval fetched).covered instant) :
    Covers entry.covered instant ∨ instant ∈ interval := by
  rw [← covers_addInterval]
  exact covered.mono fun _ => mem_of_mem_retain

/-- The loads that await a landing interval go on awaiting the others. -/
theorem awaited_land {entry : Entry Details} {interval : Interval}
    {fetched : List (CalendarOccurrence Details)} {instant : Millis}
    (awaited : Covers entry.awaited instant) :
    instant ∈ interval ∨ Covers (entry.land interval fetched).awaited instant := by
  by_cases inside : instant ∈ interval
  · exact .inl inside
  · obtain ⟨other, member, within⟩ := awaited
    obtain ⟨load, present, listed⟩ := List.mem_flatMap.mp member
    refine .inr ⟨other, List.mem_flatMap.mpr ⟨_, List.mem_map_of_mem present, ?_⟩, within⟩
    have different : other ≠ interval := by
      rintro rfl
      exact inside within
    split at listed
    next live =>
      rw [if_pos live, List.mem_filter]
      exact ⟨listed, by simpa using different⟩
    next => cases listed

/-- A store that fails still does. -/
theorem failing_land {entry : Entry Details} {interval : Interval}
    {fetched : List (CalendarOccurrence Details)} (failing : Failing entry) :
    Failing (entry.land interval fetched) := by
  obtain ⟨load, present, rejected⟩ := failing
  exact ⟨_, List.mem_map_of_mem present, rejected⟩

/-! ## Loads -/

/-- What beginning loads leaves alone: loads are added, and requests that have no
answer yet. -/
structure Begun (before after : Entry Details) : Prop where
  byKey : after.byKey = before.byKey
  occurrences : after.occurrences = before.occurrences
  covered : after.covered = before.covered
  windows : after.windows = before.windows
  pending : after.pending = before.pending
  loads : ∃ added, after.loads = before.loads ++ added
  answered : ∀ interval fetched, after.inFlight.get interval = some (some fetched) →
    before.inFlight.get interval = some (some fetched)

/-- Nothing begins. -/
theorem Begun.refl (entry : Entry Details) : Begun entry entry :=
  ⟨rfl, rfl, rfl, rfl, rfl, ⟨[], (List.append_nil _).symm⟩, fun _ _ => id⟩

/-- What loads still does. -/
theorem Begun.loads_ne_nil {before after : Entry Details} (begun : Begun before after)
    (loading : before.loads ≠ []) : after.loads ≠ [] := by
  obtain ⟨added, same⟩ := begun.loads
  rw [same]
  exact List.append_ne_nil_of_left_ne_nil loading added

/-- What begins twice begins. -/
theorem Begun.trans {first second third : Entry Details} (earlier : Begun first second)
    (later : Begun second third) : Begun first third where
  byKey := later.byKey.trans earlier.byKey
  occurrences := later.occurrences.trans earlier.occurrences
  covered := later.covered.trans earlier.covered
  windows := later.windows.trans earlier.windows
  pending := later.pending.trans earlier.pending
  loads := by
    obtain ⟨added, same⟩ := earlier.loads
    obtain ⟨more, same'⟩ := later.loads
    exact ⟨added ++ more, by rw [same', same, List.append_assoc]⟩
  answered := fun interval fetched present =>
    earlier.answered interval fetched (later.answered interval fetched present)

/-- What is awaited still is. -/
theorem Begun.awaited {before after : Entry Details} (begun : Begun before after)
    {instant : Millis} (awaited : Covers before.awaited instant) :
    Covers after.awaited instant := by
  obtain ⟨added, same⟩ := begun.loads
  rw [Entry.awaited, same, List.flatMap_append, covers_append]
  exact .inl awaited

/-- What fails still does. -/
theorem Begun.failing {before after : Entry Details} (begun : Begun before after)
    (failing : Failing before) : Failing after := by
  obtain ⟨added, same⟩ := begun.loads
  obtain ⟨load, present, rejected⟩ := failing
  exact ⟨load, by rw [same]; exact List.mem_append_left _ present, rejected⟩

/-- A request begins. -/
theorem begun_request (entry : Entry Details) (interval : Interval) :
    Begun entry (entry.request interval) := by
  unfold Entry.request
  split
  · exact .refl entry
  · refine ⟨rfl, rfl, rfl, rfl, rfl, ⟨[], (List.append_nil _).symm⟩, ?_⟩
    intro other fetched present
    rcases InsertionMap.get_of_insert present with ⟨-, unanswered⟩ | ⟨-, before⟩
    · cases unanswered
    · exact before

/-- Some requests in a row begin. -/
theorem begun_requests (entry : Entry Details) (gaps : List Interval) :
    Begun entry (gaps.foldl Entry.request entry) := by
  induction gaps generalizing entry with
  | nil => exact .refl entry
  | cons gap rest ih => exact (begun_request entry gap).trans (ih _)

/-- A load that finds gaps begins and awaits each of them. -/
theorem runLoad_of_gaps {entry : Entry Details} {wanted : Interval}
    (gaps : gapsIn entry.covered wanted ≠ []) :
    Begun entry (entry.runLoad wanted) ∧ (entry.runLoad wanted).loads ≠ [] ∧
      ∀ instant, Covers (gapsIn entry.covered wanted) instant →
        Covers (entry.runLoad wanted).awaited instant := by
  unfold Entry.runLoad
  rw [if_neg gaps]
  have requested := begun_requests
    ({ entry with
        loading := entry.byKey.size == 0, error := none
        loads := entry.loads ++ [⟨gapsIn entry.covered wanted, none⟩] } : Entry Details)
    (gapsIn entry.covered wanted)
  refine ⟨?_, requested.loads_ne_nil ?_, ?_⟩
  · obtain ⟨added, same⟩ := requested.loads
    exact ⟨requested.byKey, requested.occurrences, requested.covered, requested.windows,
      requested.pending, ⟨_, same.trans (List.append_assoc _ _ _)⟩, requested.answered⟩
  · exact List.append_ne_nil_of_right_ne_nil _ (List.cons_ne_nil _ _)
  · intro instant inGap
    refine requested.awaited ?_
    rw [Entry.awaited, List.flatMap_append, covers_append]
    refine .inr ?_
    simpa using inGap

/-- A load of what is covered begins nothing. -/
theorem runLoad_of_no_gaps {entry : Entry Details} {wanted : Interval}
    (none : gapsIn entry.covered wanted = []) : entry.runLoad wanted = entry := by
  unfold Entry.runLoad
  rw [if_pos none]

/-- A load begins its requests. -/
theorem begun_runLoad (entry : Entry Details) (wanted : Interval) :
    Begun entry (entry.runLoad wanted) := by
  by_cases none : gapsIn entry.covered wanted = []
  · rw [runLoad_of_no_gaps none]
    exact .refl entry
  · exact (runLoad_of_gaps none).1

/-- Some loads in a row begin requests, or nothing. -/
theorem begun_runLoads (entry : Entry Details) (batch : List Interval) :
    Begun entry (batch.foldl Entry.runLoad entry) := by
  induction batch generalizing entry with
  | nil => exact .refl entry
  | cons wanted rest ih => exact (begun_runLoad entry wanted).trans (ih _)

/-- **A batch of loads misses nothing**: what it asks for is covered or awaited. -/
theorem covers_or_awaited (entry : Entry Details) (batch : List Interval) {instant : Millis}
    (asked : Covers batch instant) :
    Covers entry.covered instant ∨ Covers (batch.foldl Entry.runLoad entry).awaited instant := by
  induction batch generalizing entry with
  | nil => exact absurd asked (covers_nil instant)
  | cons wanted rest ih =>
      have first := begun_runLoad entry wanted
      rcases covers_cons.mp asked with inside | later
      · rcases covers_or_gap entry.covered inside with covered | inGap
        · exact .inl covered
        · refine .inr ((begun_runLoads _ rest).awaited ?_)
          by_cases none : gapsIn entry.covered wanted = []
          · rw [none] at inGap
            exact absurd inGap (covers_nil instant)
          · exact (runLoad_of_gaps none).2.2 instant inGap
      · rw [← first.covered]
        exact ih _ later

/-- A batch in which some load finds a gap leaves a load behind. -/
theorem runLoads_of_gap (entry : Entry Details) {batch : List Interval}
    (gap : ¬ ∀ wanted ∈ batch, gapsIn entry.covered wanted = []) :
    (batch.foldl Entry.runLoad entry).loads ≠ [] := by
  induction batch generalizing entry with
  | nil => exact absurd (fun _ member => absurd member List.not_mem_nil) gap
  | cons wanted rest ih =>
      by_cases none : gapsIn entry.covered wanted = []
      · rw [List.foldl_cons, runLoad_of_no_gaps none]
        refine ih entry fun all => gap fun other member => ?_
        rcases List.mem_cons.mp member with rfl | later
        · exact none
        · exact all other later
      · exact (begun_runLoads _ rest).loads_ne_nil (runLoad_of_gaps none).2.1

/-- Loads of what is covered begin nothing. -/
theorem runLoads_of_no_gaps {entry : Entry Details} {batch : List Interval}
    (none : ∀ wanted ∈ batch, gapsIn entry.covered wanted = []) :
    batch.foldl Entry.runLoad entry = entry := by
  induction batch with
  | nil => rfl
  | cons wanted rest ih =>
      rw [List.foldl_cons, runLoad_of_no_gaps (none wanted List.mem_cons_self)]
      exact ih fun other member => none other (List.mem_cons_of_mem _ member)

/-- The span of intervals has what they cover. -/
theorem mem_spanOf {intervals : List Interval} {span : Interval}
    (spans : Entry.spanOf intervals = some span) {instant : Millis}
    (inside : Covers intervals instant) : instant ∈ span := by
  have grows : ∀ (rest : List Interval) (first : Interval),
      (instant ∈ first ∨ Covers rest instant) → instant ∈ rest.foldl HalfOpen.hull first := by
    intro rest
    induction rest with
    | nil => exact fun first => fun member => member.resolve_right (covers_nil instant)
    | cons next rest ih =>
        intro first member
        refine ih (first.hull next) ?_
        rcases member with inFirst | inRest
        · exact .inl (mem_hull_left next inFirst)
        · rcases covers_cons.mp inRest with inNext | later
          · exact .inl (mem_hull_right first inNext)
          · exact .inr later
  cases intervals with
  | nil => cases spans
  | cons first rest =>
      rw [← Option.some.inj spans]
      exact grows rest first (covers_cons.mp inside)

/-- A batch covers what is pending. -/
theorem covers_batchLoads {pending : List Interval} {instant : Millis}
    (inside : Covers pending instant) : Covers (Entry.batchLoads pending) instant := by
  unfold Entry.batchLoads
  cases spans : Entry.spanOf pending with
  | none =>
      cases pending with
      | nil => exact absurd inside (covers_nil instant)
      | cons first rest => cases spans
  | some span =>
      dsimp only
      split
      · exact inside
      · exact ⟨span, List.mem_singleton.mpr rfl, mem_spanOf spans inside⟩

/-- What is watched has every window. -/
theorem mem_watchedInterval {entry : Entry Details} {watched : Interval}
    (watches : entry.watchedInterval = some watched) {window : Interval}
    (mounted : window ∈ entry.windows.values) {instant : Millis} (inside : instant ∈ window) :
    instant ∈ watched := by
  unfold Entry.watchedInterval at watches
  split at watches
  next => cases watches
  next span spans =>
    split at watches
    · cases watches
    · cases watches
      exact mem_spanOf spans ⟨window, mounted, inside⟩

end FrontDashboard.Occurrence
