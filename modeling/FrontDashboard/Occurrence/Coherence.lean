import FrontDashboard.Occurrence.Instants

/-! # Coherence of the occurrence store

When the store is at rest and every write of the server has been announced, each
mounted window shows exactly what the server lists for it, or an error.

The argument follows single instants. An instant is *held* when the store has
exactly the server's occurrences at it, and *shown* when the published list has.
Every instant of a mounted window is about to be requested, awaited by a load, or
held and either shown or about to be published. The steps that break this are
named by `Admits`.
-/

namespace FrontDashboard.Occurrence

open HalfOpen

variable {Details : Type}

/-! ## Steps -/

theorem Cared.loadWindow {world : World Details} {instant : Millis}
    (cared : Cared world instant) (wanted : Interval) :
    Cared { world with entry := world.entry.loadWindow wanted } instant :=
  cared.imp (fun pending => covers_append.mpr (.inl pending)) id

theorem Good.mount {world : World Details} (good : Good world) (watcher : WatcherId)
    (wanted : Interval) : Good { world with entry := world.entry.mount watcher wanted } where
  keyed := good.keyed
  bound := good.bound
  covered := good.covered
  answered := good.answered
  windows := by
    intro announced unfailed live window mounted instant inside
    obtain ⟨key, present⟩ := InsertionMap.mem_values.mp mounted
    rcases InsertionMap.get_of_insert present with ⟨-, rfl⟩ | ⟨-, before⟩
    · exact .inl (covers_append.mpr (.inr ⟨window, List.mem_singleton.mpr rfl, inside⟩))
    · exact (good.windows announced unfailed live window
        (InsertionMap.mem_values.mpr ⟨key, before⟩) instant inside).loadWindow wanted

theorem Good.unmount {world : World Details} (good : Good world) (watcher : WatcherId) :
    Good { world with entry := world.entry.unmount watcher } where
  keyed := good.keyed
  bound := good.bound
  covered := good.covered
  answered := good.answered
  windows := by
    intro announced unfailed live window mounted instant inside
    obtain ⟨key, present⟩ := InsertionMap.mem_values.mp mounted
    exact good.windows announced unfailed live window
      (InsertionMap.mem_values.mpr ⟨key, InsertionMap.get_of_delete present⟩) instant inside

theorem Good.refetch {world : World Details} (good : Good world) (wanted : Interval) :
    Good { world with entry := world.entry.refetch wanted } where
  keyed := good.keyed
  bound := good.bound
  covered := fun _ instant uncovered => absurd uncovered (covers_nil instant)
  answered := good.answered
  windows := by
    intro announced unfailed live window mounted instant inside
    exact (good.windows announced unfailed live window mounted instant inside).loadWindow wanted

theorem Good.serve {world : World Details} (good : Good world) (interval : Interval) :
    Good { world with entry := { world.entry with
      inFlight := world.entry.inFlight.insert interval (some (world.calendar.list interval)) } }
    where
  keyed := good.keyed
  bound := good.bound
  covered := good.covered
  answered := by
    intro announced other fetched present occurrence
    rcases InsertionMap.get_of_insert present with ⟨rfl, same⟩ | ⟨-, before⟩
    · cases same
      exact Iff.rfl
    · exact good.answered announced other fetched before occurrence
  windows := good.windows

theorem keyed_land {entry : Entry Details} (keyed : entry.byKey.Keyed CalendarOccurrence.key)
    (interval : Interval) (fetched : List (CalendarOccurrence Details)) :
    (entry.land interval fetched).byKey.Keyed CalendarOccurrence.key := by
  have reconciled := keyed_reconcile keyed interval fetched
  unfold Entry.land Entry.trim
  dsimp only
  split
  · exact reconciled
  · exact reconciled.filterValues _

/-- **A response lands.** -/
theorem Good.land {world : World Details} (good : Good world) {interval : Interval}
    {fetched : List (CalendarOccurrence Details)}
    (found : world.entry.inFlight.get interval = some (some fetched))
    (unseen : TrimsUnseen world.entry interval fetched) :
    Good { world with entry := world.entry.land interval fetched } where
  keyed := keyed_land good.keyed interval fetched
  bound := good.bound
  covered := by
    intro announced instant covered occurrence inSpan
    have current := good.answered announced interval fetched found
    have known : instant ∈ interval ∨ Held world instant :=
      (covers_land covered).symm.imp id (good.covered announced instant)
    rw [← good.held_reconcile current known inSpan]
    refine mem_trim.trans (and_iff_left fun _ => ?_)
    obtain ⟨kept, member, inside⟩ := covered
    exact ⟨kept, member, overlaps_of_mem inside inSpan⟩
  answered := fun announced other response present =>
    good.answered announced other response (InsertionMap.get_of_delete present)
  windows := by
    intro announced unfailed live window mounted instant inside
    have current := good.answered announced interval fetched found
    have held : instant ∈ interval ∨ Held world instant →
        Held { world with entry := world.entry.land interval fetched } instant := by
      intro known occurrence inSpan
      rw [← good.held_reconcile current known inSpan]
      constructor
      · exact fun member => (mem_trim.mp member).1
      · intro member
        exact mem_trim.mpr ⟨member, fun beyond =>
          unseen beyond occurrence member window mounted (overlaps_of_mem inSpan inside)⟩
    have stillLoading : world.entry.loads ≠ [] →
        (world.entry.land interval fetched).loads ≠ [] :=
      fun loading none => loading (List.map_eq_nil_iff.mp none)
    have loading_of_awaited : Covers world.entry.awaited instant →
        (world.entry.land interval fetched).loads ≠ [] := by
      rintro ⟨other, member, -⟩
      refine stillLoading ?_
      rintro none
      rw [Entry.awaited, none] at member
      cases member
    rcases good.windows announced unfailed (fun failing => live (failing_land failing)) window
      mounted instant inside with pending | awaited | ⟨known, shown⟩
    · exact .inl pending
    · rcases awaited_land awaited with landed | still
      · exact .inr (.inr ⟨held (.inl landed), .inl (loading_of_awaited awaited)⟩)
      · exact .inr (.inl still)
    · exact .inr (.inr ⟨held (.inr known), shown.imp stillLoading id⟩)

/-- Unless a load fails with it, a failing request changes no load. -/
theorem loads_fail {entry : Entry Details} {interval : Interval} {message : Option String}
    (live : ¬ Failing (entry.fail interval message)) :
    (entry.fail interval message).loads = entry.loads := by
  refine (List.map_congr_left fun load present => ?_).trans (List.map_id _)
  by_cases hit : interval ∈ load.waits ∧ load.rejected = none
  · refine absurd ⟨_, List.mem_map_of_mem present, ?_⟩ live
    rw [if_pos hit]
    rfl
  · rw [if_neg hit]
    rfl

theorem Good.fail {world : World Details} (good : Good world) (interval : Interval)
    (message : Option String) :
    Good { world with entry := world.entry.fail interval message } where
  keyed := good.keyed
  bound := good.bound
  covered := good.covered
  answered := fun announced other fetched present =>
    good.answered announced other fetched (InsertionMap.get_of_delete present)
  windows := by
    intro announced unfailed live window mounted instant inside
    have same := loads_fail live
    have before : ¬ Failing world.entry := by
      intro failing
      rw [Failing, same] at live
      exact live failing
    have cared := good.windows announced unfailed before window mounted instant inside
    unfold Cared Entry.awaited at cared ⊢
    dsimp only
    rw [same]
    exact cared

/-- **A flush begins its loads.** -/
theorem Good.flush {world : World Details} (good : Good world)
    (admitted : FlushAdmitted world.entry) :
    Good { world with entry := world.entry.flush } := by
  have begun := begun_runLoads { world.entry with pending := [] }
    (Entry.batchLoads world.entry.pending)
  have sameHeld : ∀ instant, Held { world with entry := world.entry.flush } instant ↔
      Held world instant := by
    intro instant
    unfold Held Entry.flush
    rw [begun.byKey]
  have sameShown : ∀ instant, Shown { world with entry := world.entry.flush } instant ↔
      Shown world instant := by
    intro instant
    unfold Shown Entry.flush
    rw [begun.occurrences]
  have covered : world.announced = world.revision →
      ∀ instant, Covers world.entry.flush.covered instant →
        Held { world with entry := world.entry.flush } instant := by
    intro announced instant covers
    unfold Entry.flush at covers
    rw [begun.covered] at covers
    exact (sameHeld instant).mpr (good.covered announced instant covers)
  refine ⟨?_, good.bound, covered, ?_, ?_⟩
  · unfold Entry.flush
    dsimp only
    rw [begun.byKey]
    exact good.keyed
  · intro announced interval fetched present
    exact good.answered announced interval fetched (begun.answered interval fetched present)
  · intro announced unfailed live window mounted instant inside
    have before : ¬ Failing world.entry := fun failing => live (begun.failing failing)
    have wasMounted : window ∈ world.entry.windows.values := by
      unfold Entry.flush at mounted
      dsimp only at mounted
      rw [begun.windows] at mounted
      exact mounted
    have asked : Covers (Entry.batchLoads world.entry.pending) instant →
        Held { world with entry := world.entry.flush } instant ∨
          Covers world.entry.flush.awaited instant := by
      intro wanted
      rcases covers_or_awaited { world.entry with pending := [] } _ wanted with held | awaits
      · exact .inl ((sameHeld instant).mpr (good.covered announced instant held))
      · exact .inr awaits
    unfold FlushAdmitted at admitted
    split at admitted
    next noGaps =>
      have unchanged : world.entry.flush = { world.entry with pending := [] } :=
        runLoads_of_no_gaps noGaps
      rw [unchanged] at unfailed
      rcases good.windows announced unfailed before window wasMounted instant inside with
        pending | awaits | ⟨held, shown⟩
      · obtain ⟨wanted, member, within⟩ := covers_batchLoads pending
        have held := good.covered announced instant
          (covers_of_no_gap (noGaps wanted member) within)
        refine .inr (.inr ⟨(sameHeld instant).mpr held, ?_⟩)
        by_cases loading : world.entry.loads = []
        · refine .inr ((sameShown instant).mpr fun occurrence inSpan => ?_)
          obtain ⟨asking, isPending, inAsking⟩ := pending
          obtain ⟨into, out⟩ := admitted unfailed loading asking isPending
          have overlap := overlaps_of_mem inSpan inAsking
          rw [← held occurrence inSpan]
          exact ⟨fun member => into occurrence member overlap,
            fun member => out occurrence member overlap⟩
        · exact .inl (begun.loads_ne_nil loading)
      · exact .inr (.inl (begun.awaited awaits))
      · exact .inr (.inr ⟨(sameHeld instant).mpr held,
          shown.imp begun.loads_ne_nil (sameShown instant).mpr⟩)
    next gap =>
      have loading : world.entry.flush.loads ≠ [] :=
        runLoads_of_gap { world.entry with pending := [] } gap
      have fromAsked : Covers (Entry.batchLoads world.entry.pending) instant →
          Cared { world with entry := world.entry.flush } instant := by
        intro wanted
        rcases asked wanted with held | awaits
        · exact .inr (.inr ⟨held, .inl loading⟩)
        · exact .inr (.inl awaits)
      by_cases clear : world.entry.error = none
      · rcases good.windows announced clear before window wasMounted instant inside with
          pending | awaits | ⟨held, -⟩
        · exact fromAsked (covers_batchLoads pending)
        · exact .inr (.inl (begun.awaited awaits))
        · exact .inr (.inr ⟨(sameHeld instant).mpr held, .inl loading⟩)
      · have reached := covers_of_no_gap (admitted clear window wasMounted) inside
        rcases (covers_foldl_addInterval _ _).mp reached with held | coming
        · exact .inr (.inr ⟨(sameHeld instant).mpr (good.covered announced instant held),
            .inl loading⟩)
        · rcases covers_append.mp coming with wanted | awaits
          · exact fromAsked wanted
          · exact .inr (.inl (begun.awaited awaits))

/-- The loads other than a resuming one that awaits nothing await what all did. -/
theorem awaited_eraseIdx {loads : List Load} {index : Nat} {load : Load}
    (found : loads[index]? = some load) (landed : load.waits = []) {instant : Millis}
    (awaits : Covers (loads.flatMap fun load =>
      if load.rejected.isNone then load.waits else []) instant) :
    Covers ((loads.eraseIdx index).flatMap fun load =>
      if load.rejected.isNone then load.waits else []) instant := by
  obtain ⟨interval, member, inside⟩ := awaits
  obtain ⟨other, present, listed⟩ := List.mem_flatMap.mp member
  rcases Places.eq_or_mem_eraseIdx found present with same | remains
  · rw [same, landed] at listed
    split at listed <;> cases listed
  · exact ⟨interval, List.mem_flatMap.mpr ⟨other, remains, listed⟩, inside⟩

/-- **A load that has all its responses publishes.** -/
theorem Good.resume {world : World Details} (good : Good world) {index : Nat}
    {entry : Entry Details} (moved : world.entry.resume index = some entry)
    (admitted : Admits world (.resume index)) : Good { world with entry := entry } := by
  unfold Entry.resume at moved
  split at moved
  next => cases moved
  next load found =>
    split at moved
    next message rejected =>
      cases moved
      refine ⟨good.keyed, good.bound, good.covered, good.answered, ?_⟩
      intro _ unfailed
      cases unfailed
    next live =>
      split at moved
      next landed =>
        cases moved
        refine ⟨good.keyed, good.bound, good.covered, good.answered, ?_⟩
        intro announced _ steady window mounted instant inside
        have before : ¬ Failing world.entry := by
          rintro ⟨other, present, rejected⟩
          rcases Places.eq_or_mem_eraseIdx found present with same | remains
          · rw [same, live] at rejected
            cases rejected
          · exact steady ⟨other, remains, rejected⟩
        have published : Held world instant →
            Cared { world with entry :=
              { world.entry.republishOccurrences with
                loads := world.entry.loads.eraseIdx index, loaded := true, loading := false
                error := none } } instant := by
          intro held
          refine .inr (.inr ⟨held, .inr fun occurrence inSpan => ?_⟩)
          rw [← held occurrence inSpan]
          exact List.mem_insertionSort _
        by_cases clear : world.entry.error = none
        · rcases good.windows announced clear before window mounted instant inside with
            pending | awaits | ⟨held, -⟩
          · exact .inl pending
          · exact .inr (.inl (awaited_eraseIdx found landed awaits))
          · exact published held
        · have reached := covers_of_no_gap
            (admitted load (by simp [found]) live clear window mounted) inside
          rcases (covers_foldl_addInterval _ _).mp reached with held | coming
          · exact published (good.covered announced instant held)
          · rcases covers_append.mp coming with pending | awaits
            · exact .inl pending
            · exact .inr (.inl (awaited_eraseIdx found landed awaits))
      next => cases moved

theorem reload_frame (entry : Entry Details) :
    entry.reload.covered = [] ∧ entry.reload.byKey = entry.byKey ∧
      entry.reload.inFlight = entry.inFlight ∧ entry.reload.error = entry.error ∧
      entry.reload.loads = entry.loads ∧ entry.reload.windows = entry.windows ∧
      entry.reload.occurrences = entry.occurrences ∧
      ∀ instant, Covers entry.pending instant → Covers entry.reload.pending instant := by
  unfold Entry.reload
  dsimp only
  split
  · exact ⟨rfl, rfl, rfl, rfl, rfl, rfl, rfl, fun _ => id⟩
  · exact ⟨rfl, rfl, rfl, rfl, rfl, rfl, rfl, fun _ pending => covers_append.mpr (.inl pending)⟩

/-- **An invalidation reloads what is on screen.** -/
theorem Good.invalidate {world : World Details} (good : Good world) {upTo : Nat}
    (happened : upTo ≤ world.revision) (admitted : Admits world (.invalidate upTo)) :
    Good { world with entry := world.entry.reload, announced := max world.announced upTo } := by
  obtain ⟨covered, byKey, inFlight, error, loads, windows, occurrences, pending⟩ :=
    reload_frame world.entry
  have bound := good.bound
  refine ⟨?_, max_le bound happened, ?_, ?_, ?_⟩
  · change world.entry.reload.byKey.Keyed _
    rw [byKey]
    exact good.keyed
  · intro _ instant covers
    rw [covered] at covers
    exact absurd covers (covers_nil instant)
  · intro announced interval fetched present occurrence
    rw [inFlight] at present
    by_cases already : world.announced = world.revision
    · exact good.answered already interval fetched present occurrence
    · dsimp only at announced
      obtain ⟨answeredNow, -⟩ := admitted (by omega) (by omega)
      obtain ⟨sound, complete⟩ := answeredNow interval (InsertionMap.mem_keys_of_get present)
        fetched (by simp [present])
      exact ⟨sound occurrence, complete occurrence⟩
  · intro announced unfailed live window mounted instant inside
    dsimp only at announced unfailed live mounted
    rw [error] at unfailed
    rw [windows] at mounted
    have before : ¬ Failing world.entry := by
      intro failing
      rw [Failing, loads] at live
      exact live failing
    by_cases already : world.announced = world.revision
    · rcases good.windows already unfailed before window mounted instant inside with
        wanted | awaits | ⟨held, shown⟩
      · exact .inl (pending instant wanted)
      · refine .inr (.inl ?_)
        rw [Entry.awaited, loads]
        exact awaits
      · refine .inr (.inr ⟨?_, ?_⟩)
        · unfold Held
          dsimp only
          rw [byKey]
          exact held
        · unfold Shown
          dsimp only
          rw [loads, occurrences]
          exact shown
    · obtain ⟨-, watches⟩ := admitted (by omega) (by omega)
      obtain ⟨watched, found⟩ := Option.isSome_iff_exists.mp
        (watches (List.ne_nil_of_mem mounted))
      refine .inl ?_
      have reloads : world.entry.reload.pending = world.entry.pending ++ [watched] := by
        unfold Entry.reload
        dsimp only
        rw [show ({ world.entry with covered := [] } : Entry Details).watchedInterval =
          some watched from found]
        rfl
      rw [reloads]
      refine covers_append.mpr (.inr ⟨watched, List.mem_singleton.mpr rfl, ?_⟩)
      exact mem_watchedInterval found mounted inside

/-- Every admitted step keeps the invariant. -/
theorem Good.step {world next : World Details} (good : Good world) {action : Action Details}
    (admitted : Admits world action) (moved : step world action = some next) : Good next := by
  cases action with
  | mount watcher window =>
      cases moved
      exact good.mount watcher window
  | unmount watcher =>
      cases moved
      exact good.unmount watcher
  | refetch watcher =>
      simp only [Occurrence.step] at moved
      split at moved
      · cases moved
      · cases moved
        exact good.refetch _
  | flush =>
      cases moved
      exact good.flush admitted
  | serve interval =>
      simp only [Occurrence.step] at moved
      split at moved
      · cases moved
        exact good.serve interval
      · cases moved
  | land interval =>
      simp only [Occurrence.step] at moved
      split at moved
      next fetched found =>
        cases moved
        exact good.land found (admitted fetched (by simp [found]))
      next => cases moved
  | fail interval message =>
      simp only [Occurrence.step] at moved
      split at moved
      · cases moved
        exact good.fail interval message
      · cases moved
  | resume index =>
      simp only [Occurrence.step] at moved
      split at moved
      next => cases moved
      next entry resumed =>
        cases moved
        exact good.resume resumed admitted
  | write calendar =>
      cases moved
      have behind : world.announced ≠ world.revision + 1 := by
        have bound := good.bound
        omega
      exact ⟨good.keyed, Nat.le_succ_of_le good.bound, fun same => absurd same behind,
        fun same => absurd same behind, fun same => absurd same behind⟩
  | invalidate upTo =>
      simp only [Occurrence.step] at moved
      split at moved
      next happened =>
        cases moved
        exact good.invalidate happened admitted
      next => cases moved

theorem good_of_initial {world : World Details} (begins : (system Details).Initial world) :
    Good world := by
  obtain ⟨empty, revision, announced⟩ := begins
  have nothing : world.entry = Entry.empty := empty
  refine ⟨?_, by omega, ?_, ?_, ?_⟩
  · rw [nothing]
    intro key value present
    cases present
  · rw [nothing]
    exact fun _ instant covered => absurd covered (covers_nil instant)
  · rw [nothing]
    intro _ interval fetched present
    cases present
  · rw [nothing]
    intro _ _ _ window mounted
    cases mounted

/-- **Coherence** of the store in every run of admitted steps. -/
theorem coherent_of_admitted {world : World Details}
    (reached : (system Details).ReachedWithin Admits world) : Coherent world := by
  have good : Good world := by
    apply reached.invariant
    · exact fun _ => good_of_initial
    · intro before action after good admitted moved
      exact good.step admitted moved
  exact good.coherent

/-! ## Runs -/

section Decidable

variable [DecidableEq Details]

instance (interval : Interval) (first second : List (CalendarOccurrence Details)) :
    Decidable (SameWithin interval first second) :=
  inferInstanceAs (Decidable (_ ∧ _))

instance (world : World Details) : Decidable (AnsweredNow world) :=
  inferInstanceAs (Decidable (∀ interval ∈ world.entry.inFlight.keys,
    ∀ fetched ∈ (world.entry.inFlight.get interval).join.toList,
      (∀ occurrence ∈ fetched, occurrence ∈ world.calendar.list interval) ∧
        ∀ occurrence ∈ world.calendar.list interval, occurrence ∈ fetched))

instance (entry : Entry Details) (coming : List Interval) :
    Decidable (WindowsCovered entry coming) :=
  inferInstanceAs (Decidable (∀ window ∈ entry.windows.values,
    gapsIn (coming.foldl addInterval entry.covered) window = []))

instance (entry : Entry Details) (interval : Interval)
    (fetched : List (CalendarOccurrence Details)) :
    Decidable (TrimsUnseen entry interval fetched) :=
  inferInstanceAs (Decidable (maxCoveredMs < coveredSpan (addInterval entry.covered interval) →
    ∀ occurrence ∈ (Entry.reconcile entry.byKey interval fetched).values,
      ∀ window ∈ entry.windows.values, occurrence.span.Overlaps window →
        ∃ kept ∈ retain (addInterval entry.covered interval) interval,
          kept.Overlaps occurrence.span))

instance (entry : Entry Details) : Decidable (FlushAdmitted entry) := by
  unfold FlushAdmitted
  split <;> infer_instance

instance (world : World Details) (action : Action Details) : Decidable (Admits world action) := by
  unfold Admits
  split <;> infer_instance

end Decidable

/-- A window at rest that lacks an occurrence the server lists, with every write
announced and no error shown. -/
def lacking (world : World String) : Bool :=
  world.entry.pending == [] && world.entry.inFlight.keys == [] &&
    world.entry.loads.isEmpty && world.announced == world.revision &&
    world.entry.error.isNone && world.entry.windows.values.any fun window =>
      (world.calendar.list window).any fun occurrence =>
        !(world.entry.visible window).contains occurrence

theorem not_coherent_of_lacking {world : World String} (bad : lacking world = true) :
    ¬ Coherent world := by
  intro coherent
  simp only [lacking, Bool.and_eq_true, beq_iff_eq, List.isEmpty_iff, List.any_eq_true,
    Option.isNone_iff_eq_none, Bool.not_eq_true', List.contains_eq_mem,
    decide_eq_false_iff_not] at bad
  obtain ⟨⟨⟨⟨⟨pending, inFlight⟩, loads⟩, announced⟩, clear⟩, window, mounted, occurrence,
    listed, absent⟩ := bad
  rcases coherent ⟨pending, inFlight, loads⟩ announced window mounted with failed | exactly
  · rw [clear] at failed
    cases failed
  · exact absent ((exactly occurrence).mpr listed)

def morning : Interval := ⟨0, 10, by decide⟩

def emptyCalendar : Calendar String := ⟨[], by simp⟩

/-- A calendar with one meeting in the morning. -/
def meetingCalendar : Calendar String :=
  ⟨[⟨"standup", 2, ⟨2, 4, by decide⟩, "Stand-up"⟩], by simp⟩

def freshWorld : World String := ⟨.empty, emptyCalendar, 0, 0⟩

/-- A reload joins the request that the server answered before the write it reloads
for, and the window is left without the new meeting. -/
theorem reload_joins_answered_request :
    ¬ ∀ world : World String, (system String).Reachable world → Coherent world := by
  intro coherent
  have begins : (system String).Initial freshWorld := ⟨rfl, rfl, rfl⟩
  obtain ⟨world, reached, bad⟩ := TransitionSystem.exists_reachable_of_run begins
    [.mount 0 morning, .flush, .serve morning, .write meetingCalendar, .invalidate 1, .flush,
      .land morning, .resume 0, .resume 0] lacking (by decide)
  exact not_coherent_of_lacking bad (coherent world reached)

/-- A reload that comes after the answer shows the new meeting. -/
theorem coherent_after_reload :
    ∃ world : World String, (world.entry.AtRest ∧ world.announced = 1 ∧ world.revision = 1 ∧
      world.entry.visible morning = meetingCalendar.occurrences) ∧ Coherent world := by
  have begins : (system String).Initial freshWorld := ⟨rfl, rfl, rfl⟩
  obtain ⟨world, reached, shape⟩ := TransitionSystem.exists_reachedWithin_of_run Admits begins
    [.mount 0 morning, .flush, .serve morning, .land morning, .resume 0, .write meetingCalendar,
      .invalidate 1, .flush, .serve morning, .land morning, .resume 0]
    (fun world => world.entry.pending == [] && world.entry.inFlight.keys == [] &&
      world.entry.loads.isEmpty && world.announced == 1 && world.revision == 1 &&
      decide (world.entry.visible morning = meetingCalendar.occurrences)) (by decide)
  simp only [Bool.and_eq_true, beq_iff_eq, List.isEmpty_iff, decide_eq_true_eq] at shape
  obtain ⟨⟨⟨⟨⟨pending, inFlight⟩, loads⟩, announced⟩, revision⟩, shows⟩ := shape
  exact ⟨world, ⟨⟨pending, inFlight, loads⟩, announced, revision, shows⟩,
    coherent_of_admitted reached⟩

end FrontDashboard.Occurrence
