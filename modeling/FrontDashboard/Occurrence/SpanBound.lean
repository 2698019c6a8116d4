import Mathlib.Algebra.Order.BigOperators.Group.List
import FrontDashboard.Occurrence.Coherence
import FrontDashboard.Occurrence.ExactCoverage

/-! # The cap on retained coverage

Trimming drops whole intervals and always keeps the nearest one. The retained span is within the
cap after a fetch exactly if the interval into which the fetched one was merged is.
-/

namespace FrontDashboard.Occurrence

open HalfOpen

variable {covered : List Interval} {interval keep : Interval} {point : Millis} {Details : Type}

def width (interval : Interval) : Millis := interval.stop - interval.start

theorem width_pos (interval : Interval) : 0 < width interval :=
  Int.sub_pos_of_lt interval.nonempty

theorem coveredSpan_append (first second : List Interval) :
    coveredSpan (first ++ second) = coveredSpan first + coveredSpan second := by
  rw [coveredSpan, List.map_append, List.sum_append]
  rfl

theorem coveredSpan_perm {first second : List Interval} (same : first.Perm second) :
    coveredSpan first = coveredSpan second :=
  (same.map _).sum_eq

theorem width_le_coveredSpan (member : interval ∈ covered) :
    width interval ≤ coveredSpan covered := by
  refine List.single_le_sum ?_ _ (List.mem_map_of_mem member)
  intro value present
  obtain ⟨other, -, rfl⟩ := List.mem_map.mp present
  exact (width_pos other).le

/-! ## What is retained -/

/-- The loop of `trim`, once it has kept an interval, stays within the cap. -/
theorem foldl_retainOne (rest : List Interval) (state : List Interval × Millis)
    (kept : state.1 ≠ []) (span : state.2 = coveredSpan state.1) :
    ∃ more, more.Sublist rest ∧ (rest.foldl retainOne state).1 = state.1 ++ more ∧
      (state.2 ≤ maxCoveredMs → coveredSpan (state.1 ++ more) ≤ maxCoveredMs) := by
  induction rest generalizing state with
  | nil =>
      refine ⟨[], .slnil, (List.append_nil _).symm, fun within => ?_⟩
      rwa [List.append_nil, ← span]
  | cons interval rest ih =>
      rw [List.foldl_cons, retainOne]
      split_ifs with full
      · obtain ⟨more, sublist, same, bound⟩ := ih state kept span
        exact ⟨more, sublist.cons interval, same, bound⟩
      · have fits : state.2 + width interval ≤ maxCoveredMs :=
          not_lt.mp fun beyond => full ⟨beyond, kept⟩
        have span' : state.2 + width interval = coveredSpan (state.1 ++ [interval]) := by
          rw [coveredSpan_append, span, coveredSpan]
          simp [coveredSpan, width]
        obtain ⟨more, sublist, same, bound⟩ :=
          ih (state.1 ++ [interval], state.2 + width interval) (by simp) span'
        refine ⟨interval :: more, sublist.cons_cons interval, ?_, fun _ => ?_⟩
        · exact same.trans (List.append_cons _ _ _).symm
        · rw [List.append_cons]
          exact bound fits

/-- An interval is at no distance exactly if it touches the one to keep. -/
theorem distance_le_zero : distance keep interval ≤ 0 ↔ keep.Touches interval := by
  rw [distance, max_le_iff, max_le_iff]
  constructor
  · rintro ⟨-, before, after⟩
    exact ⟨Int.le_of_sub_nonpos before, Int.le_of_sub_nonpos after⟩
  · rintro ⟨before, after⟩
    exact ⟨le_rfl, Int.sub_nonpos_of_le before, Int.sub_nonpos_of_le after⟩

/-- **What trimming keeps**: the nearest interval, and more of the others within the cap. -/
theorem retain_of_beyond (beyond : maxCoveredMs < coveredSpan covered) {whole : Interval}
    (member : whole ∈ covered) (near : keep.Touches whole)
    (alone : ∀ other ∈ covered, keep.Touches other → other = whole) :
    ∃ rest more, (whole :: rest).Perm covered ∧ more.Sublist rest ∧
      retain covered keep = (whole :: more).insertionSort (fun a b => a.start ≤ b.start) ∧
        (width whole ≤ maxCoveredMs → coveredSpan (whole :: more) ≤ maxCoveredMs) := by
  have ordered := List.pairwise_insertionSort
    (fun a b : Interval => distance keep a ≤ distance keep b) covered
  have perm := List.perm_insertionSort
    (fun a b : Interval => distance keep a ≤ distance keep b) covered
  rw [retain, if_neg (not_le.mpr beyond)]
  cases sorted : covered.insertionSort fun a b => distance keep a ≤ distance keep b with
  | nil =>
      rw [sorted] at perm
      cases perm.symm.subset member
  | cons first rest =>
      rw [sorted] at perm ordered
      have isWhole : first = whole := by
        refine alone first (perm.subset List.mem_cons_self) (distance_le_zero.mp ?_)
        rcases List.mem_cons.mp (perm.symm.subset member) with rfl | later
        · exact distance_le_zero.mpr near
        · exact ((List.pairwise_cons.mp ordered).1 whole later).trans (distance_le_zero.mpr near)
      subst isWhole
      have start : retainOne ([], 0) first = ([first], width first) := by
        rw [retainOne]
        simp [width]
      obtain ⟨more, sublist, same, bound⟩ := foldl_retainOne rest ([first], width first)
        (List.cons_ne_nil _ _) (by simp [coveredSpan, width])
      refine ⟨rest, more, perm, sublist, ?_, bound⟩
      rw [List.foldl_cons, start, same, List.singleton_append]

/-! ## A fetch -/

/-- The covered intervals after a fetch: the merge of the fetched one, and what it does not
touch. -/
theorem addInterval_perm (separated : Separated covered) (interval : Interval) :
    (addInterval covered interval).Perm (merged covered interval ::
      covered.filter fun other => !decide (interval.Touches other)) := by
  rw [addInterval_eq separated]
  exact (List.perm_insertionSort _ _).trans (List.perm_append_singleton _ _)

theorem merged_mem (separated : Separated covered) (interval : Interval) :
    merged covered interval ∈ addInterval covered interval :=
  (addInterval_perm separated interval).symm.subset List.mem_cons_self

theorem touches_merged (covered : List Interval) (interval : Interval) :
    interval.Touches (merged covered interval) := by
  obtain ⟨starts, stops⟩ :=
    foldl_hull_start_le (covered.filter fun other => decide (interval.Touches other)) interval
  exact ⟨interval.nonempty.le.trans stops, starts.trans interval.nonempty.le⟩

/-- Of the intervals covered after a fetch the fetched one touches its merge alone. -/
theorem eq_merged_of_touches (separated : Separated covered) {other : Interval}
    (member : other ∈ addInterval covered interval) (touches : interval.Touches other) :
    other = merged covered interval := by
  rcases List.mem_cons.mp ((addInterval_perm separated interval).subset member) with same | kept
  · exact same
  · have apart := (List.mem_filter.mp kept).2
    simp [touches] at apart

/-- The merge is retained, and the rest is apart from it and within the cap with it. -/
theorem retained_after (separated : Separated covered) (interval : Interval) :
    ∃ more, (retain (addInterval covered interval) interval).Perm
        (merged covered interval :: more) ∧
      (width (merged covered interval) ≤ maxCoveredMs →
        coveredSpan (merged covered interval :: more) ≤ maxCoveredMs) ∧
      Separated (retain (addInterval covered interval) interval) := by
  have separated' := Separated.addInterval separated interval
  have member := merged_mem separated interval
  by_cases within : coveredSpan (addInterval covered interval) ≤ maxCoveredMs
  · have perm := List.perm_cons_erase member
    refine ⟨(addInterval covered interval).erase (merged covered interval), ?_, fun _ => ?_, ?_⟩
    · rw [retain, if_pos within]
      exact perm
    · rw [← coveredSpan_perm perm]
      exact within
    · rw [retain, if_pos within]
      exact separated'
  · obtain ⟨rest, more, whole, sublist, kept, bound⟩ := retain_of_beyond (not_le.mp within) member
      (touches_merged covered interval) fun other present => eq_merged_of_touches separated present
    have apart : (merged covered interval :: rest).Pairwise fun first second : Interval =>
        first.stop < second.start ∨ second.stop < first.start :=
      whole.symm.pairwise (separated'.imp .inl) Or.symm
    rw [kept]
    exact ⟨more, List.perm_insertionSort _ _, bound,
      separated_insertionSort (apart.sublist (sublist.cons_cons _))⟩

/-- **The span after a fetch** is within the cap exactly if the merge is. -/
theorem coveredSpan_retain_iff (separated : Separated covered) (interval : Interval) :
    coveredSpan (retain (addInterval covered interval) interval) ≤ maxCoveredMs ↔
      width (merged covered interval) ≤ maxCoveredMs := by
  obtain ⟨more, perm, bound, -⟩ := retained_after separated interval
  rw [coveredSpan_perm perm]
  exact ⟨fun within => (width_le_coveredSpan List.mem_cons_self).trans within, bound⟩

/-- The fetched interval is covered. -/
theorem covers_retain (separated : Separated covered) (inside : point ∈ interval) :
    Covers (retain (addInterval covered interval) interval) point := by
  obtain ⟨more, perm, -, -⟩ := retained_after separated interval
  exact ⟨merged covered interval, perm.symm.subset List.mem_cons_self, mem_merged_of_mem inside⟩

/-! ## Runs -/

/-- The fetched interval, with the covered ones that it touches, is within the cap. -/
def Fits (world : World Details) : Action Details → Prop
  | .land interval => width (merged world.entry.covered interval) ≤ maxCoveredMs
  | _ => True

instance (world : World Details) (action : Action Details) : Decidable (Fits world action) := by
  rcases action <;> dsimp only [Fits] <;> infer_instance

/-- The steps of loads: not a retry, an invalidation or a write of the server. -/
def Action.ofLoads : Action Details → Bool
  | .refetch _ | .write _ | .invalidate _ => false
  | _ => true

/-- What a step does to the coverage, the store and the answers. -/
inductive Effect (world next : World Details) : Action Details → Prop
  | quiet {action : Action Details} (covered : next.entry.covered = world.entry.covered)
      (byKey : next.entry.byKey = world.entry.byKey) (calendar : next.calendar = world.calendar)
      (answered : ∀ interval fetched, next.entry.inFlight.get interval = some (some fetched) →
        world.entry.inFlight.get interval = some (some fetched) ∨
          fetched = world.calendar.list interval) : Effect world next action
  | landed {interval : Interval} {fetched : List (CalendarOccurrence Details)}
      (answered : world.entry.inFlight.get interval = some (some fetched))
      (entry : next.entry = world.entry.land interval fetched)
      (calendar : next.calendar = world.calendar) : Effect world next (.land interval)
  | disturbed {action : Action Details} (disturbs : action.ofLoads = false)
      (covered : next.entry.covered = world.entry.covered ∨ next.entry.covered = []) :
      Effect world next action

/-- **Every step** has one of these effects. -/
theorem effect_of_step {world next : World Details} {action : Action Details}
    (moved : step world action = some next) : Effect world next action := by
  cases action with
  | mount _ _ | unmount _ =>
      cases moved
      exact .quiet rfl rfl rfl fun _ _ => .inl
  | refetch watcher =>
      rw [step] at moved
      split at moved
      · cases moved
      · cases moved
        exact .disturbed rfl (.inr rfl)
  | flush =>
      cases moved
      have begun := begun_runLoads { world.entry with pending := [] }
        (Entry.batchLoads world.entry.pending)
      exact .quiet begun.covered begun.byKey rfl fun interval fetched present =>
        .inl (begun.answered interval fetched present)
  | serve interval =>
      rw [step] at moved
      split at moved
      · cases moved
        refine .quiet rfl rfl rfl fun other fetched present => ?_
        rcases InsertionMap.get_of_insert present with ⟨rfl, answer⟩ | ⟨-, before⟩
        · cases answer
          exact .inr rfl
        · exact .inl before
      · cases moved
  | land interval =>
      rw [step] at moved
      split at moved
      next fetched found =>
        cases moved
        exact .landed found rfl rfl
      next => cases moved
  | fail interval message =>
      rw [step] at moved
      split at moved
      · cases moved
        exact .quiet rfl rfl rfl fun _ _ present => .inl (InsertionMap.get_of_delete present)
      · cases moved
  | resume index =>
      rw [step] at moved
      split at moved
      next => cases moved
      next entry resumed =>
        cases moved
        rw [Entry.resume] at resumed
        split at resumed
        next => cases resumed
        next load _ =>
          split at resumed
          next =>
            cases resumed
            exact .quiet rfl rfl rfl fun _ _ => .inl
          next =>
            split_ifs at resumed
            cases resumed
            exact .quiet rfl rfl rfl fun _ _ => .inl
  | write calendar =>
      cases moved
      exact .disturbed rfl (.inl rfl)
  | invalidate upTo =>
      rw [step] at moved
      split_ifs at moved
      cases moved
      exact .disturbed rfl (.inr (reload_frame world.entry).1)

/-- However the steps went, coverage is separated. -/
theorem separated_of_reached {guard : World Details → Action Details → Prop}
    {world : World Details} (reached : (system Details).ReachedWithin guard world) :
    Separated world.entry.covered := by
  refine @TransitionSystem.ReachedWithin.invariant _ _ _ _
    (fun world => Separated world.entry.covered) ?_ ?_ _ reached
  · rintro world ⟨empty, -, -⟩
    rw [empty]
    exact .nil
  · intro world action next separated _ moved
    cases effect_of_step moved with
    | quiet covered =>
        rw [covered]
        exact separated
    | @landed interval _ _ entry =>
        obtain ⟨_, -, -, after⟩ := retained_after separated interval
        rw [entry]
        exact after
    | disturbed _ covered =>
        rcases covered with same | none
        · rw [same]
          exact separated
        · rw [none]
          exact .nil

/-- **The retained span is bounded** in every run in which each fetched interval, with what it
touches, is within the cap, and what was just fetched is covered. -/
theorem span_bounded {world : World Details} (reached : (system Details).ReachedWithin Fits world) :
    coveredSpan world.entry.covered ≤ maxCoveredMs ∧
      ∀ interval next, step world (.land interval) = some next →
        ∀ point ∈ interval, Covers next.entry.covered point := by
  have separated := separated_of_reached reached
  constructor
  · refine @TransitionSystem.ReachedWithin.invariant_of _ _ _ _
      (fun world => Separated world.entry.covered)
      (fun world => coveredSpan world.entry.covered ≤ maxCoveredMs)
      (fun _ before => separated_of_reached before) ?_ ?_ _ reached
    · rintro world ⟨empty, -, -⟩
      rw [empty]
      exact Int.mul_nonneg (by decide) (by decide)
    · intro world action next separated _ bounded fits moved
      cases effect_of_step moved with
      | quiet covered =>
          rw [covered]
          exact bounded
      | landed _ entry =>
          rw [entry]
          exact (coveredSpan_retain_iff separated _).mpr fits
      | disturbed _ covered =>
          rcases covered with same | none
          · rw [same]
            exact bounded
          · rw [none]
            exact Int.mul_nonneg (by decide) (by decide)
  · intro interval next moved point inside
    rw [step] at moved
    split at moved
    next fetched _ =>
      cases moved
      exact covers_retain separated inside
    next => cases moved

/-- Three years of 366 days, one after the other. -/
def firstYear : Interval := ⟨0, 31622400000, by decide⟩

def secondYear : Interval := ⟨31622400000, 63244800000, by decide⟩

def thirdYear : Interval := ⟨63244800000, 94867200000, by decide⟩

/-- Two windows of 366 days that abut are retained together. -/
theorem span_unbounded :
    ¬ ∀ world : World String, (system String).Reachable world →
      coveredSpan world.entry.covered ≤ maxCoveredMs := by
  intro bounded
  have begins : (system String).Initial freshWorld := ⟨rfl, rfl, rfl⟩
  obtain ⟨world, reached, beyond⟩ := TransitionSystem.exists_reachable_of_run begins
    [.mount 0 firstYear, .flush, .serve firstYear, .land firstYear, .resume 0, .unmount 0,
      .mount 0 secondYear, .flush, .serve secondYear, .land secondYear]
    (fun world => decide (maxCoveredMs < coveredSpan world.entry.covered)) (by decide +kernel)
  exact not_le.mpr (of_decide_eq_true beyond) (bounded world reached)

/-- A window of 366 days that is fetched after one it does not touch is retained alone. -/
theorem span_bounded_trimmed :
    ∃ world : World String, world.entry.covered = [thirdYear] ∧
      coveredSpan world.entry.covered ≤ maxCoveredMs := by
  have begins : (system String).Initial freshWorld := ⟨rfl, rfl, rfl⟩
  obtain ⟨world, reached, shape⟩ := TransitionSystem.exists_reachedWithin_of_run Fits begins
    [.mount 0 firstYear, .flush, .serve firstYear, .land firstYear, .resume 0, .unmount 0,
      .mount 0 thirdYear, .flush, .serve thirdYear, .land thirdYear]
    (fun world => decide (world.entry.covered = [thirdYear])) (by decide +kernel)
  exact ⟨world, of_decide_eq_true shape, (span_bounded reached).1⟩

end FrontDashboard.Occurrence
