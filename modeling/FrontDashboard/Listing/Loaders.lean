import FrontDashboard.Library.SingleFlight
import FrontDashboard.Library.TransitionSystem

/-! # The loaders of the listing

`loadSummaries` and `loadTrash` within one session. Both share the promise of the load in
flight and queue a forced call; they differ in what a failing request does to a queued one.
-/

namespace FrontDashboard.Listing

variable {Summary Trashed : Type}

/-- Calls are numbered. -/
abbrev CallId := Nat

/-- The state of `loadSummaries`. `calls` numbers the calls, and `toasts` are the errors
shown. -/
structure Summaries (Summary : Type) where
  summaries : List Summary
  summariesLoaded : Bool
  summariesLoading : Bool
  flight : Flight CallId
  calls : Nat
  toasts : List String

namespace Summaries

def empty : Summaries Summary := ⟨[], false, false, .idle, 0, []⟩

/-- `loadSummaries`, up to its first suspension. -/
def loadSummaries (force : Bool) (state : Summaries Summary) : Summaries Summary :=
  let called : Summaries Summary := { state with calls := state.calls + 1 }
  if !force && state.summariesLoaded && !state.summariesLoading then called
  else if state.flight.awaiting.isSome then
    { called with flight := state.flight.join state.calls force }
  else
    { called with summariesLoading := true, flight := state.flight.begin state.calls }

/-- The end of the loop. -/
def finish (state : Summaries Summary) : Summaries Summary :=
  { state with summariesLoading := false, flight := state.flight.finish }

/-- The loop on a response. -/
def answered (nextSummaries : List Summary) (state : Summaries Summary) : Summaries Summary :=
  let stored : Summaries Summary :=
    { state with summaries := nextSummaries, summariesLoaded := true }
  if state.flight.queued then { stored with flight := state.flight.again } else stored.finish

/-- The loop on an error: a queued call has its request all the same. -/
def failed (state : Summaries Summary) : Summaries Summary :=
  if state.flight.queued then { state with flight := state.flight.again }
  else finish { state with toasts := state.toasts ++ ["Failed to load dashboards."] }

end Summaries

/-- The state of `loadTrash`. -/
structure Trash (Trashed : Type) where
  trash : List Trashed
  trashLoaded : Bool
  flight : Flight CallId
  calls : Nat

namespace Trash

def empty : Trash Trashed := ⟨[], false, .idle, 0⟩

/-- `loadTrash`, up to its first suspension. -/
def loadTrash (force : Bool) (state : Trash Trashed) : Trash Trashed :=
  let called : Trash Trashed := { state with calls := state.calls + 1 }
  if !force && state.trashLoaded then called
  else if state.flight.awaiting.isSome then
    { called with flight := state.flight.join state.calls force }
  else { called with flight := state.flight.begin state.calls }

/-- The loop on a response. -/
def answered (trash : List Trashed) (state : Trash Trashed) : Trash Trashed :=
  let stored : Trash Trashed := { state with trash := trash, trashLoaded := true }
  if state.flight.queued then { stored with flight := state.flight.again }
  else { stored with flight := state.flight.finish }

/-- The loop on an error, which leaves it. -/
def failed (state : Trash Trashed) : Trash Trashed :=
  { state with flight := state.flight.finish }

end Trash

structure World (Summary Trashed : Type) where
  summaries : Summaries Summary
  trash : Trash Trashed

inductive Action (Summary Trashed : Type)
  | loadSummaries (force : Bool)
  | summariesAnswered (summaries : List Summary)
  | summariesFailed
  | loadTrash (force : Bool)
  | trashAnswered (trash : List Trashed)
  | trashFailed

/-- The step function: a load in flight has one request, which is answered or fails. -/
def step (world : World Summary Trashed) :
    Action Summary Trashed → Option (World Summary Trashed)
  | .loadSummaries force => some { world with summaries := world.summaries.loadSummaries force }
  | .summariesAnswered summaries =>
      if world.summaries.flight.awaiting.isSome then
        some { world with summaries := world.summaries.answered summaries }
      else none
  | .summariesFailed =>
      if world.summaries.flight.awaiting.isSome then
        some { world with summaries := world.summaries.failed }
      else none
  | .loadTrash force => some { world with trash := world.trash.loadTrash force }
  | .trashAnswered trash =>
      if world.trash.flight.awaiting.isSome then
        some { world with trash := world.trash.answered trash }
      else none
  | .trashFailed =>
      if world.trash.flight.awaiting.isSome then some { world with trash := world.trash.failed }
      else none

def system (Summary Trashed : Type) :
    TransitionSystem (World Summary Trashed) (Action Summary Trashed) where
  Initial := fun world => world = ⟨.empty, .empty⟩
  step := step

/-- Each forced call that joins a load is followed by a request before its promise settles. -/
structure NotSwallowed (world : World Summary Trashed) : Prop where
  summaries : Flight.Honoured world.summaries.flight.log
  trash : Flight.Honoured world.trash.flight.log

/-- A request for the trash fails only while no forced call is queued. -/
def Admits (world : World Summary Trashed) : Action Summary Trashed → Prop
  | .trashFailed => world.trash.flight.queued = false
  | _ => True

instance (world : World Summary Trashed) (action : Action Summary Trashed) :
    Decidable (Admits world action) := by
  unfold Admits
  split <;> infer_instance

/-! ## The loops -/

/-- A step of the summaries' loader: it finishes where nothing is queued. -/
theorem summaries_turn {world next : World Summary Trashed} {action : Action Summary Trashed}
    (moved : step world action = some next) :
    world.summaries.flight.Turn True next.summaries.flight := by
  cases action with
  | loadSummaries force =>
      cases moved
      simp only [Summaries.loadSummaries]
      split_ifs with _ flying
      · exact .stay
      · exact .join _ force flying
      · exact .begin _
  | summariesAnswered summaries =>
      rw [step] at moved
      split_ifs at moved
      cases moved
      simp only [Summaries.answered]
      split_ifs with queued
      · exact .again
      · exact .finish fun _ => eq_false_of_ne_true queued
  | summariesFailed =>
      rw [step] at moved
      split_ifs at moved
      cases moved
      simp only [Summaries.failed]
      split_ifs with queued
      · exact .again
      · exact .finish fun _ => eq_false_of_ne_true queued
  | loadTrash force =>
      cases moved
      exact .stay
  | trashAnswered _ | trashFailed =>
      rw [step] at moved
      split_ifs at moved
      cases moved
      exact .stay

/-- A step of the trash's loader, which may finish over a queued call where it fails. -/
theorem trash_turn {world next : World Summary Trashed} {action : Action Summary Trashed}
    (moved : step world action = some next) :
    world.trash.flight.Turn (Admits world action) next.trash.flight := by
  cases action with
  | loadTrash force =>
      cases moved
      simp only [Trash.loadTrash]
      split_ifs with _ flying
      · exact .stay
      · exact .join _ force flying
      · exact .begin _
  | trashAnswered trash =>
      rw [step] at moved
      split_ifs at moved
      cases moved
      simp only [Trash.answered]
      split_ifs with queued
      · exact .again
      · exact .finish fun _ => eq_false_of_ne_true queued
  | trashFailed =>
      rw [step] at moved
      split_ifs at moved
      cases moved
      exact .finish id
  | loadSummaries force =>
      cases moved
      exact .stay
  | summariesAnswered _ | summariesFailed =>
      rw [step] at moved
      split_ifs at moved
      cases moved
      exact .stay

/-! ## Runs -/

/-- The invariant of runs whose steps are admitted. -/
structure Served (world : World Summary Trashed) : Prop where
  summaries : world.summaries.flight.Sound
  trash : world.trash.flight.Sound
  tracked : world.trash.flight.Tracked

theorem served_of_reached {world : World Summary Trashed}
    (reached : (system Summary Trashed).ReachedWithin Admits world) : Served world := by
  refine reached.invariant ?_ ?_
  · rintro world rfl
    exact ⟨Flight.sound_idle, Flight.sound_idle, fun flying => nomatch flying⟩
  · intro world action next served admitted moved
    have turn := trash_turn moved
    exact ⟨served.summaries.turn (summaries_turn moved) trivial,
      served.trash.turn turn admitted, served.tracked.turn turn⟩

/-- **No forced reload is swallowed** in a run whose steps are all admitted, and the first step
that is not swallows one. -/
theorem not_swallowed {world : World Summary Trashed}
    (reached : (system Summary Trashed).ReachedWithin Admits world) :
    NotSwallowed world ∧ ∀ action next, step world action = some next →
      (NotSwallowed next ↔ Admits world action) := by
  have served := served_of_reached reached
  refine ⟨⟨served.summaries.honoured, served.trash.honoured⟩, fun action next moved => ⟨?_, ?_⟩⟩
  · intro kept
    cases action with
    | trashFailed =>
        rw [step] at moved
        split_ifs at moved with flying
        cases moved
        refine eq_false_of_ne_true fun queued => ?_
        exact (served.tracked flying queued).not_honoured kept.trash
    | _ => trivial
  · intro admitted
    have after := served_of_reached (reached.step admitted moved)
    exact ⟨after.summaries.honoured, after.trash.honoured⟩

/-- A forced call joins a forced load of the trash that then fails. -/
theorem forced_reload_swallowed :
    ¬ ∀ world : World String String, (system String String).Reachable world →
      NotSwallowed world := by
  intro all
  have begins : (system String String).Initial ⟨.empty, .empty⟩ := rfl
  obtain ⟨world, reached, log⟩ := TransitionSystem.exists_reachable_of_run begins
    [.loadTrash false, .trashAnswered ["old"], .loadTrash true, .loadTrash true, .trashFailed]
    (fun world => decide (world.trash.flight.log =
      [.settled 2, .settled 1, .joined 2 true, .requested, .began 1, .settled 0, .requested,
        .began 0])) (by decide)
  have missed := (all world reached).trash 2 [] [.settled 1]
    [.requested, .began 1, .settled 0, .requested, .began 0] (of_decide_eq_true log)
  simp at missed

/-- A forced call joins loads that are answered, and a failing one of the summaries. -/
theorem forced_reload_served :
    ∃ world : World String String,
      (world.trash.trash = ["new"] ∧ world.summaries.summaries = ["mine"]) ∧
        NotSwallowed world := by
  have begins : (system String String).Initial ⟨.empty, .empty⟩ := rfl
  obtain ⟨world, reached, shape⟩ := TransitionSystem.exists_reachedWithin_of_run Admits begins
    [.loadTrash false, .loadTrash true, .loadSummaries false, .loadSummaries true,
      .summariesFailed, .trashAnswered ["old"], .trashAnswered ["new"],
      .summariesAnswered ["mine"]]
    (fun world => decide (world.trash.trash = ["new"] ∧ world.summaries.summaries = ["mine"]))
    (by decide)
  exact ⟨world, of_decide_eq_true shape, (not_swallowed reached).1⟩

end FrontDashboard.Listing
