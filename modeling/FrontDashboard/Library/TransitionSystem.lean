import Mathlib.Data.Option.Basic

/-! # Transition systems with guarded runs

A transition system is a partial step function: an action is refused or leads
to exactly one successor. A *guard* selects, state by state, the actions a run
may take, so that a property of the runs which avoid some step is a property of
the states reached within the corresponding guard. Unguarded runs are the
special case of the guard that accepts everything.
-/

/-- A system that starts in one of its initial states and moves by actions. -/
structure TransitionSystem (State Action : Type*) where
  Initial : State → Prop
  step : State → Action → Option State

namespace TransitionSystem

variable {State Action : Type*} (system : TransitionSystem State Action)

/-- The state after a list of actions, provided the guard and the system accept
each in turn. -/
def run (guard : State → Action → Prop) [∀ state action, Decidable (guard state action)] :
    State → List Action → Option State
  | state, [] => some state
  | state, action :: rest =>
      if guard state action then (system.step state action).bind fun next => run guard next rest
      else none

/-- The states reached from an initial state by steps the guard accepts. -/
inductive ReachedWithin (guard : State → Action → Prop) : State → Prop
  | initial {state : State} : system.Initial state → ReachedWithin guard state
  | step {state next : State} {action : Action} :
      ReachedWithin guard state → guard state action → system.step state action = some next →
        ReachedWithin guard next

/-- The states reached from an initial state by any steps at all. -/
def Reachable (state : State) : Prop :=
  system.ReachedWithin (fun _ _ => True) state

variable {system}

/-- **Invariants of guarded runs.** What holds initially and is kept by every
step the guard accepts holds in every state reached within the guard. -/
theorem ReachedWithin.invariant {guard : State → Action → Prop} {property : State → Prop}
    (initially : ∀ state, system.Initial state → property state)
    (preserved : ∀ state action next, property state → guard state action →
      system.step state action = some next → property next)
    {state : State} (reached : system.ReachedWithin guard state) : property state := by
  induction reached with
  | initial start => exact initially _ start
  | step _ accepted moved ih => exact preserved _ _ _ ih accepted moved

/-- An invariant may be established on top of one already known. -/
theorem ReachedWithin.invariant_of {guard : State → Action → Prop}
    {known property : State → Prop}
    (knows : ∀ state, system.ReachedWithin guard state → known state)
    (initially : ∀ state, system.Initial state → property state)
    (preserved : ∀ state action next, known state → known next → property state →
      guard state action → system.step state action = some next → property next)
    {state : State} (reached : system.ReachedWithin guard state) : property state := by
  induction reached with
  | initial start => exact initially _ start
  | step before accepted moved ih =>
      exact preserved _ _ _ (knows _ before) (knows _ (before.step accepted moved)) ih
        accepted moved

/-- Runs of a stronger guard are runs of a weaker one. -/
theorem ReachedWithin.weaken {guard weaker : State → Action → Prop}
    (implies : ∀ state action, guard state action → weaker state action)
    {state : State} (reached : system.ReachedWithin guard state) :
    system.ReachedWithin weaker state := by
  induction reached with
  | initial start => exact .initial start
  | step _ accepted moved ih => exact ih.step (implies _ _ accepted) moved

/-- A guarded run is a run. -/
theorem ReachedWithin.reachable {guard : State → Action → Prop} {state : State}
    (reached : system.ReachedWithin guard state) : system.Reachable state :=
  reached.weaken fun _ _ _ => trivial

/-- Running a list of actions within the guard reaches its result within it. -/
theorem ReachedWithin.run {guard : State → Action → Prop}
    [∀ state action, Decidable (guard state action)] {state final : State}
    (reached : system.ReachedWithin guard state) {actions : List Action}
    (result : system.run guard state actions = some final) : system.ReachedWithin guard final := by
  induction actions generalizing state with
  | nil =>
      cases result
      exact reached
  | cons action rest ih =>
      unfold TransitionSystem.run at result
      split at result
      next accepted =>
        obtain ⟨next, moved, remaining⟩ := Option.bind_eq_some_iff.mp result
        exact ih (reached.step accepted moved) remaining
      next => cases result

/-- A run from an initial state whose result passes a test exhibits a state
reached within the guard that passes it. -/
theorem exists_reachedWithin_of_run (guard : State → Action → Prop)
    [∀ state action, Decidable (guard state action)] {start : State}
    (begins : system.Initial start) (actions : List Action) (test : State → Bool)
    (passes : (system.run guard start actions).any test = true) :
    ∃ state, system.ReachedWithin guard state ∧ test state = true := by
  cases result : system.run guard start actions with
  | none => simp [result] at passes
  | some final =>
      rw [result] at passes
      have reached : system.ReachedWithin guard start := .initial begins
      exact ⟨final, reached.run result, passes⟩

/-- The same for unguarded runs. -/
theorem exists_reachable_of_run {start : State} (begins : system.Initial start)
    (actions : List Action) (test : State → Bool)
    (passes : (system.run (fun _ _ => True) start actions).any test = true) :
    ∃ state, system.Reachable state ∧ test state = true :=
  exists_reachedWithin_of_run _ begins actions test passes

/-- **Runs that look alike.** Where an action that is seen keeps two states alike, and one that is
not seen keeps a state like another, a run ends like the run of what is seen of it. -/
theorem run_filter {guard : State → Action → Prop} [∀ state action, Decidable (guard state action)]
    {seen : Action → Bool} {Alike : State → State → Prop}
    (together : ∀ first second action first' second', Alike first second → seen action = true →
      guard first action → guard second action → system.step first action = some first' →
        system.step second action = some second' → Alike first' second')
    (alone : ∀ first second action first', Alike first second → seen action = false →
      guard first action → system.step first action = some first' → Alike first' second)
    {actions : List Action} {first second last last' : State} (alike : Alike first second)
    (ran : system.run guard first actions = some last)
    (ran' : system.run guard second (actions.filter seen) = some last') : Alike last last' := by
  induction actions generalizing first second with
  | nil =>
      cases ran
      cases ran'
      exact alike
  | cons action rest ih =>
      unfold TransitionSystem.run at ran
      split at ran
      next accepted =>
        obtain ⟨next, moved, remaining⟩ := Option.bind_eq_some_iff.mp ran
        by_cases visible : seen action = true
        · rw [List.filter_cons_of_pos visible] at ran'
          unfold TransitionSystem.run at ran'
          split at ran'
          next accepted' =>
            obtain ⟨next', moved', remaining'⟩ := Option.bind_eq_some_iff.mp ran'
            exact ih (together _ _ _ _ _ alike visible accepted accepted' moved moved') remaining
              remaining'
          next => cases ran'
        · rw [List.filter_cons_of_neg visible] at ran'
          exact ih (alone _ _ _ _ alike (eq_false_of_ne_true visible) accepted moved) remaining ran'
      next => cases ran

end TransitionSystem
