import Mathlib.Data.List.Nodup

/-! # Journals of atomic steps

A journal lists steps in the order in which a state took them. It is lawful when every
step was permitted in the state it met. What concurrent requests did is often best said
by a lawful journal of atomic steps whose replay gives the rows there are.
-/

namespace Journal

variable {State Step : Type*} (apply : State → Step → State) (permits : State → Step → Prop)

/-- The state that a journal leads to. -/
def replay (state : State) (steps : List Step) : State := steps.foldl apply state

/-- Every step was permitted where it was taken. -/
def Lawful : State → List Step → Prop
  | _, [] => True
  | state, step :: rest => permits state step ∧ Lawful (apply state step) rest

variable {apply permits}

@[simp] theorem replay_nil (state : State) : replay apply state [] = state := rfl

@[simp] theorem replay_cons (state : State) (step : Step) (rest : List Step) :
    replay apply state (step :: rest) = replay apply (apply state step) rest := rfl

theorem replay_append (state : State) (before after : List Step) :
    replay apply state (before ++ after) = replay apply (replay apply state before) after :=
  List.foldl_append

@[simp] theorem replay_concat (state : State) (steps : List Step) (step : Step) :
    replay apply state (steps ++ [step]) = apply (replay apply state steps) step :=
  replay_append state steps [step]

theorem lawful_append {state : State} {before after : List Step} :
    Lawful apply permits state (before ++ after) ↔
      Lawful apply permits state before ∧
        Lawful apply permits (replay apply state before) after := by
  induction before generalizing state with
  | nil => simp [Lawful]
  | cons step rest ih => simp only [List.cons_append, Lawful, replay_cons, ih, and_assoc]

/-- **One more step.** -/
theorem Lawful.concat {state : State} {steps : List Step} {step : Step}
    (lawful : Lawful apply permits state steps)
    (permitted : permits (replay apply state steps) step) :
    Lawful apply permits state (steps ++ [step]) :=
  lawful_append.mpr ⟨lawful, permitted, trivial⟩

/-- A step was permitted after what stands before it. -/
theorem Lawful.permitted {state : State} {before after : List Step} {step : Step}
    (lawful : Lawful apply permits state (before ++ step :: after)) :
    permits (replay apply state before) step :=
  (lawful_append.mp lawful).2.1

/-- What the permitted steps of a journal preserve holds at the end. -/
theorem Lawful.preserves {p : State → Prop} {state : State} {steps : List Step}
    (lawful : Lawful apply permits state steps)
    (step : ∀ state, ∀ step ∈ steps, permits state step → p state →
      p (apply state step))
    (begins : p state) : p (replay apply state steps) := by
  induction steps generalizing state with
  | nil => exact begins
  | cons first rest ih =>
      apply ih lawful.2
      · intro state next member
        exact step state next (List.mem_cons_of_mem first member)
      · exact step state first List.mem_cons_self lawful.1 begins

/-- **At most once.** Where a step closes its key for good and none takes a closed key, no
key is taken twice. -/
theorem Lawful.nodup {Key : Type*} (key : Step → Key) (closed : State → Key → Prop)
    (opened : ∀ state step, permits state step → ¬ closed state (key step))
    (closes : ∀ state step, permits state step → closed (apply state step) (key step))
    (stays : ∀ state step taken, closed state taken → closed (apply state step) taken)
    {state : State} {steps : List Step} (lawful : Lawful apply permits state steps) :
    (steps.map key).Nodup := by
  -- A key that is closed at the start does not occur.
  have absent : ∀ (steps : List Step) (state : State) (taken : Key),
      Lawful apply permits state steps → closed state taken → taken ∉ steps.map key := by
    intro steps
    induction steps with
    | nil => simp
    | cons first rest ih =>
        intro state taken lawful shut
        have different : taken ≠ key first := by
          intro same
          subst same
          exact opened state first lawful.1 shut
        simp only [List.map_cons, List.mem_cons, not_or]
        exact ⟨different, ih _ taken lawful.2 (stays state first taken shut)⟩
  induction steps generalizing state with
  | nil => exact List.nodup_nil
  | cons first rest ih =>
      rw [List.map_cons, List.nodup_cons]
      exact ⟨absent rest _ _ lawful.2 (closes state first lawful.1), ih lawful.2⟩

end Journal
