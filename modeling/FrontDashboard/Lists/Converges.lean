import FrontDashboard.Lists.Kept

/-! # The list cache converges

In every run whose steps keep the copies, the page's standing data of a list is
wrong only about what it will be told of, so that once everything has been
processed each list on screen that shows no error is the server's.

A response that lands after a later frame for the same item is used all the same,
and there the lists diverge.
-/

namespace FrontDashboard.Lists

open Query

variable {world next : World} {list : ListId}

/-! ## Runs -/

/-- **Every step** that keeps the copies keeps the invariant. -/
theorem World.Kept.step (kept : world.Kept) {action : Action} (admitted : Admitted world action)
    (moved : step world action = some next) : next.Kept := by
  cases action with
  | mount list =>
      cases moved
      refine ⟨⟨kept.good.sound.withCache _, AllTrusted.mount kept.good.mirrors list⟩,
        ⟨kept.numbered.issued, kept.numbered.distinct, kept.numbered.arrivals⟩, ?_⟩
      apply (AllTrusted.mount kept.tracks list).imp
      exact fun _ _ _ _ _ _ tracks => tracks.aside _ world.answers rfl rfl
  | unmount list =>
      cases moved
      refine ⟨⟨kept.good.sound.withCache _, AllTrusted.unmount kept.good.mirrors list⟩,
        ⟨kept.numbered.issued, kept.numbered.distinct, kept.numbered.arrivals⟩, ?_⟩
      apply (AllTrusted.unmount kept.tracks list).imp
      exact fun _ _ _ _ _ _ tracks => tracks.aside _ world.answers rfl rfl
  | write list write => exact kept.write admitted moved
  | addListItem list text =>
      cases moved
      exact kept.issue rfl
  | updateListItem list itemId body =>
      cases moved
      exact kept.issue rfl
  | deleteListItem list itemId =>
      cases moved
      exact kept.issue rfl
  | reorderListItems list orderedIds =>
      cases moved
      exact kept.drag orderedIds
  | carryOut index startedAt loaded => exact kept.carryOut admitted moved
  | refuse index => exact kept.progress (kept.good.refuse moved) (World.progresses_of_refuse moved)
  | answer index => exact kept.progress (kept.good.answer moved) (World.progresses_of_answer moved)
  | settle index => exact kept.settle admitted moved
  | deliver => exact kept.deliver admitted moved
  | serve list => exact kept.serve moved
  | load list => exact kept.load admitted moved
  | failLoad list rejection => exact kept.failLoad moved

theorem World.Fresh.good (fresh : world.Fresh) : world.Good := by
  obtain ⟨log, delivered, cache, answers, mutations, rows⟩ := fresh
  have unlogged : ∀ (serial : Nat) (commit : Commit), world.log[serial]? ≠ some commit := by
    intro serial commit logged
    rw [log] at logged
    cases logged
  constructor
  · exact {
      bounded := by rw [delivered]; exact Nat.zero_le _
      nodup := fun list => (rows list).1
      fresh := fun list => (rows list).2
      mentioned := fun serial commit _ logged => absurd logged (unlogged serial commit)
      deleted := fun serial commit _ logged => absurd logged (unlogged serial commit)
      told := fun serial commit _ logged => absurd logged (unlogged serial commit)
      answered := by
        intro list answer found
        rw [answers list] at found
        cases found
      mutations := by
        intro mutation member
        rw [mutations] at member
        cases member }
  · rw [cache]
    exact allTrusted_empty _ _

theorem World.Fresh.kept (fresh : world.Fresh) : world.Kept := by
  have good := fresh.good
  obtain ⟨-, -, cache, -, mutations, -⟩ := fresh
  refine ⟨good, ⟨?_, ?_, ?_⟩, ?_⟩
  · rw [mutations]
    exact fun _ member => absurd member List.not_mem_nil
  · rw [mutations]
    exact List.nodup_nil
  · rw [mutations]
    exact fun _ member => absurd member List.not_mem_nil
  · rw [cache]
    exact allTrusted_empty _ _

theorem kept_of_reachedWithin (reached : system.ReachedWithin Admitted world) : world.Kept := by
  refine reached.invariant ?_ ?_
  · exact fun _ fresh => fresh.kept
  · exact fun _ _ _ kept admitted moved => kept.step admitted moved

/-- Once everything has been processed the page waits for nothing. -/
theorem World.Settled.not_awaited (settled : world.Settled) (aspect : Aspect) :
    ¬ world.Awaited list aspect := by
  obtain ⟨delivered, mutations, -⟩ := settled
  rintro (⟨serial, commit, logged, -, -, pending⟩ | ⟨_, _, -, mutation, member, -⟩)
  · rcases pending with ⟨-, -, -, ahead⟩ | ⟨mutation, member, -⟩
    · have within := (List.getElem?_eq_some_iff.mp logged).1
      omega
    · rw [mutations] at member
      cases member
  · rw [mutations] at member
    cases member

theorem World.Good.converges (good : world.Good) : world.Converges := by
  intro settled entry member listened unfailed
  obtain ⟨list, present⟩ := InsertionMap.mem_values.mp member
  obtain ⟨keyed, trusted⟩ := good.mirrors list entry present
  have scope : entry.scope = list := keyed
  have standing : entry.Standing :=
    ⟨settled.2.2 entry member, unfailed, fun unread => by omega⟩
  obtain ⟨filled, unread⟩ := trusted id standing
  cases loaded : entry.state.data with
  | none =>
      have none := unread loaded
      omega
  | some detail =>
      have mirrors := filled detail loaded
      have same : detail.items = shown (world.rows list) :=
        eq_of_not_differs (good.sound.nodup list) mirrors.1 fun aspect differs =>
          settled.not_awaited aspect (mirrors.2 aspect differs)
      rw [scope]
      exact congrArg some same

/-- **The list cache converges** in every run whose steps keep the copies. -/
theorem converges_of_admitted {world : World} (reached : system.ReachedWithin Admitted world) :
    world.Converges :=
  (kept_of_reachedWithin reached).good.converges

/-- One list with two items. -/
def milk : ListItem := ⟨0, (ListItemCreate.ofText "Milk").values⟩

def bread : ListItem := ⟨1, (ListItemCreate.ofText "Bread").values⟩

/-- A page that has just opened beside the list. -/
def opened : World where
  rows := fun list => if list = 0 then [⟨milk, 0, 0⟩, ⟨bread, 1, 0⟩] else []
  nextItem := 2
  log := []
  delivered := 0
  cache := .empty
  answers := fun _ => none
  mutations := []
  journal := ⟨0, fun _ => 0, fun _ => ⟨[], .asOf 0⟩⟩

theorem opened_fresh : opened.Fresh := by
  refine ⟨rfl, rfl, rfl, fun _ => rfl, rfl, fun list => ?_⟩
  by_cases first : list = 0
  · subst first
    decide
  · have empty : opened.rows list = [] := if_neg first
    rw [empty]
    exact ⟨List.nodup_nil, fun _ member => absurd member List.not_mem_nil⟩

/-- The body that ticks or unticks an item. -/
def ticked (value : Bool) : ListItemUpdate where
  set := fun
    | .checked => some value
    | .text | .dueDate | .priority | .category | .assignedTo => none
  nonempty := ⟨.checked, rfl⟩

/-- Everything has been processed, and a list on screen without an error shows other
ticks than the server's. -/
def diverged (world : World) : Bool :=
  decide (world.delivered = world.log.length) && world.mutations.isEmpty &&
    world.cache.entries.values.all (·.inFlight.isNone) &&
      world.cache.entries.values.any fun entry =>
        0 < entry.listeners && entry.state.error.isNone &&
          !decide (entry.state.data.map (fun detail => detail.items.map (·.values .checked)) =
            some ((shown (world.rows entry.scope)).map (·.values .checked)))

theorem not_converges_of_diverged (bad : diverged world = true) : ¬ world.Converges := by
  intro converges
  simp only [diverged, Bool.and_eq_true, decide_eq_true_eq, List.isEmpty_iff, List.all_eq_true,
    List.any_eq_true, Option.isNone_iff_eq_none, Bool.not_eq_true', decide_eq_false_iff_not] at bad
  obtain ⟨⟨⟨delivered, mutations⟩, resting⟩, entry, member, ⟨listened, unfailed⟩, differ⟩ := bad
  have same := converges ⟨delivered, mutations, resting⟩ entry member listened unfailed
  apply differ
  have ticks := congrArg (Option.map (List.map fun item : ListItem => item.values .checked)) same
  rw [Option.map_map] at ticks
  exact ticks

/-- The page ticks an item, another member unticks it, and the response to the first
lands after the frame of the second. -/
theorem late_response_overwrites_frame :
    ¬ ∀ world, system.Reachable world → world.Converges := by
  intro converges
  have begins : system.Initial opened := opened_fresh
  obtain ⟨world, reached, bad⟩ := TransitionSystem.exists_reachable_of_run begins
    [.mount 0, .serve 0, .load 0, .updateListItem 0 0 (ticked true),
      .carryOut 0 0 milk.values, .answer 0,
      .write 0 (.update 0 (ticked false) (milk.patch (ticked true)).values),
      .deliver, .deliver, .settle 0] diverged (by decide)
  exact not_converges_of_diverged bad (converges world reached)

/-- Nothing has been committed since. -/
theorem stillPending_of_length_le {aspects : Aspect → Prop} {since : Nat}
    (bounded : world.log.length ≤ since) : world.StillPending list aspects since := by
  intro serial commit after logged
  have within := (List.getElem?_eq_some_iff.mp logged).1
  omega

/-- The page ticks an item and another member unticks it, in turn, and the page drags it down. -/
theorem converges_after_turns : ∃ world : World, world.Converges ∧ world.delivered = 3 ∧
    world.cache.entries.values.map (fun entry => entry.state.data.map
      fun detail => detail.items.map fun item => (item.id, item.values .checked)) =
        [some [(1, false), (0, false)]] := by
  have start : system.ReachedWithin Admitted opened := .initial opened_fresh
  have mounted := start.step (show Admitted _ (.mount 0) from trivial) rfl
  have served := mounted.step (show Admitted _ (.serve 0) from trivial) rfl
  have loaded := served.step (show Admitted _ (.load 0) by
    intro entry answer _ _ _
    exact stillPending_of_length_le (Nat.zero_le _)) rfl
  have issued := loaded.step (show Admitted _ (.updateListItem 0 0 (ticked true)) from trivial) rfl
  have carried := issued.step (show Admitted _ (.carryOut 0 0 milk.values) by
    intro mutation write found becomes
    cases found
    cases becomes
    intro item member named column value _ same
    rcases List.mem_cons.mp member with rfl | other
    · exact same.symm
    · cases List.mem_singleton.mp other
      cases named) rfl
  have answered := carried.step (show Admitted _ (.answer 0) from trivial) rfl
  have settled := answered.step (show Admitted _ (.settle 0) by
    intro mutation detail found _
    cases found
    exact fun _ => stillPending_of_length_le (Nat.le_refl _)) rfl
  have written := settled.step (show Admitted _ (.write 0 (.update 0 (ticked false)
      (milk.patch (ticked true)).values)) by
    intro item member named column value _ same
    rcases List.mem_cons.mp member with rfl | other
    · cases column <;> exact same.symm
    · cases List.mem_singleton.mp other
      cases named) rfl
  have echoed := written.step (show Admitted _ .deliver by
    intro commit detail logged foreign
    cases logged
    cases foreign) rfl
  have delivered := echoed.step (show Admitted _ .deliver by
    intro commit detail _ _ _ _
    exact stillPending_of_length_le (Nat.le_refl _)) rfl
  have dragged := delivered.step (show Admitted _ (.reorderListItems 0 [1, 0]) from trivial) rfl
  have placed := dragged.step (show Admitted _ (.carryOut 0 0 milk.values) by
    intro mutation write found becomes
    cases found
    cases becomes
    trivial) rfl
  have replied := placed.step (show Admitted _ (.answer 0) from trivial) rfl
  have landed := replied.step (show Admitted _ (.settle 0) by
    intro mutation detail found _
    cases found
    refine ⟨fun _ named _ => named, fun since floor => ?_⟩
    cases floor
    exact stillPending_of_length_le (Nat.le_refl _)) rfl
  have ignored := landed.step (show Admitted _ .deliver by
    intro commit detail logged foreign
    cases logged
    cases foreign) rfl
  exact ⟨_, converges_of_admitted ignored, rfl, rfl⟩

end FrontDashboard.Lists
