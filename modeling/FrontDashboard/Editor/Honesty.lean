import FrontDashboard.Editor.Steps

/-! # The held version is honest

The store holds a dashboard at a version, and the layout it holds with it should be
the one the server stored at that version. Every path that takes over a whole
dashboard is honest. Three paths take over a version alone: the reply to a rename,
the reread after a conflict, and the frame of a deleted list.
-/

namespace FrontDashboard.Editor

/-- The layout is the one the server stored at the dashboard's version. -/
def Honest (server : Nat → Board) (dashboard : Dashboard) : Prop :=
  (server dashboard.id).layout.Records dashboard.version dashboard.layout.items

/-- The dashboard the store holds is honest. -/
def HeldHonest (world : World) : Prop :=
  ∀ dashboard, world.client.dashboard = some dashboard → Honest world.server dashboard

/-! ## The honest steps -/

/-- The dashboard a rebase has read again. -/
def SaveRequest.reread : SaveRequest → Option Dashboard
  | .rebase reply => reply
  | _ => none

/-- The frame removes what the deletion removed, from the version it was removed from. -/
def RemovesAlike (dashboard : Dashboard) : Frame → Prop
  | .listDeleted id list removed version => dashboard.id = id →
      let bound := Board.boundTo list dashboard.widgets
      bound = [] ∨ dashboard.version + 1 = version ∧
        (∀ widget ∈ bound, widget ∈ removed) ∧ ∀ widget ∈ removed, widget ∈ bound
  | _ => True

/-- The steps that stay honest: a version taken over alone is the version held, and a
deleted list is dropped from the version it was deleted from. -/
def StaysHonest (world : World) : Action → Prop
  | .landSave => ∀ drain ∈ world.client.drain.toList, ∀ server ∈ drain.request.reread.toList,
      ∀ dashboard ∈ world.client.dashboard.toList, server.version = dashboard.version
  | .landMutation key => ∀ request ∈ (world.client.requests.get key).toList,
      request.mutation.renames = true → ∀ reply ∈ request.reply.toList,
        ∀ dashboard ∈ world.client.dashboard.toList, dashboard.id = request.dashboardId →
          reply.version = dashboard.version
  | .deliver => ∀ frame ∈ world.frames.head?.toList, ∀ dashboard ∈ world.client.dashboard.toList,
      RemovesAlike dashboard frame
  | _ => True

/-! ## The invariant -/

theorem Honest.continues {later earlier : Nat → Board} {dashboard : Dashboard}
    (honest : Honest earlier dashboard) (longer : Continues later earlier) :
    Honest later dashboard :=
  Ledger.Records.extends honest (longer dashboard.id)

theorem honest_get (world : World) (id : Nat) : Honest world.server (world.get id) :=
  Ledger.records_current _

/-- What the frame of a deleted list says of the server: the version that left has the
layout of the version before it without the widgets removed. -/
def Truthful (server : Nat → Board) : Frame → Prop
  | .listDeleted id _ removed version => removed ≠ [] → ∃ before,
      version = before + 1 ∧ version ≤ (server id).layout.version ∧
        (server id).layout.valueAt version =
          ((server id).layout.valueAt before).filter fun item => item.i ∉ removed
  | _ => True

theorem Truthful.continues {later earlier : Nat → Board} {frame : Frame}
    (truthful : Truthful earlier frame) (longer : Continues later earlier) :
    Truthful later frame := by
  cases frame with
  | listDeleted id list removed version =>
      intro some_
      obtain ⟨before, next, bound, filtered⟩ := truthful some_
      obtain ⟨grows, same⟩ := longer id
      refine ⟨before, next, Nat.le_trans bound grows, ?_⟩
      rw [same version bound, same before (by omega)]
      exact filtered
  | _ => trivial

/-- A write tells the truth. -/
theorem truthful_announce {world : World} {dashboard : Nat} {write : Write} {own : Bool}
    {after : Board} (applied : (world.server dashboard).apply write = some after) :
    Truthful (world.announce dashboard write own after).server
      (Board.frame dashboard write (world.server dashboard) after own) := by
  cases write with
  | deleteList list =>
      intro some_
      cases applied
      simp only [World.announce, Board.removeResourceWidgets, Function.update_self]
      rw [if_neg some_]
      refine ⟨_, rfl, Nat.le_refl _, ?_⟩
      have unchanged := (Ledger.extends_write ((world.server dashboard).layout.current.filter
        fun item => item.i ∉ Board.boundTo list (world.server dashboard).widgets)
          (world.server dashboard).layout).2 _ (Nat.le_refl _)
      rw [unchanged]
      exact Ledger.write_current _ _
  | _ => trivial

/-- The invariant. -/
structure HonestSoFar (world : World) : Prop where
  held : HeldHonest world
  replies : Replies (fun _ => Honest world.server) world.client
  frames : ∀ frame ∈ world.frames, Truthful world.server frame

/-- A version taken over alone is the one held. -/
theorem Honest.of_version {server : Nat → Board} {dashboard : Dashboard} {version : Nat}
    (honest : Honest server dashboard) (same : version = dashboard.version) (name : String) :
    Honest server { dashboard with name, version } :=
  same ▸ honest

/-- A list dropped as the server deleted it leaves an honest dashboard. -/
theorem honest_dropList {server : Nat → Board} {dashboard : Dashboard} {list version : Nat}
    {removed : List Nat} (honest : Honest server dashboard)
    (truthful : Truthful server (.listDeleted dashboard.id list removed version))
    (alike : RemovesAlike dashboard (.listDeleted dashboard.id list removed version)) :
    Honest server (Client.dropList list dashboard) := by
  obtain ⟨known, stored⟩ := honest
  by_cases none_ : Board.boundTo list dashboard.widgets = []
  · have items : dashboard.layout.items.filter
        (fun item => item.i ∉ Board.boundTo list dashboard.widgets) = dashboard.layout.items := by
      simp [none_]
    refine ⟨?_, ?_⟩
    · simp only [Client.dropList, if_pos none_]
      exact known
    · simp only [Client.dropList, if_pos none_, Arrangement.change]
      rw [items]
      exact stored
  · obtain ⟨numbered, within, covers⟩ := (alike rfl).resolve_left none_
    have some_ : removed ≠ [] := by
      obtain ⟨widget, member⟩ := List.exists_mem_of_ne_nil _ none_
      exact List.ne_nil_of_mem (within widget member)
    obtain ⟨before, next, reached, filtered⟩ := truthful some_
    have from_ : before = dashboard.version := by omega
    refine ⟨?_, ?_⟩
    · simp only [Client.dropList, if_neg none_]
      omega
    · simp only [Client.dropList, if_neg none_, Arrangement.change]
      rw [numbered, filtered, from_, stored]
      apply List.filter_congr
      intro item _
      have same : item.i ∈ removed ↔ item.i ∈ Board.boundTo list dashboard.widgets :=
        ⟨covers item.i, within item.i⟩
      simp [same]

theorem HonestSoFar.step {world next : World} {action : Action} (honest : HonestSoFar world)
    (stays : StaysHonest world action) (moved : step world action = some next) :
    HonestSoFar next := by
  have longer := step_continues moved
  have replies := honest.replies.mono fun _ reply known => known.continues longer
  refine ⟨?_, replies.step (honest_get next) moved, ?_⟩
  · intro dashboard holdsNext
    have shown := step_held moved
    rw [holdsNext] at shown
    suffices earlier : Honest world.server dashboard from earlier.continues longer
    generalize same : some dashboard = after at shown
    cases shown with
    | kept => exact honest.held dashboard same.symm
    | loaded found answered latest =>
        cases same
        exact honest.replies.loads _ _ _ found answered
    | refused => cases same
    | deleted => cases same
    | @saved drain version saved draining request =>
        cases same
        have replied : drain.request.reply = some saved := by
          rw [request]
          rfl
        exact honest.replies.drain drain saved draining replied
    | rebased draining request =>
        obtain ⟨before, held, rfl⟩ := Option.map_eq_some_iff.mp same.symm
        refine (honest.held before held).of_version ?_ before.name
        exact stays _ (by simpa using draining) _ (by rw [request]; simp [SaveRequest.reread]) _
          (by simpa using held)
    | mutated found answered =>
        cases same
        exact honest.replies.requests _ _ _ found answered
    | renamed found answered renames =>
        obtain ⟨before, held, rfl⟩ := Option.map_eq_some_iff.mp same.symm
        split
        next named =>
          refine (honest.held before held).of_version ?_ _
          exact stays _ (by simpa using found) renames _ (by simpa using answered) _
            (by simpa using held) named
        next => exact honest.held before held
    | @configured _ _ before widgets _ _ _ holds =>
        cases same
        have known : Honest world.server before := honest.held before holds
        exact known
    | @patched before widgets holds =>
        cases same
        have known : Honest world.server before := honest.held before holds
        exact known
    | @dropped before list version removed rest holds front =>
        cases same
        have member : .listDeleted before.id list removed version ∈ world.frames := by
          rw [front]
          exact List.mem_cons_self
        have alike : RemovesAlike before (.listDeleted before.id list removed version) :=
          stays _ (by rw [front]; simp) _ (by simpa using holds)
        exact honest_dropList (honest.held before holds) (honest.frames _ member) alike
  · intro frame member
    rcases step_server moved with ⟨same, old⟩ | ⟨dashboard, write, own, after, applied, same, new⟩
    · rw [same]
      exact honest.frames frame (old frame member)
    · rw [new] at member
      rcases List.mem_append.mp member with earlier | latest
      · exact (honest.frames frame earlier).continues longer
      · cases List.mem_singleton.mp latest
        rw [same]
        exact truthful_announce applied

theorem honestSoFar_of_initial {world : World} (begins : system.Initial world) :
    HonestSoFar world := by
  obtain ⟨fresh, quiet, -⟩ := begins
  refine ⟨?_, ?_, ?_⟩
  · intro dashboard holds
    rw [fresh] at holds
    cases holds
  · rw [fresh]
    exact ⟨nofun, nofun, nofun⟩
  · rw [quiet]
    nofun

/-- **Honesty** of the dashboard held, in every run of honest steps. -/
theorem heldHonest_of_staysHonest {world : World}
    (reached : system.ReachedWithin StaysHonest world) : HeldHonest world := by
  have honest : HonestSoFar world := by
    apply reached.invariant
    · exact fun _ => honestSoFar_of_initial
    · intro before action after honest stays moved
      exact honest.step stays moved
  exact honest.held

/-! ## Runs -/

instance (dashboard : Dashboard) (frame : Frame) : Decidable (RemovesAlike dashboard frame) := by
  unfold RemovesAlike
  split <;> infer_instance

instance (world : World) (action : Action) : Decidable (StaysHonest world action) := by
  rcases action <;> dsimp only [StaysHonest] <;> infer_instance

/-- Whether the store holds a layout other than the one stored at the version held. -/
def dishonest (world : World) : Bool :=
  world.client.dashboard.any fun dashboard =>
    (world.server dashboard.id).layout.valueAt dashboard.version != dashboard.layout.items

theorem not_heldHonest_of_dishonest {world : World} (bad : dishonest world = true) :
    ¬ HeldHonest world := by
  intro honest
  unfold dishonest at bad
  simp only [Option.any_eq_true, bne_iff_ne, ne_eq] at bad
  obtain ⟨dashboard, holds, differs⟩ := bad
  exact differs (honest dashboard holds).2

/-- The reply to a rename brings the version of another editor's layout, without it. -/
theorem rename_takes_version_over :
    ¬ ∀ world, system.Reachable world → HeldHonest world := by
  intro honest
  obtain ⟨world, reached, bad⟩ := TransitionSystem.exists_reachable_of_run sharedBoard_initial
    [.navigate 0, .serveLoad 1, .landLoad 1,
      .write 0 (.layout [⟨1, 0, 0, 4, 4⟩, ⟨2, 8, 8, 4, 4⟩]), .mutate 0 0 (.renameDashboard "Den"),
      .serveMutation 0 ⟨0, 0, 0, 0, 0⟩, .landMutation 0] dishonest (by decide)
  exact not_heldHonest_of_dishonest bad (honest world reached)

/-- A rename and a save keep the version honest when no one else writes. -/
theorem heldHonest_after_save :
    ∃ world, world.client.dashboard.map (·.version) = some 1 ∧ HeldHonest world := by
  obtain ⟨world, reached, shape⟩ := TransitionSystem.exists_reachedWithin_of_run StaysHonest
    sharedBoard_initial
    [.navigate 0, .serveLoad 1, .landLoad 1, .mutate 0 0 (.renameDashboard "Den"),
      .serveMutation 0 ⟨0, 0, 0, 0, 0⟩, .landMutation 0, .mountGrid, .grab,
      .drop [⟨1, 0, 10, 4, 4⟩] [], .serveSave, .landSave]
    (fun world => world.client.dashboard.map (·.version) == some 1) (by decide)
  exact ⟨world, by simpa using shape, heldHonest_of_staysHonest reached⟩

end FrontDashboard.Editor
