import FrontDashboard.Editor.Steps

/-! # Layout saves and other editors' updates

When the server accepts a layout, each entry that the user did not move should be the
one the server held at the version the save was checked against. The version sent is
the one the store holds when the save goes out; the layout was drawn earlier, on
entries read at other versions, and all of them are laid over those reread after a
conflict. A save is harmless when others have only added entries since the layout was
drawn, and the client has reread the version it sends or stored it itself.
-/

namespace FrontDashboard.Editor

/-! ## Entries -/

/-- An entry of two parts is the first one's, or else the second one's. -/
theorem entry_append (first second : List LayoutItem) (id : Nat) :
    entry (first ++ second) id = (entry first id).or (entry second id) := by
  simp [entry, List.find?_append]

/-- A layout has an entry for the widgets it places. -/
theorem entry_isSome {layout : List LayoutItem} {id : Nat} :
    (entry layout id).isSome = true ↔ id ∈ layout.map (·.i) := by
  simp [entry]

/-- A layout has an entry for no others. -/
theorem entry_eq_none {layout : List LayoutItem} {id : Nat} (absent : id ∉ layout.map (·.i)) :
    entry layout id = none := by
  rw [← entry_isSome] at absent
  simpa using absent

/-- An entry is about the widget it is looked up by. -/
theorem entry_i {layout : List LayoutItem} {id : Nat} {item : LayoutItem}
    (found : entry layout id = some item) : item.i = id := by
  have matched := List.find?_some found
  simpa using matched

/-- Changing entries in place, without changing whose they are. -/
theorem entry_map {change : LayoutItem → LayoutItem} (keeps : ∀ item, (change item).i = item.i)
    (layout : List LayoutItem) (id : Nat) :
    entry (layout.map change) id = (entry layout id).map change := by
  have same : (fun item => decide (item.i = id)) ∘ change = fun item => decide (item.i = id) := by
    funext item
    exact congrArg (fun i => decide (i = id)) (keeps item)
  rw [entry, entry, List.find?_map, same]

/-- A filter that keeps a widget's entries leaves its entry. -/
theorem entry_filter_of_forall {layout : List LayoutItem} {keep : LayoutItem → Bool} {id : Nat}
    (keeps : ∀ item, item.i = id → keep item = true) :
    entry (layout.filter keep) id = entry layout id := by
  unfold entry
  rw [List.find?_filter]
  congr 1
  funext item
  by_cases same : item.i = id
  · simp [same, keeps item same]
  · simp [same]

/-- A rebase has our entry where we have one, and the server's elsewhere. -/
theorem entry_rebase (server ours : Arrangement) (id : Nat) :
    entry (server.rebase ours).items id = (entry ours.items id).or (entry server.items id) := by
  have keeps : ∀ item : LayoutItem, ((entry ours.items item.i).getD item).i = item.i := by
    intro item
    cases found : entry ours.items item.i with
    | none => rfl
    | some other => exact entry_i found
  unfold Arrangement.rebase
  rw [entry_append, entry_map keeps]
  cases known : entry server.items id with
  | some item =>
      rw [Option.map_some, entry_i known, Option.some_or]
      cases entry ours.items id <;> rfl
  | none =>
      have unknown : id ∉ server.items.map (·.i) := by
        rw [← entry_isSome, known]
        nofun
      rw [entry_filter_of_forall, Option.map_none, Option.none_or, Option.or_none]
      intro item same
      rw [same]
      simpa using unknown

/-- Entries that the grid draws from, by their widgets. -/
theorem entry_filterMap {place : DashboardWidget → Option LayoutItem}
    (named : ∀ widget item, place widget = some item → item.i = widget.id)
    {widgets : List DashboardWidget} {id : Nat} :
    (id ∉ widgets.map (·.id) → entry (widgets.filterMap place) id = none) ∧
      (∀ found : Option LayoutItem, id ∈ widgets.map (·.id) →
        (∀ widget ∈ widgets, widget.id = id → place widget = found) →
          entry (widgets.filterMap place) id = found) := by
  constructor
  · intro absent
    apply entry_eq_none
    intro member
    obtain ⟨item, among, rfl⟩ := List.mem_map.mp member
    obtain ⟨widget, present, placed⟩ := List.mem_filterMap.mp among
    exact absent (named widget item placed ▸ List.mem_map_of_mem present)
  · intro found present same
    induction widgets with
    | nil => cases present
    | cons widget rest ih =>
        obtain ⟨first, others⟩ := List.forall_mem_cons.mp same
        by_cases own : widget.id = id
        · cases found with
          | some item =>
              rw [List.filterMap_cons, first own]
              simp [entry, named widget item (first own), own]
          | none =>
              rw [List.filterMap_cons, first own]
              by_cases again : id ∈ rest.map (·.id)
              · exact ih again others
              · apply entry_eq_none
                intro member
                obtain ⟨item, among, rfl⟩ := List.mem_map.mp member
                obtain ⟨other, inRest, placed⟩ := List.mem_filterMap.mp among
                exact again (named other item placed ▸ List.mem_map_of_mem inRest)
        · have later : id ∈ rest.map (·.id) := by
            rcases List.mem_cons.mp present with here | there
            · exact absurd here.symm own
            · exact there
          cases placed : place widget with
          | none =>
              rw [List.filterMap_cons, placed]
              exact ih later others
          | some item =>
              have different : item.i ≠ id := by
                rw [named widget item placed]
                exact own
              have tail := ih later others
              unfold entry at tail ⊢
              rw [List.filterMap_cons, placed, List.find?_cons_of_neg (by simpa using different),
                tail]

/-! ## What a layout was drawn on -/

/-- Since it was drawn on and until it was reread, the entry was left alone where it was. -/
def Left (board : Board) (reading : Reading) (id : Nat) : Prop :=
  ∀ version < reading.upTo, reading.since ≤ version →
    id ∈ (board.layout.valueAt version).map (·.i) →
      entry (board.layout.valueAt (version + 1)) id = entry (board.layout.valueAt version) id

/-- **A layout that was read** has, of each widget that the user did not move and others left
alone where it was, the entry that was reread. -/
def Drawn (server : Nat → Board) (layout : Arrangement) : Prop :=
  ∀ reading ∈ layout.reading, reading.since ≤ reading.upTo ∧
    reading.upTo ≤ (server reading.dashboard).layout.version ∧
      ∀ id ∉ layout.moved, Left (server reading.dashboard) reading id →
        entry layout.items id =
          entry ((server reading.dashboard).layout.valueAt reading.upTo) id

/-- What a longer board leaves a widget, a shorter one left it too. -/
theorem Left.of_extends {later earlier : Board} (longer : later.layout.Extends earlier.layout)
    {reading : Reading} (known : reading.upTo ≤ earlier.layout.version) {id : Nat}
    (left : Left later reading id) : Left earlier reading id := by
  intro version before since present
  have here := longer.2 version (Nat.le_trans (Nat.le_of_lt before) known)
  have next := longer.2 (version + 1) (Nat.le_trans before known)
  rw [← here] at present
  rw [← here, ← next]
  exact left version before since present

/-- A layout drawn from the boards is still drawn from what they become. -/
theorem Drawn.continues {later earlier : Nat → Board} {layout : Arrangement}
    (drawn : Drawn earlier layout) (longer : Continues later earlier) : Drawn later layout := by
  intro reading read
  obtain ⟨ordered, known, same⟩ := drawn reading read
  obtain ⟨grows, unchanged⟩ := longer reading.dashboard
  refine ⟨ordered, Nat.le_trans known grows, fun id unmoved left => ?_⟩
  rw [unchanged reading.upTo known]
  exact same id unmoved (left.of_extends ⟨grows, unchanged⟩ known)

/-- The layout is as the server answered it. -/
def Fresh (layout : Arrangement) : Prop :=
  layout.moved = [] ∧ ∀ reading ∈ layout.reading, reading.since = reading.upTo

/-- The layout a load answers with is fresh. -/
theorem fresh_get (world : World) (id : Nat) : Fresh (world.get id).layout := by
  refine ⟨rfl, fun reading read => ?_⟩
  cases read
  rfl

/-- The layout a load answers with is drawn from the boards. -/
theorem drawn_get (world : World) (id : Nat) : Drawn world.server (world.get id).layout := by
  intro reading read
  cases read
  exact ⟨Nat.le_refl _, Nat.le_refl _, fun widget _ _ => rfl⟩

/-- Changing entries on the page draws from the same boards. -/
theorem Drawn.change {server : Nat → Board} {layout : Arrangement} (drawn : Drawn server layout)
    (items : List LayoutItem) : Drawn server (layout.change items) := by
  intro reading read
  unfold Arrangement.change at read ⊢
  dsimp only at read ⊢
  split at read
  next same =>
    rw [same]
    exact drawn reading read
  next => cases read

/-- An entry that is left alone is the same from any version on. -/
theorem entry_of_left {board : Board} {id first last : Nat} {item : LayoutItem}
    (ordered : first ≤ last)
    (left : ∀ version < last, first ≤ version → id ∈ (board.layout.valueAt version).map (·.i) →
      entry (board.layout.valueAt (version + 1)) id = entry (board.layout.valueAt version) id)
    (found : entry (board.layout.valueAt first) id = some item) :
    entry (board.layout.valueAt last) id = some item := by
  induction ordered with
  | refl => exact found
  | @step version after ih =>
      have here := ih fun earlier before => left earlier (Nat.lt_succ_of_lt before)
      have present : id ∈ (board.layout.valueAt version).map (·.i) := by
        rw [← entry_isSome, here]
        rfl
      rw [left version (Nat.lt_succ_self _) after present, here]

/-- **A rebase** merges a layout with what was added since it was drawn. -/
theorem Drawn.rebase {server : Nat → Board} {known ours : Arrangement}
    (theirs : Drawn server known) (fresh : Fresh known) (drawn : Drawn server ours) :
    Drawn server (known.rebase ours) := by
  intro reading read
  obtain ⟨own, readOurs, read⟩ := Option.bind_eq_some_iff.mp read
  obtain ⟨their, readTheirs, rfl⟩ := Option.map_eq_some_iff.mp read
  obtain ⟨readTheirs, condition⟩ := Option.filter_eq_some_iff.mp readTheirs
  obtain ⟨same, later⟩ := of_decide_eq_true condition
  obtain ⟨ordered, -, mine⟩ := drawn own readOurs
  obtain ⟨-, reached, reread⟩ := theirs their readTheirs
  rw [same] at reached reread
  refine ⟨Nat.le_trans ordered later, reached, fun id unmoved left => ?_⟩
  dsimp only at left ⊢
  rw [entry_rebase]
  have toOwn : Left (server own.dashboard) own id :=
    fun version before => left version (Nat.lt_of_lt_of_le before later)
  have drawnOn := mine id unmoved toOwn
  cases found : entry ours.items id with
  | some item =>
      rw [found] at drawnOn
      rw [Option.some_or]
      refine (entry_of_left later (fun version before since => ?_) drawnOn.symm).symm
      exact left version before (Nat.le_trans ordered since)
  | none =>
      rw [Option.none_or]
      apply reread id (by simp [fresh.1])
      intro version before since
      rw [fresh.2 their readTheirs] at since
      exact absurd before (Nat.not_lt_of_le since)

/-- The grid has a child for each entry, and an entry or the gesture's place for each child. -/
def Fits (widgets : List DashboardWidget) (gestured shown : List LayoutItem) : Prop :=
  (∀ item ∈ shown, item.i ∈ widgets.map (·.id)) ∧
    ∀ widget ∈ widgets, widget.id ∈ shown.map (·.i) ++ gestured.map (·.i)

/-- A gesture moves its own entries alone. -/
theorem Drawn.arrange {server : Nat → Board} {shown : Arrangement} (drawn : Drawn server shown)
    {widgets : List DashboardWidget} {gestured : List LayoutItem} (fitted : List LayoutItem)
    (fits : Fits widgets gestured shown.items) :
    Drawn server (shown.arrange widgets gestured fitted) := by
  intro reading read
  obtain ⟨ordered, known, same⟩ := drawn reading read
  refine ⟨ordered, known, fun id unmoved left => ?_⟩
  obtain ⟨still, before⟩ := not_or.mp (fun moved => unmoved (List.mem_append.mpr moved))
  rw [← same id before left]
  have named : ∀ (widget : DashboardWidget) (item : LayoutItem),
      ((entry gestured widget.id).or (entry shown.items widget.id)).or (entry fitted widget.id) =
        some item → item.i = widget.id := by
    intro widget item placed
    rcases Option.or_eq_some_iff.mp placed with drawn | ⟨-, fitted⟩
    · rcases Option.or_eq_some_iff.mp drawn with own | ⟨-, old⟩
      · exact entry_i own
      · exact entry_i old
    · exact entry_i fitted
  have entries := @entry_filterMap _ named widgets id
  by_cases child : id ∈ widgets.map (·.id)
  · apply entries.2 _ child
    intro widget present own
    have there : id ∈ shown.items.map (·.i) := by
      have covered := fits.2 widget present
      rw [own] at covered
      exact (List.mem_append.mp covered).resolve_right still
    rw [own, entry_eq_none still, Option.none_or]
    exact Option.or_of_isSome (entry_isSome.mpr there)
  · refine (entries.1 child).trans (entry_eq_none fun there => child ?_).symm
    obtain ⟨item, among, rfl⟩ := List.mem_map.mp there
    exact fits.1 item among

/-! ## The layouts in the client's hands -/

/-- Every layout the client may still save satisfies the predicate. -/
structure Layouts (predicate : Arrangement → Prop) (client : Client) : Prop where
  pending : ∀ pending, client.pendingLayoutSave = some pending → predicate pending.layout
  drain : ∀ drain, client.drain = some drain → predicate drain.pending.layout
  draft : ∀ draft, client.draft = some draft → predicate draft.layout
  gesture : ∀ shown, client.gesture = some shown → predicate shown

section Layouts

variable {predicate : Arrangement → Prop} {client : Client}

/-- A weaker property holds of the same layouts. -/
theorem Layouts.mono {weaker : Arrangement → Prop} (layouts : Layouts predicate client)
    (implies : ∀ layout, predicate layout → weaker layout) : Layouts weaker client :=
  ⟨fun _ queued => implies _ (layouts.pending _ queued),
    fun _ draining => implies _ (layouts.drain _ draining),
    fun _ drafted => implies _ (layouts.draft _ drafted),
    fun _ grabbed => implies _ (layouts.gesture _ grabbed)⟩

/-- A step that leaves what is being saved leaves the property. -/
theorem Layouts.of_kept (layouts : Layouts predicate client) {next : Client}
    (saving : SavingKept client next) : Layouts predicate next := by
  constructor
  · rw [saving.pending]
    exact layouts.pending
  · rw [saving.drain]
    exact layouts.drain
  · rw [saving.draft]
    exact layouts.draft
  · rw [saving.gesture]
    exact layouts.gesture

/-- Starting the next save leaves the property. -/
theorem Layouts.drainNext (layouts : Layouts predicate client) :
    Layouts predicate client.drainNext := by
  unfold Client.drainNext
  split
  next pending dashboard queued _ =>
    split
    · refine ⟨nofun, ?_, layouts.draft, layouts.gesture⟩
      intro drain draining
      cases draining
      exact layouts.pending pending queued
    · exact ⟨nofun, nofun, layouts.draft, layouts.gesture⟩
  next => exact ⟨nofun, nofun, layouts.draft, layouts.gesture⟩

/-- Asking for a save of a layout that has it leaves the property. -/
theorem Layouts.saveLayout (layouts : Layouts predicate client) {layout : Arrangement}
    (satisfied : predicate layout) : Layouts predicate (client.saveLayout layout) := by
  unfold Client.saveLayout
  split
  next => exact layouts
  next dashboard _ =>
    have queued : Layouts predicate
        { client with pendingLayoutSave := some ⟨dashboard.id, layout, false⟩ } := by
      refine ⟨?_, layouts.drain, layouts.draft, layouts.gesture⟩
      intro pending same
      cases same
      exact satisfied
    dsimp only
    split
    · exact queued
    · exact queued.drainNext

/-- Dropping a widget leaves the property. -/
theorem Layouts.drop (layouts : Layouts predicate client) (dashboard : Dashboard)
    {layout : Arrangement} (satisfied : predicate layout) :
    Layouts predicate (client.drop dashboard layout) := by
  have dropped : Layouts predicate
      { client with draft := some ⟨layout, dashboard.version⟩, gesture := none } := by
    refine ⟨layouts.pending, layouts.drain, ?_, nofun⟩
    intro draft same
    cases same
    exact satisfied
  unfold Client.drop
  dsimp only
  split
  · exact dropped
  · exact dropped.saveLayout satisfied

/-- A landing leaves the property, where the rebased layout has it. -/
theorem Layouts.landSave (layouts : Layouts predicate client) {drain : Drain}
    (draining : client.drain = some drain)
    (replay : ∀ server, drain.request.reply = some server →
      predicate (server.layout.rebase drain.pending.layout)) :
    Layouts predicate (client.landSave drain) := by
  unfold Client.landSave
  split
  next =>
    unfold Client.landConflict
    split
    · exact ⟨nofun, nofun, layouts.draft, layouts.gesture⟩
    · refine ⟨layouts.pending, ?_, layouts.draft, layouts.gesture⟩
      intro other same
      cases same
      exact layouts.drain drain draining
  next => exact Layouts.drainNext ⟨layouts.pending, layouts.drain, layouts.draft, layouts.gesture⟩
  next server request =>
    apply Layouts.drainNext
    refine ⟨?_, layouts.drain, layouts.draft, layouts.gesture⟩
    intro pending queued
    rcases Option.or_eq_some_iff.mp queued with newer | ⟨-, same⟩
    · exact layouts.pending pending newer
    · cases same
      exact replay server (by rw [request]; rfl)
  next => exact layouts

/-- **Layouts** after a step are made from those before it. -/
theorem Layouts.step {world next : World} {action : Action}
    (layouts : Layouts predicate world.client)
    (held : ∀ dashboard, world.client.dashboard = some dashboard → predicate dashboard.layout)
    (replay : ∀ drain server, world.client.drain = some drain →
      drain.request.reply = some server → predicate (server.layout.rebase drain.pending.layout))
    (arrange : ∀ gestured fitted dashboard shown, action = .drop gestured fitted →
      world.client.dashboard = some dashboard → world.client.gesture = some shown →
        predicate shown → predicate (shown.arrange dashboard.widgets gestured fitted))
    (moved : step world action = some next) : Layouts predicate next.client := by
  cases step_moves moved with
  | navigate => exact layouts.of_kept (Client.navigate_savingKept _ _)
  | resync => exact layouts.of_kept (Client.request_savingKept _ _ _)
  | runRefresh =>
      have kept : Layouts predicate { world.client with dashboardRefresh := none } :=
        layouts.of_kept ⟨rfl, rfl, rfl, rfl, rfl⟩
      exact kept.of_kept (Client.request_savingKept _ _ _)
  | landLoad => exact layouts.of_kept (Client.landLoad_savingKept _ _ _ _)
  | failLoad => exact layouts.of_kept (Client.failLoad_savingKept _ _ _ _)
  | deliver => exact layouts.of_kept (Client.receive_savingKept _ _)
  | @landMutation key =>
      have kept : Layouts predicate { world.client with
          requests := world.client.requests.delete key } :=
        ⟨layouts.pending, layouts.drain, layouts.draft, layouts.gesture⟩
      exact kept.of_kept (Client.landMutation_savingKept _ _ _ _)
  | mountGrid =>
      refine ⟨layouts.pending, layouts.drain, ?_, nofun⟩
      intro draft drafted
      obtain ⟨dashboard, holds, rfl⟩ := Option.map_eq_some_iff.mp drafted
      exact held dashboard holds
  | @grab dashboard holds =>
      refine ⟨layouts.pending, layouts.drain, layouts.draft, ?_⟩
      intro shown same
      cases same
      unfold Client.shown
      split
      next draft drafted =>
        split
        · exact layouts.draft draft drafted
        · exact held dashboard holds
      next => exact held dashboard holds
  | drop holds grabbed =>
      exact layouts.drop _ (arrange _ _ _ _ rfl holds grabbed (layouts.gesture _ grabbed))
  | @accept drain draining version waiting current after applied next same =>
      subst same
      refine ⟨layouts.pending, ?_, layouts.draft, layouts.gesture⟩
      intro other same
      cases same
      exact layouts.drain drain draining
  | @refuse drain version draining =>
      refine ⟨layouts.pending, ?_, layouts.draft, layouts.gesture⟩
      intro other same
      cases same
      exact layouts.drain drain draining
  | @reread drain draining =>
      refine ⟨layouts.pending, ?_, layouts.draft, layouts.gesture⟩
      intro other same
      cases same
      exact layouts.drain drain draining
  | @landSave drain draining => exact layouts.landSave draining (replay drain · draining)
  | failSave =>
      unfold Client.failSave
      split <;> exact ⟨nofun, nofun, layouts.draft, layouts.gesture⟩
  | _ => exact ⟨layouts.pending, layouts.drain, layouts.draft, layouts.gesture⟩

end Layouts

/-- The invariant: whatever the client may save was drawn on what it has read. -/
structure DrawnSoFar (world : World) : Prop where
  held : ∀ dashboard, world.client.dashboard = some dashboard →
    Drawn world.server dashboard.layout
  replies : Replies (fun _ reply => Drawn world.server reply.layout ∧ Fresh reply.layout)
    world.client
  layouts : Layouts (Drawn world.server) world.client

/-! ## Accepted layouts -/

/-- The version of a PUT the server has not answered yet. -/
def SaveRequest.proposed : SaveRequest → Option Nat
  | .put version none => some version
  | _ => none

/-- The server is about to accept the layout of the drain at a version. -/
def Accepts (world : World) (pending : PendingLayoutSave) (version : Nat) : Prop :=
  ∃ drain, world.client.drain = some drain ∧ drain.pending = pending ∧
    drain.request.proposed = some version ∧
      (world.server pending.dashboardId).layout.version = version

/-- Each entry the user did not move is the one the server holds at the version. -/
def Preserves (world : World) (pending : PendingLayoutSave) (version : Nat) : Prop :=
  ∀ id ∉ pending.layout.moved, entry pending.layout.items id =
    entry ((world.server pending.dashboardId).layout.valueAt version) id

/-- A write leaves the entries where they are, but for some. -/
def LeavesBut (moved : List Nat) (before after : List LayoutItem) : Prop :=
  ∀ item ∈ before, item.i ∈ moved ∨ entry after item.i = entry before item.i

instance (moved : List Nat) (before after : List LayoutItem) :
    Decidable (LeavesBut moved before after) := by
  unfold LeavesBut
  infer_instance

/-- This client wrote over the version, with a layout in which it had moved nothing that it has
not moved in this one. -/
def WroteOver (world : World) (pending : PendingLayoutSave) (version : Nat) : Prop :=
  ∃ save ∈ world.saves, save.dashboard = pending.dashboardId ∧ save.version = version ∧
    ∀ id ∈ save.moved, id ∈ pending.layout.moved

instance (world : World) (pending : PendingLayoutSave) (version : Nat) :
    Decidable (WroteOver world pending version) := by
  unfold WroteOver
  infer_instance

/-- Between the version a layout was drawn on and the one it was reread at, nobody moved or
removed an entry but those that the user moves; from there on only this client wrote. -/
def Follows (world : World) (pending : PendingLayoutSave) (reading : Reading) (version : Nat) :
    Prop :=
  reading.dashboard = pending.dashboardId ∧
    (∀ earlier < reading.upTo, reading.since ≤ earlier → LeavesBut pending.layout.moved
      ((world.server pending.dashboardId).layout.valueAt earlier)
      ((world.server pending.dashboardId).layout.valueAt (earlier + 1))) ∧
    ∀ later < version, reading.upTo ≤ later → WroteOver world pending later

/-- The steps that lose no update: the server accepts only layouts that follow what was
written, and the grid draws what it shows. -/
def KeepsUp (world : World) : Action → Prop
  | .serveSave => ∀ drain ∈ world.client.drain, ∀ version ∈ drain.request.proposed,
      (world.server drain.pending.dashboardId).layout.version = version →
        ∃ reading ∈ drain.pending.layout.reading, Follows world drain.pending reading version
  | .drop gestured _ => ∀ dashboard ∈ world.client.dashboard, ∀ shown ∈ world.client.gesture,
      Fits dashboard.widgets gestured shown.items
  | _ => True

/-- A step keeps the layouts drawn from the boards. -/
theorem DrawnSoFar.step {world next : World} {action : Action} (drawn : DrawnSoFar world)
    (keepsUp : KeepsUp world action) (moved : step world action = some next) :
    DrawnSoFar next := by
  have longer := step_continues moved
  have replies : Replies (fun _ reply => Drawn next.server reply.layout ∧ Fresh reply.layout)
      world.client :=
    drawn.replies.mono fun _ reply known => ⟨known.1.continues longer, known.2⟩
  have layouts : Layouts (Drawn next.server) world.client :=
    drawn.layouts.mono fun layout known => known.continues longer
  have held : ∀ dashboard, world.client.dashboard = some dashboard →
      Drawn next.server dashboard.layout :=
    fun dashboard holds => (drawn.held dashboard holds).continues longer
  refine ⟨?_, replies.step (fun id => ⟨drawn_get next id, fresh_get next id⟩) moved, ?_⟩
  · intro dashboard holdsNext
    have shown := step_held moved
    rw [holdsNext] at shown
    generalize same : some dashboard = after at shown
    cases shown with
    | kept => exact held dashboard same.symm
    | loaded found answered =>
        cases same
        exact (replies.loads _ _ _ found answered).1
    | refused => cases same
    | deleted => cases same
    | @saved drain version saved draining request =>
        cases same
        have replied : drain.request.reply = some saved := by
          rw [request]
          rfl
        exact (replies.drain drain saved draining replied).1
    | rebased =>
        obtain ⟨before, holds, rfl⟩ := Option.map_eq_some_iff.mp same.symm
        exact held before holds
    | mutated found answered =>
        cases same
        exact (replies.requests _ _ _ found answered).1
    | renamed =>
        obtain ⟨before, holds, rfl⟩ := Option.map_eq_some_iff.mp same.symm
        split <;> exact held before holds
    | @configured _ _ before widgets _ _ _ holds =>
        cases same
        exact held before holds
    | @patched before widgets holds =>
        cases same
        exact held before holds
    | @dropped before list version removed rest holds front =>
        cases same
        exact (held before holds).change _
  · apply layouts.step held ?_ ?_ moved
    · intro drain server draining replied
      obtain ⟨known, fresh⟩ := replies.drain drain server draining replied
      exact known.rebase fresh (layouts.drain drain draining)
    · rintro gestured fitted dashboard shown rfl holds grabbed known
      exact known.arrange fitted (keepsUp dashboard holds shown grabbed)

/-- At first the layouts are drawn from the boards. -/
theorem drawnSoFar_of_initial {world : World} (begins : system.Initial world) :
    DrawnSoFar world := by
  obtain ⟨fresh, -⟩ := begins
  refine ⟨?_, ?_, ?_⟩
  · intro dashboard holds
    rw [fresh] at holds
    cases holds
  · rw [fresh]
    exact ⟨nofun, nofun, nofun⟩
  · rw [fresh]
    exact ⟨nofun, nofun, nofun, nofun⟩

/-- The saves that were accepted left alone what the user did not move. -/
def SavesKeep (world : World) : Prop :=
  ∀ save ∈ world.saves, save.version < (world.server save.dashboard).layout.version ∧
    ∀ id ∉ save.moved,
      entry ((world.server save.dashboard).layout.valueAt (save.version + 1)) id =
        entry ((world.server save.dashboard).layout.valueAt save.version) id

/-- **A layout that follows what was written** preserves what the user did not move. -/
theorem Follows.preserves {world : World} {pending : PendingLayoutSave} {reading : Reading}
    {version : Nat} (follows : Follows world pending reading version)
    (read : reading ∈ pending.layout.reading) (drawn : Drawn world.server pending.layout)
    (saves : SavesKeep world)
    (current : (world.server pending.dashboardId).layout.version = version) :
    Preserves world pending version := by
  obtain ⟨own, alone, stored⟩ := follows
  obtain ⟨-, known, same⟩ := drawn reading read
  rw [own] at known same
  rw [current] at known
  intro id unmoved
  have reread := same id unmoved (fun earlier before since present => by
    obtain ⟨item, member, rfl⟩ := List.mem_map.mp present
    exact (alone earlier before since item member).resolve_left unmoved)
  rw [reread]
  clear current reread
  induction known with
  | refl => rfl
  | @step later after ih =>
      rw [ih fun middle before => stored middle (Nat.lt_succ_of_lt before)]
      obtain ⟨save, recorded, home, rfl, only⟩ := stored later (Nat.lt_succ_self _) after
      have leaves := (saves save recorded).2 id (fun moved => unmoved (only id moved))
      rw [home] at leaves
      exact leaves.symm

/-- What a step adds to the saves on record. -/
theorem step_saves {world next : World} {action : Action}
    (moved : step world action = some next) :
    next.saves = world.saves ∨ ∃ drain version, action = .serveSave ∧
      Accepts world drain.pending version ∧ world.client.drain = some drain ∧
        drain.request.proposed = some version ∧
        next.saves = world.saves ++
          [⟨drain.pending.dashboardId, version, drain.pending.layout.moved⟩] ∧
        (next.server drain.pending.dashboardId).layout =
          (world.server drain.pending.dashboardId).layout.write drain.pending.layout.items := by
  cases step_moves moved with
  | @accept drain draining version waiting current after applied next same =>
      subst same
      cases applied
      have proposed : drain.request.proposed = some version := by
        rw [waiting]
        rfl
      refine .inr ⟨drain, version, rfl, ⟨drain, draining, rfl, proposed, current⟩, draining,
        proposed, rfl, ?_⟩
      simp [World.answerSave, World.announce]
  | _ => exact .inl rfl

/-- A step keeps what every accepted save preserved, where the one it serves preserves it. -/
theorem SavesKeep.step {world next : World} {action : Action} (saves : SavesKeep world)
    (preserves : action = .serveSave → ∀ pending version, Accepts world pending version →
      Preserves world pending version)
    (moved : step world action = some next) : SavesKeep next := by
  have longer := step_continues moved
  have older : ∀ save ∈ world.saves,
      save.version < (next.server save.dashboard).layout.version ∧ ∀ id ∉ save.moved,
        entry ((next.server save.dashboard).layout.valueAt (save.version + 1)) id =
          entry ((next.server save.dashboard).layout.valueAt save.version) id := by
    intro save recorded
    obtain ⟨before, kept⟩ := saves save recorded
    obtain ⟨grows, unchanged⟩ := longer save.dashboard
    refine ⟨Nat.lt_of_lt_of_le before grows, fun id unmoved => ?_⟩
    rw [unchanged _ before, unchanged _ (Nat.le_of_lt before)]
    exact kept id unmoved
  rcases step_saves moved with same | ⟨drain, version, act, accepts, -, -, recorded, wrote⟩
  · unfold SavesKeep
    rw [same]
    exact older
  · intro save member
    rw [recorded] at member
    rcases List.mem_append.mp member with earlier | latest
    · exact older save earlier
    · rw [List.mem_singleton.mp latest]
      dsimp only
      have ⟨_, _, _, _, current⟩ := accepts
      rw [wrote, ← current]
      refine ⟨Nat.lt_succ_self _, fun id unmoved => ?_⟩
      have kept := preserves act drain.pending version accepts id unmoved
      rw [← current] at kept
      simpa [Ledger.write] using kept

/-- **No lost update.** In a run that keeps up, an accepted layout preserves every entry
the user did not move. -/
theorem preserves_of_keepsUp {world : World} (reached : system.ReachedWithin KeepsUp world)
    (keepsUp : KeepsUp world .serveSave) {pending : PendingLayoutSave} {version : Nat}
    (accepts : Accepts world pending version) : Preserves world pending version := by
  have one : ∀ {world : World}, DrawnSoFar world → SavesKeep world → KeepsUp world .serveSave →
      ∀ pending version, Accepts world pending version → Preserves world pending version := by
    rintro world drawn saves keepsUp _ version ⟨drain, draining, rfl, proposed, current⟩
    obtain ⟨reading, read, follows⟩ := keepsUp drain draining version proposed current
    exact follows.preserves read (drawn.layouts.drain drain draining) saves current
  have sound : DrawnSoFar world ∧ SavesKeep world := by
    apply reached.invariant
    · intro start begins
      refine ⟨drawnSoFar_of_initial begins, ?_⟩
      rw [SavesKeep, begins.2.2]
      exact List.forall_mem_nil _
    · rintro before action after ⟨drawn, saves⟩ keeps moved
      refine ⟨drawn.step keeps moved, saves.step ?_ moved⟩
      rintro rfl
      exact one drawn saves keeps
  exact one sound.1 sound.2 keepsUp pending version accepts

/-! ## Runs -/

instance (world : World) (pending : PendingLayoutSave) (reading : Reading) (version : Nat) :
    Decidable (Follows world pending reading version) := by
  unfold Follows
  infer_instance

instance (widgets : List DashboardWidget) (gestured shown : List LayoutItem) :
    Decidable (Fits widgets gestured shown) := by
  unfold Fits
  infer_instance

instance (world : World) (action : Action) : Decidable (KeepsUp world action) := by
  unfold KeepsUp
  split <;> infer_instance

/-- Whether the server is about to accept a layout that reverts or drops an entry the
user did not move. -/
def losing (world : World) : Bool :=
  world.client.drain.any fun drain =>
    let board := (world.server drain.pending.dashboardId).layout
    drain.request.proposed == some board.version &&
      board.current.any fun item => item.i ∉ drain.pending.layout.moved &&
        entry drain.pending.layout.items item.i != entry board.current item.i

/-- A world found to lose an entry preserves not every one. -/
theorem not_preserves_of_losing {world : World} (bad : losing world = true) :
    ¬ ∀ pending version, Accepts world pending version → Preserves world pending version := by
  intro preserves
  simp only [losing, Option.any_eq_true, List.any_eq_true, Bool.and_eq_true, beq_iff_eq,
    bne_iff_ne, ne_eq, decide_eq_true_eq] at bad
  obtain ⟨drain, draining, proposed, item, -, unmoved, differs⟩ := bad
  exact differs (preserves drain.pending _ ⟨drain, draining, rfl, proposed, rfl⟩ item.i unmoved)

/-- After a conflict the whole stale layout is laid over the other editor's: the widget
they moved goes back to where it was. -/
theorem rebase_reverts_other_editor :
    ¬ ∀ world, system.Reachable world → ∀ pending version, Accepts world pending version →
      Preserves world pending version := by
  intro preserves
  obtain ⟨world, reached, bad⟩ := TransitionSystem.exists_reachable_of_run sharedBoard_initial
    [.navigate 0, .serveLoad 1, .landLoad 1, .mountGrid,
      .write 0 (.layout [⟨1, 0, 0, 4, 4⟩, ⟨2, 8, 8, 4, 4⟩]), .grab, .drop [⟨1, 0, 12, 4, 4⟩] [],
      .serveSave, .landSave, .serveSave, .landSave] losing (by decide)
  exact not_preserves_of_losing bad (preserves world reached)

/-- The user drags the second widget while the first is being saved, and another editor adds
one: the second drag conflicts, and its replay keeps what was added. -/
theorem preserves_added_widget : ∃ world pending version, (Accepts world pending version ∧
    pending.layout.items =
      [⟨1, 0, 12, 4, 4⟩, ⟨2, 8, 12, 4, 4⟩, ⟨7, 0, 8, 4, 4⟩]) ∧
      Preserves world pending version := by
  obtain ⟨world, reached, shape⟩ := TransitionSystem.exists_reachedWithin_of_run KeepsUp
    sharedBoard_initial
    [.navigate 0, .serveLoad 1, .landLoad 1, .mountGrid, .grab, .drop [⟨1, 0, 12, 4, 4⟩] [],
      .grab, .drop [⟨2, 8, 12, 4, 4⟩] [], .serveSave, .landSave,
      .write 0 (.add ⟨7, none, ""⟩ ⟨7, 0, 8, 4, 4⟩), .serveSave, .landSave, .serveSave, .landSave]
    (fun world => decide (KeepsUp world .serveSave) && world.client.drain.any fun drain =>
      drain.request.proposed ==
          some (world.server drain.pending.dashboardId).layout.version &&
        drain.pending.layout.items ==
          [⟨1, 0, 12, 4, 4⟩, ⟨2, 8, 12, 4, 4⟩, ⟨7, 0, 8, 4, 4⟩]) (by decide)
  simp only [Bool.and_eq_true, decide_eq_true_eq, Option.any_eq_true, beq_iff_eq] at shape
  obtain ⟨keepsUp, drain, draining, proposed, added⟩ := shape
  have accepts : Accepts world drain.pending _ := ⟨drain, draining, rfl, proposed, rfl⟩
  exact ⟨world, drain.pending, _, ⟨accepts, added⟩,
    preserves_of_keepsUp reached keepsUp accepts⟩

end FrontDashboard.Editor
