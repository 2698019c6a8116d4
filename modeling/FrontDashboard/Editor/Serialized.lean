import FrontDashboard.Editor.SaveQueue

/-! # Layout saves go out one at a time

The flag is taken exactly while one call is suspended. The last layout requested is
pending or was the last one sent, until a failure drops what is pending: the call that
fails clears the queue, also of a drag that landed while its request was open. In the
runs where none has, the last layout requested is the last one sent once nothing is in
flight.
-/

namespace FrontDashboard.Editor.SaveQueue

open Boards

variable {saves next : Saves} {action : Action} {call : Call} {layout : Layout}

/-! ## One call at a time -/

/-- The flag is free and nothing waits, or the flag is taken by the only call. -/
inductive Serial (saves : Saves) : Prop
  | idle (noCalls : saves.calls = []) (free : saves.layoutSaveInFlight = false)
      (nothingPending : saves.pendingLayoutSave = none)
  | busy {call : Call} (oneCall : saves.calls = [call]) (taken : saves.layoutSaveInFlight = true)
      (own : ∀ pending ∈ saves.pendingLayoutSave, pending.dashboardId = saves.dashboardId)
      (ownCall : call.pending.dashboardId = saves.dashboardId)

/-- What waits is of the dashboard held. -/
theorem Serial.own (serial : Serial saves) (busy : saves.calls = [call]) :
    (∀ pending ∈ saves.pendingLayoutSave, pending.dashboardId = saves.dashboardId) ∧
      call.pending.dashboardId = saves.dashboardId := by
  cases serial with
  | idle noCalls =>
      rw [noCalls] at busy
      cases busy
  | busy oneCall taken own ownCall =>
      rw [oneCall] at busy
      cases busy
      exact ⟨own, ownCall⟩

/-- What a step does where there is one call at most. -/
inductive Moves (saves : Saves) : Action → Saves → Prop
  | start {layout : Layout} (idle : saves.calls = [])
      (nothingPending : saves.pendingLayoutSave = none)
      (covers : (layout.map Boards.LayoutItem.i).Perm saves.widgets) :
      Moves saves (.drag layout) { saves with
        requested := some layout
        layoutSaveInFlight := true
        calls := [⟨⟨saves.dashboardId, layout, false⟩, .put saves.version none⟩]
        sent := some layout }
  | queue {layout : Layout} {call : Call} (busy : saves.calls = [call])
      (covers : (layout.map Boards.LayoutItem.i).Perm saves.widgets) :
      Moves saves (.drag layout) { saves with
        pendingLayoutSave := some ⟨saves.dashboardId, layout, false⟩
        requested := some layout }
  | store {call : Call} {version : Nat} (busy : saves.calls = [call])
      (awaits : call.awaited = .put version none) (current : saves.storedVersion = version) :
      Moves saves (.serve 0) { saves with
        stored := call.pending.layout
        storedVersion := saves.storedVersion + 1
        calls := [⟨call.pending, .put version (some (.saved (saves.storedVersion + 1)))⟩] }
  | refuse {call : Call} {version : Nat} (busy : saves.calls = [call])
      (awaits : call.awaited = .put version none) (stale : saves.storedVersion ≠ version) :
      Moves saves (.serve 0) { saves with
        calls := [⟨call.pending, .put version (some .conflict)⟩]
        refused := true }
  | reread {call : Call} (busy : saves.calls = [call]) (awaits : call.awaited = .rebase none) :
      Moves saves (.serve 0) { saves with
        calls := [⟨call.pending, .rebase (some (saves.stored, saves.storedVersion))⟩] }
  | conflicted {call : Call} {version : Nat} (busy : saves.calls = [call])
      (awaits : call.awaited = .put version (some .conflict)) :
      Moves saves (.land 0) ({ saves with calls := [] }.landConflict call.pending)
  | saved {call : Call} {sent version : Nat} (busy : saves.calls = [call])
      (awaits : call.awaited = .put sent (some (.saved version))) :
      Moves saves (.land 0) ({ saves with calls := [] }.landSaved version)
  | rebased {call : Call} {server : Layout × Nat} (busy : saves.calls = [call])
      (awaits : call.awaited = .rebase (some server)) :
      Moves saves (.land 0) ({ saves with calls := [] }.landRebased call.pending server)
  | failed {call : Call} (busy : saves.calls = [call]) :
      Moves saves (.fail 0) { { saves with calls := [] }.fail call with failed := true }

/-- Of one call there is no other. -/
theorem getElem?_singleton {index : Nat} {other : Call}
    (found : [call][index]? = some other) : index = 0 ∧ other = call := by
  cases index with
  | zero => exact ⟨rfl, (Option.some.inj found).symm⟩
  | succ index => cases found

/-- Resuming the one call leaves none. -/
theorem resume_zero (oneCall : saves.calls = [call]) :
    saves.resume 0 = { saves with calls := [] } := by
  rw [Saves.resume, oneCall]
  rfl

/-- **A step in turn**: what it does, while there is one call at most. -/
theorem step_cases (serial : Serial saves) (moved : step saves action = some next) :
    Moves saves action next := by
  cases serial with
  | idle noCalls free nothingPending =>
      cases action with
      | drag layout =>
          simp only [step] at moved
          split at moved
          next covers =>
            cases moved
            simp only [Saves.saveLayout, free, Bool.false_eq_true, ↓reduceIte, Saves.drain,
              Saves.send, noCalls, List.nil_append, ← nothingPending]
            exact .start noCalls nothingPending covers
          next => cases moved
      | serve index => simp [step, noCalls] at moved
      | land index => simp [step, noCalls] at moved
      | fail index => simp [step, noCalls] at moved
  | @busy call oneCall taken own ownCall =>
      cases action with
      | drag layout =>
          simp only [step] at moved
          split at moved
          next covers =>
            cases moved
            simp only [Saves.saveLayout, taken, ↓reduceIte]
            rw [← taken]
            exact .queue oneCall covers
          next => cases moved
      | serve index =>
          obtain ⟨other, found, served⟩ := Option.bind_eq_some_iff.mp moved
          rw [oneCall] at found
          obtain ⟨rfl, rfl⟩ := getElem?_singleton found
          unfold Saves.serve at served
          split at served
          next version awaits =>
            cases served
            unfold Saves.updateLayout
            split
            next current =>
              simp only [oneCall, List.set_cons_zero]
              exact .store oneCall awaits current
            next stale =>
              simp only [oneCall, List.set_cons_zero]
              exact .refuse oneCall awaits stale
          next awaits =>
            cases served
            simp only [oneCall, List.set_cons_zero]
            exact .reread oneCall awaits
          next => cases served
      | land index =>
          obtain ⟨other, found, landed⟩ := Option.bind_eq_some_iff.mp moved
          rw [oneCall] at found
          obtain ⟨rfl, rfl⟩ := getElem?_singleton found
          rw [resume_zero oneCall] at landed
          unfold Saves.land at landed
          split at landed
          next awaits =>
            cases landed
            exact .conflicted oneCall awaits
          next awaits =>
            cases landed
            exact .saved oneCall awaits
          next awaits =>
            cases landed
            exact .rebased oneCall awaits
          next => cases landed
      | fail index =>
          obtain ⟨other, found, failed⟩ := Option.map_eq_some_iff.mp moved
          rw [oneCall] at found
          obtain ⟨rfl, rfl⟩ := getElem?_singleton found
          rw [resume_zero oneCall] at failed
          cases failed
          exact .failed oneCall

/-- The call that goes on sends what is pending, or ends. -/
theorem drain_cases (own : ∀ pending ∈ saves.pendingLayoutSave,
      pending.dashboardId = saves.dashboardId) :
    (saves.pendingLayoutSave = none ∧ saves.drain = saves.finish) ∨
      ∃ pending, saves.pendingLayoutSave = some pending ∧ saves.drain = saves.send pending := by
  unfold Saves.drain
  split
  next nothingPending => exact Or.inl ⟨nothingPending, rfl⟩
  next pending isPending =>
    rw [if_pos (own pending isPending).symm]
    exact Or.inr ⟨pending, isPending, rfl⟩

/-- Draining the queue starts one save at most. -/
theorem serial_drain (noCalls : saves.calls = []) (taken : saves.layoutSaveInFlight = true)
    (own : ∀ pending ∈ saves.pendingLayoutSave, pending.dashboardId = saves.dashboardId) :
    Serial saves.drain := by
  rcases drain_cases own with ⟨-, ends⟩ | ⟨pending, isPending, sends⟩
  · rw [ends]
    exact .idle noCalls rfl rfl
  · rw [sends]
    refine @Serial.busy _ ⟨pending, .put saves.version none⟩ ?_ taken (fun _ none => nomatch none)
      (own pending isPending)
    rw [Saves.send, noCalls, List.nil_append]

/-- Each step keeps saves one at a time. -/
theorem serial_next (serial : Serial saves) (moved : step saves action = some next) :
    Serial next := by
  have moves := step_cases serial moved
  cases serial with
  | idle noCalls free nothingPending =>
      cases moves with
      | start idle nothingPending covers =>
          refine .busy rfl rfl ?_ rfl
          intro pending isPending
          rw [nothingPending] at isPending
          cases isPending
      | queue busy | store busy | refuse busy | reread busy | conflicted busy | saved busy
      | rebased busy | failed busy =>
          rw [noCalls] at busy
          cases busy
  | @busy call oneCall taken own ownCall =>
      have same {other : Call} (busy : saves.calls = [other]) : other = call := by
        rw [oneCall] at busy
        exact (List.head_eq_of_cons_eq busy).symm
      cases moves with
      | start idle nothingPending covers =>
          rw [oneCall] at idle
          cases idle
      | queue busy covers =>
          exact .busy oneCall taken (fun _ isPending => by cases isPending; rfl) ownCall
      | store busy _ _ | refuse busy _ _ | reread busy _ =>
          cases same busy
          exact .busy rfl taken own ownCall
      | conflicted busy awaits =>
          cases same busy
          unfold Saves.landConflict
          split
          next => exact .idle rfl rfl rfl
          next => exact .busy rfl taken own ownCall
      | saved busy awaits =>
          cases same busy
          exact serial_drain rfl taken own
      | rebased busy awaits =>
          cases same busy
          refine serial_drain rfl taken fun pending isPending => ?_
          rcases Option.or_eq_some_iff.mp isPending with queued | ⟨-, replay⟩
          · exact own pending queued
          · cases replay
            exact ownCall
      | failed busy =>
          cases same busy
          unfold Saves.fail
          split
          next => exact .idle rfl rfl rfl
          next => exact .idle rfl rfl rfl

/-- **In every run** saves are one at a time. -/
theorem serial_of_reachable (reachable : system.Reachable saves) : Serial saves := by
  refine reachable.invariant ?_ ?_
  · intro saves opened
    exact .idle opened.noCalls opened.idle opened.nothingPending
  · intro saves action next serial _ moved
    exact serial_next serial moved

/-- **At most one PUT is in flight**, in every run. -/
theorem length_puts_le_one (reachable : system.Reachable saves) : saves.puts.length ≤ 1 := by
  have atMost : saves.puts.length ≤ saves.calls.length := List.length_filter_le _ _
  cases serial_of_reachable reachable with
  | idle noCalls =>
      rw [noCalls] at atMost
      exact atMost.trans (Nat.zero_le 1)
  | busy oneCall =>
      rw [oneCall] at atMost
      exact atMost

/-! ## Whose layouts there are -/

/-- The layout has an entry for each widget of the dashboard. -/
def Covers (saves : Saves) (layout : Layout) : Prop :=
  (layout.map Boards.LayoutItem.i).Perm saves.widgets

/-- What the layouts and versions of a call's reply are: the server holds a layout of this
client wherever it holds a version that the client did not expect. -/
def Expected (saves : Saves) (call : Call) : Prop :=
  match call.awaited with
  | .put version none =>
      (Covers saves saves.stored ∧ (call.pending.retried = true → version = saves.storedVersion)) ∨
        version = saves.storedVersion
  | .put _ (some .conflict) => Covers saves saves.stored ∧ call.pending.retried = false
  | .put _ (some (.saved version)) => Covers saves saves.stored ∧ version = saves.storedVersion
  | .rebase none => Covers saves saves.stored
  | .rebase (some (layout, version)) =>
      Covers saves layout ∧ Covers saves saves.stored ∧ version = saves.storedVersion

/-- Whose layouts the client has in its hands. -/
structure Known (saves : Saves) : Prop where
  unique : saves.widgets.Nodup
  ours : Covers saves saves.stored ∨ saves.version = saves.storedVersion
  pending : ∀ pending ∈ saves.pendingLayoutSave, Covers saves pending.layout ∧
    pending.retried = false
  calls : ∀ call ∈ saves.calls, Covers saves call.pending.layout ∧ Expected saves call

/-- Rebasing a layout on another one over the same widgets only reorders it. -/
theorem rebaseLayout_perm {server : Layout} (unique : saves.widgets.Nodup)
    (covers : Covers saves layout) (serverCovers : Covers saves server) :
    (rebaseLayout server layout).Perm layout := by
  have ids : (layout.map Boards.LayoutItem.i).Nodup := covers.nodup_iff.mpr unique
  have serverIds : (server.map Boards.LayoutItem.i).Nodup := serverCovers.nodup_iff.mpr unique
  rw [List.perm_ext_iff_of_nodup (List.Nodup.of_map _ (rebaseLayout_unique serverIds ids))
    (List.Nodup.of_map _ ids)]
  intro item
  rw [mem_rebaseLayout ids]
  constructor
  · rintro (mine | ⟨theirs, absent⟩)
    · exact mine
    · have known := serverCovers.mem_iff.mp (List.mem_map_of_mem theirs)
      exact absurd (covers.mem_iff.mpr known) absent
  · exact Or.inl

/-- What is drained is known to the page. -/
theorem known_drain (unique : saves.widgets.Nodup) (noCalls : saves.calls = [])
    (current : saves.version = saves.storedVersion)
    (own : ∀ pending ∈ saves.pendingLayoutSave, pending.dashboardId = saves.dashboardId)
    (covers : ∀ pending ∈ saves.pendingLayoutSave, Covers saves pending.layout) :
    Known saves.drain := by
  rcases drain_cases own with ⟨-, ends⟩ | ⟨pending, isPending, sends⟩
  · rw [ends]
    exact ⟨unique, Or.inr current, nofun, by simp [Saves.finish, noCalls]⟩
  · rw [sends]
    refine ⟨unique, Or.inr current, nofun, fun call member => ?_⟩
    rw [Saves.send, noCalls, List.nil_append] at member
    rw [List.mem_singleton.mp member]
    exact ⟨covers pending isPending, Or.inr current⟩

/-- What is saved is known to the page after each step. -/
theorem known_next (serial : Serial saves) (known : Known saves)
    (moved : step saves action = some next) : Known next := by
  have moves := step_cases serial moved
  have callKnown {call : Call} (busy : saves.calls = [call]) :
      Covers saves call.pending.layout ∧ Expected saves call :=
    known.calls call (by rw [busy]; exact List.mem_cons_self)
  cases moves with
  | start idle nothingPending covers =>
      refine ⟨known.unique, known.ours, by simp [nothingPending], fun call member => ?_⟩
      rw [List.mem_singleton.mp member]
      exact ⟨covers, known.ours.imp_left fun stored => ⟨stored, nofun⟩⟩
  | queue busy covers =>
      refine ⟨known.unique, known.ours, fun pending isPending => ?_, known.calls⟩
      cases isPending
      exact ⟨covers, rfl⟩
  | store busy awaits current =>
      obtain ⟨covers, -⟩ := callKnown busy
      refine ⟨known.unique, Or.inl covers, known.pending, fun call member => ?_⟩
      rw [List.mem_singleton.mp member]
      exact ⟨covers, covers, rfl⟩
  | refuse busy awaits stale =>
      obtain ⟨covers, expected⟩ := callKnown busy
      rw [Expected, awaits] at expected
      obtain ⟨stored, fresh⟩ := expected.resolve_right fun current => stale current.symm
      refine ⟨known.unique, Or.inl stored, known.pending, fun call member => ?_⟩
      rw [List.mem_singleton.mp member]
      refine ⟨covers, stored, ?_⟩
      rw [← Bool.not_eq_true]
      exact fun retried => stale (fresh retried).symm
  | reread busy awaits =>
      obtain ⟨covers, expected⟩ := callKnown busy
      rw [Expected, awaits] at expected
      refine ⟨known.unique, known.ours, known.pending, fun call member => ?_⟩
      rw [List.mem_singleton.mp member]
      exact ⟨covers, expected, expected, rfl⟩
  | conflicted busy awaits =>
      obtain ⟨covers, expected⟩ := callKnown busy
      rw [Expected, awaits] at expected
      obtain ⟨stored, first⟩ := expected
      rw [Saves.landConflict, first]
      refine ⟨known.unique, known.ours, known.pending, fun call member => ?_⟩
      rw [List.mem_singleton.mp member]
      exact ⟨covers, stored⟩
  | saved busy awaits =>
      obtain ⟨-, expected⟩ := callKnown busy
      rw [Expected, awaits] at expected
      exact known_drain known.unique rfl expected.2 (serial.own busy).1
        fun pending isPending => (known.pending pending isPending).1
  | rebased busy awaits =>
      obtain ⟨covers, expected⟩ := callKnown busy
      rw [Expected, awaits] at expected
      obtain ⟨server, -, current⟩ := expected
      refine known_drain known.unique rfl current ?_ ?_
      · intro pending isPending
        rcases Option.or_eq_some_iff.mp isPending with queued | ⟨-, replay⟩
        · exact (serial.own busy).1 pending queued
        · cases replay
          exact (serial.own busy).2
      · intro pending isPending
        rcases Option.or_eq_some_iff.mp isPending with queued | ⟨-, replay⟩
        · exact (known.pending pending queued).1
        · cases replay
          exact ((rebaseLayout_perm known.unique covers server).map _).trans covers
  | failed busy =>
      unfold Saves.fail
      split
      next => exact ⟨known.unique, known.ours, nofun, nofun⟩
      next => exact ⟨known.unique, known.ours, nofun, nofun⟩

/-! ## No conflict with oneself -/

/-- The version that a call sends, or gets back, is the one the server has. -/
def CurrentCall (saves : Saves) (call : Call) : Prop :=
  call.awaited = .put saves.storedVersion none ∨
    ∃ sent, call.awaited = .put sent (some (.saved saves.storedVersion))

/-- Nothing was refused, and the version held is the server's between calls. -/
structure Current (saves : Saves) : Prop where
  nothingRefused : saves.refused = false
  held : saves.calls = [] → saves.version = saves.storedVersion
  calls : ∀ call ∈ saves.calls, CurrentCall saves call

/-- A save drained is of the current version. -/
theorem current_drain (nothingRefused : saves.refused = false) (noCalls : saves.calls = [])
    (current : saves.version = saves.storedVersion)
    (own : ∀ pending ∈ saves.pendingLayoutSave, pending.dashboardId = saves.dashboardId) :
    Current saves.drain := by
  rcases drain_cases own with ⟨-, ends⟩ | ⟨pending, isPending, sends⟩
  · rw [ends]
    exact ⟨nothingRefused, fun _ => current, by simp [Saves.finish, noCalls]⟩
  · rw [sends]
    refine ⟨nothingRefused, fun none => ?_, fun call member => ?_⟩
    · simp [Saves.send] at none
    · rw [Saves.send, noCalls, List.nil_append] at member
      rw [List.mem_singleton.mp member, current]
      exact Or.inl rfl

theorem drain_failed (saves : Saves) : saves.drain.failed = saves.failed := by
  unfold Saves.drain
  split
  next => rfl
  next => split <;> rfl

/-- A failure stays on the record. -/
theorem Moves.nothingFailed (moves : Moves saves action next)
    (nothingFailed : next.failed = false) :
    saves.failed = false := by
  cases moves with
  | conflicted busy awaits =>
      unfold Saves.landConflict at nothingFailed
      split at nothingFailed
      next => exact nothingFailed
      next => exact nothingFailed
  | saved busy awaits =>
      rw [Saves.landSaved, drain_failed] at nothingFailed
      exact nothingFailed
  | rebased busy awaits =>
      rw [Saves.landRebased, drain_failed] at nothingFailed
      exact nothingFailed
  | failed busy => cases nothingFailed
  | start | queue | store | refuse | reread => exact nothingFailed

/-- While nothing has failed the version stays current. -/
theorem current_next (serial : Serial saves) (current : saves.failed = false → Current saves)
    (moved : step saves action = some next) : next.failed = false → Current next := by
  intro nothingFailed
  have moves := step_cases serial moved
  have before := current (moves.nothingFailed nothingFailed)
  have callCurrent {call : Call} (busy : saves.calls = [call]) : CurrentCall saves call :=
    before.calls call (by rw [busy]; exact List.mem_cons_self)
  cases moves with
  | start idle nothingPending covers =>
      refine ⟨before.nothingRefused, nofun, fun call member => ?_⟩
      rw [List.mem_singleton.mp member, before.held idle]
      exact Or.inl rfl
  | queue busy covers => exact ⟨before.nothingRefused, before.held, before.calls⟩
  | store busy awaits storedCurrent =>
      refine ⟨before.nothingRefused, nofun, fun call member => ?_⟩
      rw [List.mem_singleton.mp member]
      exact Or.inr ⟨_, rfl⟩
  | refuse busy awaits stale =>
      rcases callCurrent busy with waiting | ⟨sent, answered⟩
      · rw [awaits] at waiting
        cases waiting
        exact absurd rfl stale
      · rw [awaits] at answered
        cases answered
  | reread busy awaits | conflicted busy awaits | rebased busy awaits =>
      rcases callCurrent busy with waiting | ⟨sent, answered⟩
      · rw [awaits] at waiting
        cases waiting
      · rw [awaits] at answered
        cases answered
  | saved busy awaits =>
      rcases callCurrent busy with waiting | ⟨sent, answered⟩
      · rw [awaits] at waiting
        cases waiting
      · rw [awaits] at answered
        cases answered
        exact current_drain before.nothingRefused rfl rfl (serial.own busy).1
  | failed busy => cases nothingFailed

/-- **No save conflicts** with one of this client's while no reply fails, in every run. -/
theorem not_refused_of_not_failed (reachable : system.Reachable saves)
    (nothingFailed : saves.failed = false) : saves.refused = false := by
  have current : saves.failed = false → Current saves := by
    refine @TransitionSystem.ReachedWithin.invariant_of _ _ _ _ Serial
      (fun saves => saves.failed = false → Current saves) (fun _ => serial_of_reachable) ?_ ?_ _
      reachable
    · intro saves opened _
      exact ⟨opened.nothingRefused, fun _ => opened.current, by simp [opened.noCalls]⟩
    · intro saves action next serial _ current _ moved
      exact current_next serial current moved
  exact (current nothingFailed).nothingRefused

/-! ## The newest layout -/

/-- The layout sent has the entries of the one requested. -/
def Matches (sent requested : Option Layout) : Prop :=
  ∀ layout ∈ requested, ∃ last ∈ sent, last.Perm layout

/-- The last layout requested is pending, or else was the last one sent. -/
structure Newest (saves : Saves) : Prop where
  sends : ∀ call ∈ saves.calls, saves.sent = some call.pending.layout
  newest : Matches ((saves.pendingLayoutSave.map PendingLayoutSave.layout).or saves.sent)
    saves.requested

/-- What is drained is the newest layout. -/
theorem newest_drain (noCalls : saves.calls = [])
    (own : ∀ pending ∈ saves.pendingLayoutSave, pending.dashboardId = saves.dashboardId)
    (newest : Matches ((saves.pendingLayoutSave.map PendingLayoutSave.layout).or saves.sent)
      saves.requested) : Newest saves.drain := by
  rcases drain_cases own with ⟨nothingPending, ends⟩ | ⟨pending, isPending, sends⟩
  · rw [nothingPending] at newest
    rw [ends]
    exact ⟨by simp [Saves.finish, noCalls], newest⟩
  · rw [isPending] at newest
    rw [sends]
    refine ⟨fun call member => ?_, newest⟩
    rw [Saves.send, noCalls, List.nil_append] at member
    rw [List.mem_singleton.mp member]
    rfl

/-- No reply is a failure while a newer layout is pending. -/
def QuietFailures (saves : Saves) : Action → Prop
  | .fail _ => saves.pendingLayoutSave = none
  | _ => True

instance (saves : Saves) (action : Action) : Decidable (QuietFailures saves action) :=
  match action with
  | .fail _ => inferInstanceAs (Decidable (saves.pendingLayoutSave = none))
  | .drag _ | .serve _ | .land _ => .isTrue trivial

/-- The newest layout stays shown, stored or on its way. -/
theorem newest_next (serial : Serial saves) (known : Known saves) (newest : Newest saves)
    (quiet : QuietFailures saves action) (moved : step saves action = some next) :
    Newest next := by
  have moves := step_cases serial moved
  have callSent {call : Call} (busy : saves.calls = [call]) :
      saves.sent = some call.pending.layout :=
    newest.sends call (by rw [busy]; exact List.mem_cons_self)
  cases moves with
  | start idle nothingPending covers =>
      refine ⟨fun call member => ?_, fun layout asked => ?_⟩
      · rw [List.mem_singleton.mp member]
      · cases asked
        rw [nothingPending]
        exact ⟨_, rfl, List.Perm.refl _⟩
  | queue busy covers =>
      refine ⟨newest.sends, fun layout asked => ?_⟩
      cases asked
      exact ⟨_, rfl, List.Perm.refl _⟩
  | store busy awaits | refuse busy awaits | reread busy awaits =>
      refine ⟨fun call member => ?_, newest.newest⟩
      have sent := callSent busy
      rw [List.mem_singleton.mp member]
      exact sent
  | @conflicted call version busy awaits =>
      obtain ⟨-, expected⟩ := known.calls call (by rw [busy]; exact List.mem_cons_self)
      rw [Expected, awaits] at expected
      rw [Saves.landConflict, expected.2]
      refine ⟨fun other member => ?_, newest.newest⟩
      have sent := callSent busy
      rw [List.mem_singleton.mp member]
      exact sent
  | saved busy awaits => exact newest_drain rfl (serial.own busy).1 newest.newest
  | @rebased call server busy awaits =>
      obtain ⟨covers, expected⟩ := known.calls call (by rw [busy]; exact List.mem_cons_self)
      rw [Expected, awaits] at expected
      have replayed := rebaseLayout_perm known.unique covers expected.1
      refine newest_drain rfl (fun pending isPending => ?_) fun layout asked => ?_
      · rcases Option.or_eq_some_iff.mp isPending with queued | ⟨-, replay⟩
        · exact (serial.own busy).1 pending queued
        · cases replay
          exact (serial.own busy).2
      · obtain ⟨last, isLast, same⟩ := newest.newest layout asked
        cases isPending : saves.pendingLayoutSave with
        | some pending =>
            rw [isPending] at isLast
            exact ⟨last, isLast, same⟩
        | none =>
            rw [isPending, callSent busy] at isLast
            cases isLast
            exact ⟨_, rfl, replayed.trans same⟩
  | @failed call busy =>
      have kept := newest.newest
      rw [show saves.pendingLayoutSave = none from quiet] at kept
      unfold Saves.fail
      split
      next => exact ⟨nofun, kept⟩
      next => exact ⟨nofun, kept⟩

/-- In every run the page knows what it saves. -/
theorem known_of_reachable (reachable : system.Reachable saves) : Known saves := by
  refine reachable.invariant_of (fun _ => serial_of_reachable) ?_ ?_
  · intro saves opened
    exact ⟨opened.unique, Or.inr opened.current, by simp [opened.nothingPending],
      by simp [opened.noCalls]⟩
  · intro saves action next serial _ known _ moved
    exact known_next serial known moved

/-- **Layout saves are serialized, and the newest drag is not lost** in the runs where no
reply is a failure while a newer layout is pending. -/
theorem saves_serialized (reached : system.ReachedWithin QuietFailures saves) :
    saves.puts.length ≤ 1 ∧ (saves.calls = [] → Matches saves.sent saves.requested) ∧
      (saves.failed = false → saves.refused = false) := by
  refine ⟨length_puts_le_one reached.reachable, fun quiet => ?_,
    not_refused_of_not_failed reached.reachable⟩
  have newest : Newest saves := by
    refine reached.invariant_of (fun _ reached =>
      And.intro (serial_of_reachable reached.reachable)
        (known_of_reachable reached.reachable)) ?_ ?_
    · intro saves opened
      exact ⟨by simp [opened.noCalls], by simp [Matches, opened.nothingRequested]⟩
    · intro saves action next now _ newest quiet moved
      exact newest_next now.1 now.2 newest quiet moved
  cases serial_of_reachable reached.reachable with
  | idle noCalls free nothingPending =>
      have last := newest.newest
      rwa [nothingPending] at last
  | busy oneCall =>
      rw [oneCall] at quiet
      cases quiet

/-- A dashboard with one widget, just opened, and two drags of it. -/
def opened : Saves where
  dashboardId := "d"
  version := 0
  widgets := ["a"]
  conflict := false
  layoutSaveInFlight := false
  pendingLayoutSave := none
  calls := []
  stored := [⟨⟨0, 0, 4, 4⟩, "a"⟩]
  storedVersion := 0
  requested := none
  sent := none
  failed := false
  refused := false

def firstDrag : Layout := [⟨⟨4, 0, 4, 4⟩, "a"⟩]

def secondDrag : Layout := [⟨⟨8, 0, 4, 4⟩, "a"⟩]

/-- The page below has just been opened. -/
theorem initial_opened : system.Initial opened := by
  constructor <;> simp [opened]

/-- The first save fails while the second drag waits: it is never sent. -/
theorem newest_drag_is_lost :
    ∃ saves, system.Reachable saves ∧ saves.calls = [] ∧
      ¬ Matches saves.sent saves.requested := by
  obtain ⟨saves, reachable, ended⟩ := TransitionSystem.exists_reachable_of_run initial_opened
    [.drag firstDrag, .drag secondDrag, .fail 0]
    (fun saves => decide (saves.calls = [] ∧ saves.requested = some secondDrag ∧
      saves.sent = some firstDrag)) (by decide +kernel)
  obtain ⟨quiet, asked, sent⟩ := of_decide_eq_true ended
  refine ⟨saves, reachable, quiet, fun newest => ?_⟩
  obtain ⟨last, isLast, same⟩ := newest secondDrag asked
  rw [sent] at isLast
  cases isLast
  revert same
  decide

/-- Where the first save gets through, the second drag is the last layout sent. -/
theorem saves_serialized_queued :
    ∃ saves : Saves, (saves.requested = some secondDrag ∧ saves.storedVersion = 2) ∧
      (saves.calls = [] → Matches saves.sent saves.requested) := by
  obtain ⟨saves, reached, stored⟩ := TransitionSystem.exists_reachedWithin_of_run QuietFailures
    initial_opened [.drag firstDrag, .drag secondDrag, .serve 0, .land 0, .serve 0, .land 0]
    (fun saves => decide (saves.requested = some secondDrag ∧ saves.storedVersion = 2))
    (by decide +kernel)
  exact ⟨saves, of_decide_eq_true stored, (saves_serialized reached).2.1⟩

end FrontDashboard.Editor.SaveQueue
