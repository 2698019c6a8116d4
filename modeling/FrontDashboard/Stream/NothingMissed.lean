import Mathlib.Data.List.Induction
import FrontDashboard.Stream.Connection

/-! # What a reconnecting stream misses

An event the client follows is *owed* until it is delivered or covered by a
resync. At rest, an owed event should still lie ahead of the client's mark, so
that the next connection asks for it, and a live stream should owe nothing.

Two steps break this. A queue may be registered after an event was broadcast that
the head was read too early to count; and the mark, which is the largest id sent,
may pass an event that is still queued, awaits its broadcast or is covered by a
resync not sent yet when the connection ends or the queue overflows.
-/

namespace FrontDashboard.Stream

namespace State

/-- The events addressed to the client that it was neither sent nor told to refetch. -/
def owed (state : State) : List Nat :=
  ((state.log.filter (·.addressed)).map (·.id)).filter fun id =>
    id ∉ state.delivered ∧ id ∉ state.resynced

/-- The event came after the head of the client's first connection. -/
def Followed (state : State) (id : Nat) : Prop :=
  state.baseline.any (· < id) = true

instance (state : State) (id : Nat) : Decidable (state.Followed id) :=
  inferInstanceAs (Decidable (_ = _))

/-- The client will resync by itself when it is connected. -/
def ResyncsItself (state : State) : Prop :=
  state.needsResync = true ∧ state.serverDecidesResync = false

instance (state : State) : Decidable state.ResyncsItself :=
  inferInstanceAs (Decidable (_ ∧ _))

/-- The ids of the queued events. -/
def queuedIds (state : State) : List Nat :=
  state.queue.filterMap fun
    | .event id => some id
    | .overflow => none

/-- What `enqueue` drops. -/
def dropped (state : State) (id : Nat) : List Nat :=
  if state.resyncPending then [id]
  else if state.queue.length < queueMax then []
  else state.queuedIds ++ [id]

/-- The mark has passed an owed event the client follows. -/
def Skipped (state : State) (id : Nat) : Prop :=
  id ∈ state.owed ∧ state.Followed id ∧ Passed state.mark id

instance (state : State) (id : Nat) : Decidable (state.Skipped id) :=
  inferInstanceAs (Decidable (_ ∧ _ ∧ _))

/-- No broadcast is outstanding, and there is no stream or an idle one. -/
def AtRest (state : State) : Prop :=
  state.awaiting = [] ∧
    (state.phase = .closed ∨
      state.phase = .live ∧ state.queue = [] ∧ state.resyncPending = false)

end State

/-- At rest, the mark has passed no owed event the client follows, and a live stream
owes none. -/
def MissesNothing (state : State) : Prop :=
  state.AtRest → ∀ id ∈ state.owed, state.Followed id →
    ¬ Passed state.mark id ∧ state.phase ≠ .live

/-! ## The steps that lose nothing -/

/-- The steps after which nothing is missed. Events beyond the head are not
registered for too late; a frame is dropped only ahead of the mark; and a stream
ends only when everything behind the mark has been sent. -/
def Admits (state : State) : Action → Prop
  | .register => match state.phase with
      | .headRead head needed => needed = true ∨ state.ResyncsItself ∨
          ∀ id ∈ state.owed, head.getD 0 < id → id ∈ state.awaiting
      | _ => True
  | .broadcast id => state.phase.isSending = true → ∀ lost ∈ state.dropped id,
      ¬ state.Skipped lost
  | .disconnect => match state.phase with
      | .resyncDue before => ∀ id ∈ state.owed, ¬ Passed before id → ¬ state.Skipped id
      | .live | .catchingUp _ => ∀ id ∈ state.awaiting ++ state.queuedIds, ¬ state.Skipped id
      | _ => True
  | _ => True

/-! ## The invariant -/

/-- The event is on its way to the client's queue, or in it. -/
def OnItsWay (state : State) (id : Nat) : Prop :=
  id ∈ state.awaiting ∨ Frame.event id ∈ state.queue

/-- Whether the connected frame has been sent. -/
def Phase.isGreeted : Phase → Bool
  | .resyncDue _ | .live | .catchingUp _ => true
  | _ => false

/-- What each phase of a stream guarantees about an owed event the client follows. -/
def AccountedFor (state : State) (id : Nat) : Prop :=
  match state.phase with
  | .closed | .opening _ | .headRead _ _ | .registered _ _ => ¬ Passed state.mark id
  | .resyncDue before => ¬ Passed before id
  | .live | .catchingUp _ =>
      OnItsWay state id ∨ state.resyncPending = true ∧ ¬ Passed state.mark id

/-- What the connected frame will not report as missed is on its way. -/
def RegisteredInTime (state : State) : Prop :=
  ∀ head, state.phase = .registered head false → state.ResyncsItself ∨
    ∀ id ∈ state.owed, head.getD 0 < id → OnItsWay state id ∨ state.resyncPending = true

/-- How the connection's flags and the stream's decision fit together. -/
def Handshake (state : State) : Prop :=
  match state.phase with
  | .opening watermark =>
      watermark = (if state.needsResync then state.mark else none) ∧
        state.serverDecidesResync = (state.needsResync && state.mark.isSome)
  | .headRead head needed | .registered head needed =>
      needed = resyncNeeded (if state.needsResync then state.mark else none) head ∧
        state.serverDecidesResync = (state.needsResync && state.mark.isSome) ∧
          head.getD 0 ≤ (currentEventId state.log).getD 0
  | .resyncDue head | .catchingUp head => head.getD 0 ≤ (currentEventId state.log).getD 0
  | _ => True

/-- Whether the sentinel has been dequeued and not answered yet. -/
def Phase.isCatchingUp : Phase → Bool
  | .catchingUp _ => true
  | _ => false

/-- A pending resync has emptied the queue, and only then is the sentinel queued. -/
def QueueShape (state : State) : Prop :=
  if state.resyncPending then
    state.queue = if state.phase.isCatchingUp then [] else [.overflow]
  else .overflow ∉ state.queue ∧ state.phase.isCatchingUp = false

/-- The invariant. -/
structure Good (state : State) : Prop where
  positive : ∀ event ∈ state.log, 0 < event.id
  below : ∀ event ∈ state.log, event.id ≤ (currentEventId state.log).getD 0
  awaited : ∀ id ∈ state.awaiting, id ≤ (currentEventId state.log).getD 0
  queued : ∀ id, Frame.event id ∈ state.queue → id ≤ (currentEventId state.log).getD 0
  marked : state.mark.getD 0 ≤ (currentEventId state.log).getD 0
  unmarked : state.baseline = none → state.mark = none
  returning : state.baseline ≠ none → state.needsResync = true ∨ state.phase.isGreeted = true
  following : state.phase.isGreeted = true → state.baseline ≠ none
  handshake : Handshake state
  shape : QueueShape state
  accounted : ∀ id ∈ state.owed, state.Followed id → AccountedFor state id
  inTime : RegisteredInTime state

/-- An event is owed until it is delivered or a resync covers it. -/
theorem mem_owed {state : State} {id : Nat} : id ∈ state.owed ↔
    (∃ event ∈ state.log, event.addressed = true ∧ event.id = id) ∧
      id ∉ state.delivered ∧ id ∉ state.resynced := by
  simp [State.owed, and_assoc]

/-- The ids waiting in the queue. -/
theorem mem_queuedIds {state : State} {id : Nat} :
    id ∈ state.queuedIds ↔ Frame.event id ∈ state.queue := by
  unfold State.queuedIds
  rw [List.mem_filterMap]
  constructor
  · rintro ⟨frame, queued, same⟩
    cases frame with
    | event other =>
        cases same
        exact queued
    | overflow => cases same
  · intro queued
    exact ⟨_, queued, rfl⟩

/-- A resync leaves owed only what the mark had passed. -/
theorem mem_owed_cover {state : State} {before : Option Nat} {id : Nat} :
    id ∈ (state.cover before).owed ↔ id ∈ state.owed ∧ Passed before id := by
  simp only [mem_owed, State.cover, List.mem_append, List.mem_filter, List.mem_map,
    Bool.not_eq_true', decide_eq_false_iff_not]
  constructor
  · rintro ⟨⟨event, logged, addressed, same⟩, undelivered, uncovered⟩
    refine ⟨⟨⟨event, logged, addressed, same⟩, undelivered, fun covered => ?_⟩, ?_⟩
    · exact uncovered (.inl covered)
    · by_contra ahead
      exact uncovered (.inr ⟨⟨event, logged, same⟩, ahead⟩)
  · rintro ⟨⟨present, undelivered, uncovered⟩, passed⟩
    refine ⟨present, undelivered, ?_⟩
    rintro (covered | ⟨-, ahead⟩)
    · exact uncovered covered
    · exact ahead passed

/-- A mark advances to the larger id. -/
theorem getD_advance (mark : Option Nat) (id : Nat) :
    (State.advance mark id).getD 0 = max (mark.getD 0) id := by
  unfold State.advance
  split
  · simp
    omega
  · omega

/-- Owed ids are positive. -/
theorem Good.id_pos {state : State} (good : Good state) {id : Nat} (owes : id ∈ state.owed) :
    0 < id := by
  obtain ⟨⟨event, logged, -, rfl⟩, -⟩ := mem_owed.mp owes
  exact good.positive event logged

/-- At rest, a good state misses nothing. -/
theorem Good.missesNothing {state : State} (good : Good state) : MissesNothing state := by
  rintro ⟨announced, idle⟩ id owes followed
  have accounted := good.accounted id owes followed
  unfold AccountedFor at accounted
  rcases idle with closed | ⟨live, empty, unpending⟩
  · rw [closed] at accounted ⊢
    exact ⟨accounted, nofun⟩
  · rw [live] at accounted
    rcases accounted with (awaits | queued) | ⟨pending, -⟩
    · rw [announced] at awaits
      cases awaits
    · rw [empty] at queued
      cases queued
    · rw [unpending] at pending
      cases pending

/-! ## The log and its broadcasts -/

/-- The head is the event committed last. -/
@[simp]
theorem currentEventId_append (log : List ActivityEvent) (event : ActivityEvent) :
    currentEventId (log ++ [event]) = some event.id := by
  simp [currentEventId]

/-- A later mark bound is no harder to keep. -/
theorem Handshake.later {state next : State} (handshake : Handshake state)
    (phase : next.phase = state.phase) (mark : next.mark = state.mark)
    (flags : next.needsResync = state.needsResync ∧
      next.serverDecidesResync = state.serverDecidesResync)
    (later : (currentEventId state.log).getD 0 ≤ (currentEventId next.log).getD 0) :
    Handshake next := by
  unfold Handshake at handshake ⊢
  rw [phase, mark, flags.1, flags.2]
  split at handshake
  next => exact handshake
  next => exact ⟨handshake.1, handshake.2.1, by omega⟩
  next => exact ⟨handshake.1, handshake.2.1, by omega⟩
  next => omega
  next => omega
  next => trivial

/-- What is accounted for stays so while the connection and its mark stay. -/
theorem AccountedFor.mono {state next : State} {id : Nat} (accounted : AccountedFor state id)
    (phase : next.phase = state.phase) (mark : next.mark = state.mark)
    (onWay : state.phase.isSending = true →
      OnItsWay state id ∨ state.resyncPending = true ∧ ¬ Passed state.mark id →
        OnItsWay next id ∨ next.resyncPending = true ∧ ¬ Passed state.mark id) :
    AccountedFor next id := by
  unfold AccountedFor at accounted ⊢
  rw [phase, mark]
  cases now : state.phase with
  | live | catchingUp _ =>
      rw [now] at accounted onWay
      exact onWay rfl accounted
  | _ =>
      rw [now] at accounted
      exact accounted

/-- An event beyond the log's head is accounted for when it is on its way. -/
theorem Good.accountedFor {state next : State} (good : Good state) {id : Nat}
    (phase : next.phase = state.phase) (mark : next.mark = state.mark)
    (later : (currentEventId state.log).getD 0 < id) (way : OnItsWay next id) :
    AccountedFor next id := by
  have marked := good.marked
  have handshake := good.handshake
  unfold Handshake at handshake
  unfold AccountedFor Passed
  rw [phase, mark]
  cases now : state.phase with
  | live => exact .inl way
  | catchingUp head => exact .inl way
  | resyncDue before =>
      rw [now] at handshake
      dsimp only at handshake ⊢
      omega
  | _ =>
      dsimp only
      omega

/-- A row committed to the log is beyond every mark, and awaits its broadcast. -/
theorem Good.append {state : State} (good : Good state) {event : ActivityEvent}
    (later : (currentEventId state.log).getD 0 < event.id) : Good (state.append event) := by
  have head : (currentEventId (state.append event).log).getD 0 = event.id := by
    simp [State.append]
  have awaits : ∀ id, id ∈ (state.append event).awaiting ↔
      id ∈ state.awaiting ∨ event.addressed = true ∧ id = event.id := by
    intro id
    unfold State.append
    dsimp only
    split
    next addressed => simp [addressed]
    next unaddressed => simp [unaddressed]
  have owes : ∀ id ∈ (state.append event).owed, id ∈ state.owed ∨
      id = event.id ∧ OnItsWay (state.append event) id := by
    intro id owed
    obtain ⟨⟨other, logged, addressed, rfl⟩, fresh⟩ := mem_owed.mp owed
    rcases List.mem_append.mp logged with old | new
    · exact .inl (mem_owed.mpr ⟨⟨other, old, addressed, rfl⟩, fresh⟩)
    · cases List.mem_singleton.mp new
      exact .inr ⟨rfl, .inl ((awaits _).mpr (.inr ⟨addressed, rfl⟩))⟩
  have onWay : ∀ id, OnItsWay state id → OnItsWay (state.append event) id := by
    intro id way
    exact way.imp_left fun old => (awaits id).mpr (.inl old)
  have logged : ∀ other ∈ (state.append event).log, other ∈ state.log ∨ other = event := by
    intro other member
    exact (List.mem_append.mp member).imp_right List.mem_singleton.mp
  refine ⟨?_, ?_, ?_, ?_, ?_, good.unmarked, good.returning, good.following, ?_, good.shape,
    ?_, ?_⟩
  · intro other member
    rcases logged other member with old | rfl
    · exact good.positive other old
    · omega
  · intro other member
    rw [head]
    rcases logged other member with old | rfl
    · exact Nat.le_trans (good.below other old) (Nat.le_of_lt later)
    · exact Nat.le_refl _
  · intro id member
    rw [head]
    rcases (awaits id).mp member with old | ⟨-, rfl⟩
    · exact Nat.le_trans (good.awaited id old) (Nat.le_of_lt later)
    · exact Nat.le_refl _
  · intro id queued
    rw [head]
    exact Nat.le_trans (good.queued id queued) (Nat.le_of_lt later)
  · rw [head]
    exact Nat.le_trans good.marked (Nat.le_of_lt later)
  · refine good.handshake.later rfl rfl ⟨rfl, rfl⟩ ?_
    rw [head]
    exact Nat.le_of_lt later
  · intro id owed followed
    rcases owes id owed with old | ⟨rfl, way⟩
    · exact (good.accounted id old followed).mono rfl rfl fun _ due => due.imp_left (onWay id)
    · exact good.accountedFor rfl rfl later way
  · intro head phase
    rcases good.inTime head phase with self | inTime
    · exact .inl self
    · refine .inr fun id owed beyond => ?_
      rcases owes id owed with old | ⟨-, way⟩
      · exact (inTime id old beyond).imp_left (onWay id)
      · exact .inl way

/-- The queue may change as long as what was on its way remains so, or ahead of the
mark while a resync is pending. -/
theorem Good.requeue {state : State} (good : Good state) {awaiting : List Nat}
    {queue : List Frame} {pending : Bool}
    (awaited : ∀ id ∈ awaiting, id ≤ (currentEventId state.log).getD 0)
    (queued : ∀ id, Frame.event id ∈ queue → id ≤ (currentEventId state.log).getD 0)
    (shape : QueueShape { state with awaiting, queue, resyncPending := pending })
    (sending : state.phase.isSending = true → ∀ id ∈ state.owed, state.Followed id →
      OnItsWay state id ∨ state.resyncPending = true ∧ ¬ Passed state.mark id →
        (id ∈ awaiting ∨ .event id ∈ queue) ∨ pending = true ∧ ¬ Passed state.mark id)
    (registered : state.phase.isRegistered = true → ∀ id,
      OnItsWay state id ∨ state.resyncPending = true →
        (id ∈ awaiting ∨ .event id ∈ queue) ∨ pending = true) :
    Good { state with awaiting, queue, resyncPending := pending } := by
  refine ⟨good.positive, good.below, awaited, queued, good.marked, good.unmarked, good.returning,
    good.following, ?_, shape, ?_, ?_⟩
  · exact good.handshake.later rfl rfl ⟨rfl, rfl⟩ (Nat.le_refl _)
  · intro id owes followed
    exact (good.accounted id owes followed).mono rfl rfl fun sends => sending sends id owes followed
  · intro head phase
    refine (good.inTime head phase).imp_right fun inTime id owes beyond => ?_
    apply registered
    · rw [show state.phase = .registered head false from phase]
      rfl
    · exact inTime id owes beyond

/-- Erasing an id takes that one alone. -/
theorem mem_erase_or_eq {awaiting : List Nat} (id : Nat) {other : Nat} (member : other ∈ awaiting) :
    other ∈ awaiting.erase id ∨ other = id := by
  by_cases same : other = id
  · exact .inr same
  · exact .inl ((List.mem_erase_of_ne same).mpr member)

/-- **A broadcast.** What it queues is on its way, and what it drops lies ahead of
the mark. -/
theorem Good.broadcast {state : State} (good : Good state) {id : Nat}
    (admitted : Admits state (.broadcast id)) (awaits : id ∈ state.awaiting) :
    Good (state.broadcast id) := by
  have awaited : ∀ other ∈ state.awaiting.erase id,
      other ≤ (currentEventId state.log).getD 0 :=
    fun other member => good.awaited other (List.mem_of_mem_erase member)
  have shape := good.shape
  have ahead : state.phase.isSending = true → ∀ lost ∈ state.dropped id, lost ∈ state.owed →
      state.Followed lost → ¬ Passed state.mark lost :=
    fun sends lost drops owes followed passed => admitted sends lost drops ⟨owes, followed, passed⟩
  unfold State.broadcast
  split
  next registered =>
    unfold State.enqueue
    unfold State.dropped at ahead
    dsimp only
    split
    next pending =>
      rw [if_pos pending] at ahead
      refine good.requeue awaited good.queued shape ?_ (fun _ _ _ => .inr pending)
      intro sends other owes followed due
      rcases due with (waits | queued) | behind
      · rcases mem_erase_or_eq id waits with kept | rfl
        · exact .inl (.inl kept)
        · exact .inr ⟨pending, ahead sends other (List.mem_singleton.mpr rfl) owes followed⟩
      · exact .inl (.inr queued)
      · exact .inr behind
    next unpending =>
      rw [if_neg unpending] at ahead
      unfold QueueShape at shape
      rw [if_neg unpending] at shape
      split
      next room =>
        have onWay : ∀ other, OnItsWay state other →
            other ∈ state.awaiting.erase id ∨ .event other ∈ state.queue ++ [.event id] := by
          intro other way
          rcases way with waits | queued
          · rcases mem_erase_or_eq id waits with kept | rfl
            · exact .inl kept
            · exact .inr (List.mem_append_right _ (List.mem_singleton.mpr rfl))
          · exact .inr (List.mem_append_left _ queued)
        refine good.requeue awaited ?_ ?_ ?_ ?_
        · intro other queued
          rcases List.mem_append.mp queued with old | new
          · exact good.queued other old
          · cases List.mem_singleton.mp new
            exact good.awaited id awaits
        · unfold QueueShape
          rw [if_neg unpending]
          simpa using shape
        · exact fun _ other _ _ due => due.imp_left (onWay other)
        · exact fun _ other due => due.imp_left (onWay other)
      next full =>
        rw [if_neg full] at ahead
        refine good.requeue awaited (by simp) ?_ ?_ (fun _ _ _ => .inr rfl)
        · unfold QueueShape
          rw [if_pos rfl]
          dsimp only
          rw [shape.2]
          rfl
        · intro sends other owes followed due
          have lost : other ∈ state.queuedIds ++ [id] → ¬ Passed state.mark other :=
            fun drops => ahead sends other drops owes followed
          rcases due with (waits | queued) | ⟨pending, -⟩
          · rcases mem_erase_or_eq id waits with kept | rfl
            · exact .inl (.inl kept)
            · exact .inr ⟨rfl, lost (List.mem_append_right _ (List.mem_singleton.mpr rfl))⟩
          · exact .inr ⟨rfl, lost (List.mem_append_left _ (mem_queuedIds.mpr queued))⟩
          · exact absurd pending unpending
  next unregistered =>
    refine good.requeue awaited good.queued shape ?_ ?_
    · intro sends
      cases phase : state.phase <;> simp_all [Phase.isSending, Phase.isRegistered]
    · intro registered
      exact absurd registered unregistered

/-! ## Connecting -/

/-- Where no resync is needed, the head is at most the mark. -/
theorem le_of_not_resyncNeeded {head : Option Nat} {mark : Nat}
    (silent : resyncNeeded (some mark) head = false) : head.getD 0 ≤ mark := by
  cases head with
  | none => exact Nat.zero_le _
  | some head => simpa [resyncNeeded] using silent

/-- Opening the stream keeps the invariant. -/
theorem Good.openStream {state : State} (good : Good state) (closed : state.phase = .closed) :
    Good state.openStream := by
  have shape := good.shape
  have accounted := good.accounted
  have returning := good.returning
  unfold QueueShape at shape
  unfold AccountedFor at accounted
  rw [closed] at shape accounted returning
  exact ⟨good.positive, good.below, good.awaited, good.queued, good.marked, good.unmarked,
    returning, nofun, ⟨rfl, rfl⟩, shape, accounted, nofun⟩

theorem Good.connectState {state : State} (good : Good state) {watermark : Option Nat}
    (opening : state.phase = .opening watermark) : Good (state.connectState watermark) := by
  have shape := good.shape
  have accounted := good.accounted
  have returning := good.returning
  have handshake := good.handshake
  unfold QueueShape at shape
  unfold AccountedFor at accounted
  unfold Handshake at handshake
  rw [opening] at shape accounted returning handshake
  refine ⟨good.positive, good.below, good.awaited, good.queued, good.marked, good.unmarked,
    returning, nofun, ⟨?_, handshake.2, Nat.le_refl _⟩, shape, accounted, nofun⟩
  rw [handshake.1]
  rfl

/-- Registering starts an empty queue: what is beyond the head must still await its
broadcast, unless a resync is coming. -/
theorem Good.connect {state : State} (good : Good state) {head : Option Nat} {needed : Bool}
    (read : state.phase = .headRead head needed) (admitted : Admits state .register) :
    Good (state.connect head needed) := by
  have accounted := good.accounted
  have returning := good.returning
  have handshake := good.handshake
  unfold AccountedFor at accounted
  unfold Handshake at handshake
  unfold Admits at admitted
  rw [read] at accounted returning handshake admitted
  refine ⟨good.positive, good.below, good.awaited, nofun, good.marked, good.unmarked,
    returning, nofun, handshake, ⟨nofun, rfl⟩, accounted, ?_⟩
  intro other phase
  cases phase
  rcases admitted with needs | self | waits
  · cases needs
  · exact .inl self
  · exact .inr fun id owes beyond => .inl (.inl (waits id owes beyond))

/-- What a connected frame changes, the record of resyncs apart. -/
theorem greet_eq (head : Option Nat) (needed : Bool) (state : State) :
    ∃ resynced, state.greet head needed = { state with
      phase := if needed then .resyncDue state.mark else .live
      mark := head.or state.mark
      needsResync := false
      resynced := resynced
      baseline := state.baseline.or (some (head.getD 0)) } := by
  unfold State.greet State.onConnected
  dsimp only
  split
  · split
    · exact ⟨_, rfl⟩
    · exact ⟨_, rfl⟩
  next known =>
    simp only [Bool.not_eq_true] at known
    exact ⟨state.resynced, by rw [← known]; rfl⟩

/-- What the page is owed once it is greeted. -/
theorem mem_owed_onConnected {state : State} {head : Option Nat} {id : Nat} :
    id ∈ (state.onConnected head).owed ↔
      id ∈ state.owed ∧ (state.ResyncsItself → Passed state.mark id) := by
  unfold State.onConnected State.ResyncsItself
  dsimp only
  split
  next returning =>
    split
    next decides =>
      refine ⟨fun owes => ⟨owes, fun self => ?_⟩, fun owes => owes.1⟩
      rw [decides] at self
      cases self.2
    next decides =>
      rw [mem_owed_cover]
      refine and_congr_right fun _ => ⟨fun passed _ => passed, fun passes => ?_⟩
      exact passes ⟨returning, by simpa using decides⟩
  next first =>
    exact ⟨fun owes => ⟨owes, fun self => absurd self.1 first⟩, fun owes => owes.1⟩

/-- Without a mark no event has been passed. -/
theorem not_passed_none {id : Nat} (positive : 0 < id) : ¬ Passed none id :=
  Nat.not_le_of_lt positive

/-- **The connected frame.** It moves the mark to the head. What the mark passes is
covered by the resync to come, by the client's own, or was not owed. -/
theorem Good.greet {state : State} (good : Good state) {head : Option Nat} {needed : Bool}
    (ready : state.phase = .registered head needed) : Good (state.greet head needed) := by
  have marked := good.marked
  have shape := good.shape
  have returning := good.returning
  have handshake := good.handshake
  have inTime := good.inTime head
  unfold Handshake at handshake
  unfold QueueShape at shape
  rw [ready] at handshake shape returning inTime
  obtain ⟨decision, decides, bound⟩ := handshake
  have owes : ∀ id ∈ (state.greet head needed).owed,
      id ∈ state.owed ∧ (state.ResyncsItself → Passed state.mark id) :=
    fun id => mem_owed_onConnected.mp
  obtain ⟨resynced, same⟩ := greet_eq head needed state
  rw [same] at owes ⊢
  have ahead : ∀ id ∈ state.owed, (state.baseline.or (some (head.getD 0))).any (· < id) = true →
      ¬ Passed state.mark id ∧ (needed = false → ¬ state.ResyncsItself → head.getD 0 < id) := by
    intro id owed follows
    cases known : state.baseline with
    | none =>
        rw [known] at follows
        rw [good.unmarked known]
        exact ⟨not_passed_none (good.id_pos owed), fun _ _ => by simpa using follows⟩
    | some first =>
        have follows : state.Followed id := by
          rw [known] at follows
          unfold State.Followed
          rw [known]
          exact follows
        have unpassed : ¬ Passed state.mark id := by
          have accounted := good.accounted id owed follows
          unfold AccountedFor at accounted
          rw [ready] at accounted
          exact accounted
        refine ⟨unpassed, fun silent notSelf => ?_⟩
        have again : state.needsResync = true := by
          rw [known] at returning
          simpa [Phase.isGreeted] using returning
        cases mark : state.mark with
        | none =>
            refine absurd ⟨again, ?_⟩ notSelf
            rw [decides, mark]
            simp
        | some mark =>
            rw [mark, again, silent] at decision
            have before := le_of_not_resyncNeeded decision.symm
            rw [mark] at unpassed
            unfold Passed at unpassed
            simp only [Option.getD_some] at unpassed
            omega
  refine ⟨good.positive, good.below, good.awaited, good.queued, ?_, ?_, ?_, ?_, ?_, ?_, ?_,
    ?_⟩
  · cases head with
    | none => exact marked
    | some head => exact bound
  · intro none_
    cases known : state.baseline <;> simp [known] at none_
  · intro _
    cases needed <;> exact .inr rfl
  · intro _ none_
    cases known : state.baseline <;> simp [known] at none_
  · cases needed with
    | true => exact marked
    | false => trivial
  · cases needed <;> exact shape
  · intro id stillOwed follows
    obtain ⟨owed, self⟩ := owes id stillOwed
    obtain ⟨unpassed, beyond⟩ := ahead id owed follows
    cases needed with
    | true => exact unpassed
    | false =>
        have notSelf : ¬ state.ResyncsItself := fun resyncs => unpassed (self resyncs)
        have later := beyond rfl notSelf
        refine ((inTime rfl).resolve_left notSelf id owed later).imp_right fun pending => ?_
        refine ⟨pending, ?_⟩
        cases head with
        | none => exact unpassed
        | some head => exact Nat.not_le_of_lt later
  · intro other phase
    cases needed <;> cases phase

/-! ## Sending -/

/-- A resync that is delivered covers what was pending. -/
theorem Good.resync {state : State} (good : Good state) {before : Option Nat}
    (due : state.phase = .resyncDue before) : Good (state.resync before) := by
  have shape := good.shape
  have following := good.following
  unfold QueueShape at shape
  rw [due] at shape following
  refine ⟨good.positive, good.below, good.awaited, good.queued, good.marked, good.unmarked,
    fun _ => .inr rfl, fun _ => following rfl, trivial, shape, ?_, nofun⟩
  intro id owes followed
  have covered : id ∈ (state.cover before).owed := owes
  obtain ⟨owed, passed⟩ := mem_owed_cover.mp covered
  have accounted := good.accounted id owed followed
  unfold AccountedFor at accounted
  rw [due] at accounted
  exact absurd passed accounted

/-- A pending resync leaves nothing to deliver. -/
theorem Good.unpending {state : State} (good : Good state) {id : Nat} {rest : List Frame}
    (front : state.queue = .event id :: rest) : state.resyncPending = false := by
  have shape := good.shape
  unfold QueueShape at shape
  by_contra pending
  rw [Bool.not_eq_false] at pending
  rw [if_pos pending, front] at shape
  split at shape <;> cases shape

/-- An event that is delivered moves the mark to it. -/
theorem Good.deliver {state : State} (good : Good state) {id : Nat} {rest : List Frame}
    (live : state.phase = .live) (front : state.queue = .event id :: rest) :
    Good (state.deliver id rest) := by
  have unpending := good.unpending front
  have following : state.baseline ≠ none := good.following (by rw [live]; rfl)
  have still : (state.deliver id rest).phase = .live := live
  have waiting : ∀ other, .event other ∈ rest → .event other ∈ state.queue := by
    intro other queued
    rw [front]
    exact List.mem_cons_of_mem _ queued
  have bound := good.queued id (by rw [front]; exact List.mem_cons_self)
  refine ⟨good.positive, good.below, good.awaited, ?_, ?_, ?_, ?_, ?_, ?_, ?_, ?_, ?_⟩
  · exact fun other queued => good.queued other (waiting other queued)
  · have mark := getD_advance state.mark id
    exact mark ▸ Nat.max_le.mpr ⟨good.marked, bound⟩
  · exact fun none_ => absurd none_ following
  · exact fun _ => .inr (by rw [still]; rfl)
  · exact fun _ => following
  · unfold Handshake
    rw [still]
    trivial
  · have shape := good.shape
    unfold QueueShape at shape ⊢
    rw [if_neg (by rw [unpending]; nofun), front] at shape
    rw [if_neg (by rw [show (state.deliver id rest).resyncPending = false from unpending]; nofun)]
    exact ⟨fun queued => shape.1 (List.mem_cons_of_mem _ queued), shape.2⟩
  · intro other owes followed
    obtain ⟨present, undelivered, uncovered⟩ := mem_owed.mp owes
    have undelivered : other ∉ state.delivered ∧ other ≠ id := by
      simpa [State.deliver] using undelivered
    have owed : other ∈ state.owed := mem_owed.mpr ⟨present, undelivered.1, uncovered⟩
    have accounted := good.accounted other owed followed
    unfold AccountedFor at accounted ⊢
    rw [live] at accounted
    rw [still]
    rcases accounted with (waits | queued) | ⟨pending, -⟩
    · exact .inl (.inl waits)
    · rw [front] at queued
      rcases List.mem_cons.mp queued with same | queued
      · cases same
        exact absurd rfl undelivered.2
      · exact .inl (.inr queued)
    · rw [unpending] at pending
      cases pending
  · intro head phase
    rw [still] at phase
    cases phase

/-- The sentinel is dequeued: a resync is pending, and nothing else is queued. -/
theorem Good.catchUp {state : State} (good : Good state) {reads : Bool} {rest : List Frame}
    (live : state.phase = .live) (front : state.queue = .overflow :: rest) :
    Good (state.catchUp reads rest) := by
  have shape := good.shape
  unfold QueueShape at shape
  have pending : state.resyncPending = true := by
    by_contra unpending
    rw [if_neg unpending, front] at shape
    exact shape.1 List.mem_cons_self
  rw [if_pos pending, live] at shape
  have only : rest = [] := by
    rw [front] at shape
    simpa [Phase.isCatchingUp] using shape
  refine ⟨good.positive, good.below, good.awaited, ?_, good.marked, good.unmarked,
    fun _ => .inr rfl, fun _ => good.following (by rw [live]; rfl), ?_, ?_, ?_, nofun⟩
  · rw [only]
    nofun
  · unfold Handshake
    dsimp only [State.catchUp]
    split
    · exact Nat.le_refl _
    · exact Nat.zero_le _
  · unfold QueueShape
    rw [if_pos (show (state.catchUp reads rest).resyncPending = true from pending)]
    exact only
  · intro id owes followed
    have accounted := good.accounted id owes followed
    unfold AccountedFor at accounted
    rw [live] at accounted
    rcases accounted with (waits | queued) | behind
    · exact .inl (.inl waits)
    · rw [shape] at queued
      simp [Phase.isCatchingUp] at queued
    · exact .inr behind

/-- The answer to an overflow covers all that was dropped. -/
theorem Good.refresh {state : State} (good : Good state) {head : Option Nat}
    (catching : state.phase = .catchingUp head) : Good (state.refresh head) := by
  have shape := good.shape
  have handshake := good.handshake
  have following : state.baseline ≠ none := good.following (by rw [catching]; rfl)
  unfold QueueShape at shape
  unfold Handshake at handshake
  rw [catching] at shape handshake
  have pending : state.resyncPending = true := by
    by_contra unpending
    rw [if_neg unpending] at shape
    cases shape.2
  rw [if_pos pending] at shape
  have empty : state.queue = [] := shape
  refine ⟨good.positive, good.below, good.awaited, good.queued, ?_, ?_, fun _ => .inr rfl,
    fun _ => following, trivial, ⟨?_, rfl⟩, ?_, nofun⟩
  · cases head with
    | none => exact good.marked
    | some head =>
        have mark := getD_advance state.mark head
        exact mark ▸ Nat.max_le.mpr ⟨good.marked, handshake⟩
  · exact fun none_ => absurd none_ following
  · change .overflow ∉ state.queue
    rw [empty]
    nofun
  · intro id owes followed
    have covered : id ∈ (state.cover state.mark).owed := owes
    obtain ⟨owed, passed⟩ := mem_owed_cover.mp covered
    have accounted := good.accounted id owed followed
    unfold AccountedFor at accounted
    rw [catching] at accounted
    rcases accounted with way | ⟨-, ahead⟩
    · exact .inl way
    · exact absurd passed ahead

/-- **The end of a stream.** What is still on its way must lie ahead of the mark. -/
theorem Good.disconnect {state : State} (good : Good state)
    (admitted : Admits state .disconnect) : Good state.disconnect := by
  refine ⟨good.positive, good.below, good.awaited, nofun, good.marked, good.unmarked,
    fun _ => .inl rfl, nofun, trivial, ⟨nofun, rfl⟩, ?_, nofun⟩
  intro id owed followed
  have owes : id ∈ state.owed := owed
  have accounted := good.accounted id owes followed
  unfold AccountedFor at accounted
  unfold Admits at admitted
  change ¬ Passed state.mark id
  intro passed
  have skipped : state.Skipped id := ⟨owes, followed, passed⟩
  cases phase : state.phase with
  | closed | opening _ | headRead _ _ | registered _ _ =>
      rw [phase] at accounted
      exact accounted passed
  | resyncDue before =>
      rw [phase] at accounted admitted
      exact admitted id owes accounted skipped
  | live | catchingUp _ =>
      rw [phase] at accounted admitted
      rcases accounted with (waits | queued) | ⟨-, ahead⟩
      · exact admitted id (List.mem_append_left _ waits) skipped
      · exact admitted id (List.mem_append_right _ (mem_queuedIds.mpr queued)) skipped
      · exact ahead passed

/-- Every admitted step keeps the invariant. -/
theorem Good.step {state next : State} (good : Good state) {action : Action}
    (admitted : Admits state action) (moved : step state action = some next) : Good next := by
  cases action with
  | commit event =>
      simp only [Stream.step] at moved
      split at moved
      next later =>
        cases moved
        exact good.append later
      next => cases moved
  | broadcast id =>
      simp only [Stream.step] at moved
      split at moved
      next awaits =>
        cases moved
        exact good.broadcast admitted awaits
      next => cases moved
  | openStream =>
      simp only [Stream.step] at moved
      split at moved
      next closed =>
        cases moved
        exact good.openStream closed
      next => cases moved
  | readHead =>
      simp only [Stream.step] at moved
      split at moved
      next watermark opening =>
        cases moved
        exact good.connectState opening
      next => cases moved
  | register =>
      simp only [Stream.step] at moved
      split at moved
      next head needed read =>
        cases moved
        exact good.connect read admitted
      next => cases moved
  | greet =>
      simp only [Stream.step] at moved
      split at moved
      next head needed ready =>
        cases moved
        exact good.greet ready
      next => cases moved
  | resync =>
      simp only [Stream.step] at moved
      split at moved
      next before due =>
        cases moved
        exact good.resync due
      next => cases moved
  | deliver =>
      simp only [Stream.step] at moved
      split at moved
      next id rest live front =>
        cases moved
        exact good.deliver live front
      next => cases moved
  | catchUp reads =>
      simp only [Stream.step] at moved
      split at moved
      next rest live front =>
        cases moved
        exact good.catchUp live front
      next => cases moved
  | refresh =>
      simp only [Stream.step] at moved
      split at moved
      next head catching =>
        cases moved
        exact good.refresh catching
      next => cases moved
  | disconnect =>
      simp only [Stream.step] at moved
      split at moved
      next => cases moved
      next =>
        cases moved
        exact good.disconnect admitted

/-- No event is past the head. -/
theorem le_currentEventId {log : List ActivityEvent} (ordered : (log.map (·.id)).Pairwise (· < ·))
    {event : ActivityEvent} (logged : event ∈ log) :
    event.id ≤ (currentEventId log).getD 0 := by
  induction log using List.reverseRecOn with
  | nil => cases logged
  | append_singleton earlier last ih =>
      rw [currentEventId_append, Option.getD_some]
      rw [List.map_append, List.pairwise_append] at ordered
      rcases List.mem_append.mp logged with old | new
      · exact Nat.le_of_lt (ordered.2.2 _ (List.mem_map_of_mem old) _ (by simp))
      · cases List.mem_singleton.mp new
        exact Nat.le_refl _

/-- A page just opened is good. -/
theorem good_of_initial {state : State} (begins : system.Initial state) : Good state := by
  obtain ⟨log, rfl, ordered, positive⟩ := begins
  refine ⟨positive, fun event logged => le_currentEventId ordered logged, nofun, nofun,
    Nat.zero_le _, fun _ => rfl, fun follows => absurd rfl follows, nofun, trivial,
    ⟨nofun, rfl⟩, ?_, nofun⟩
  intro id owes followed
  cases followed

/-- **Nothing is missed** in a run of admitted steps. -/
theorem missesNothing_of_admitted {state : State}
    (reached : system.ReachedWithin Admits state) : MissesNothing state := by
  have good : Good state := by
    apply reached.invariant
    · exact fun _ => good_of_initial
    · intro before action after good admitted moved
      exact good.step admitted moved
  exact good.missesNothing

/-! ## Runs -/

instance (state : State) (action : Action) : Decidable (Admits state action) := by
  unfold Admits
  split
  all_goals first | infer_instance | (split <;> infer_instance)

/-- An idle live stream that owes an event the client follows. -/
def missing (state : State) : Bool :=
  state.awaiting == [] && state.phase == .live && state.queue == [] &&
    !state.resyncPending && state.owed.any fun id => decide (state.Followed id)

/-- A state found to miss an event misses one. -/
theorem not_missesNothing_of_missing {state : State} (bad : missing state = true) :
    ¬ MissesNothing state := by
  intro nothing
  simp only [missing, Bool.and_eq_true, beq_iff_eq, Bool.not_eq_true', List.any_eq_true,
    decide_eq_true_eq] at bad
  obtain ⟨⟨⟨⟨announced, live⟩, empty⟩, unpending⟩, id, owes, followed⟩ := bad
  exact (nothing ⟨announced, .inr ⟨live, empty, unpending⟩⟩ id owes followed).2 live

/-- A page opened when the log has one event. -/
def openedPage : State := .fresh [⟨1, true⟩]

/-- The run below starts as a page does. -/
theorem openedPage_initial : system.Initial openedPage := ⟨_, rfl, by decide, by decide⟩

/-- The second event commits and is broadcast between the reading of the head and the
registration of the queue, and the third moves the mark past it. -/
theorem event_slips_between_head_and_queue :
    ¬ ∀ state, system.Reachable state → MissesNothing state := by
  intro nothing
  obtain ⟨state, reached, bad⟩ := TransitionSystem.exists_reachable_of_run openedPage_initial
    [.openStream, .readHead, .register, .greet, .disconnect, .openStream, .readHead,
      .commit ⟨2, true⟩,
      .broadcast 2, .register, .greet, .commit ⟨3, true⟩, .broadcast 3, .deliver] missing
    (by decide)
  exact not_missesNothing_of_missing bad (nothing state reached)

/-- An event that commits while there is no stream is covered by the resync of the
reconnect. -/
theorem missesNothing_after_reconnect :
    ∃ state, (state.AtRest ∧ state.phase = .live ∧ state.resynced = [2]) ∧
      MissesNothing state := by
  obtain ⟨state, reached, shape⟩ := TransitionSystem.exists_reachedWithin_of_run Admits
    openedPage_initial
    [.openStream, .readHead, .register, .greet, .disconnect, .commit ⟨2, true⟩, .broadcast 2,
      .openStream, .readHead, .register, .greet, .resync]
    (fun state => state.awaiting == [] && state.phase == .live && state.queue == [] &&
      !state.resyncPending && state.resynced == [2]) (by decide)
  simp only [Bool.and_eq_true, beq_iff_eq, Bool.not_eq_true'] at shape
  obtain ⟨⟨⟨⟨announced, live⟩, empty⟩, unpending⟩, resynced⟩ := shape
  exact ⟨state, ⟨⟨announced, .inr ⟨live, empty, unpending⟩⟩, live, resynced⟩,
    missesNothing_of_admitted reached⟩

end FrontDashboard.Stream
