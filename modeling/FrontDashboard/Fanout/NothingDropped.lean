import FrontDashboard.Fanout.Manager

/-! # No frame is dropped silently

Every frame offered to a client whose session is not revoked has been yielded to it, has
been followed by a resync, or is still to come: it is queued, or a resync is due. What is
still to come comes by the stream's own steps.
-/

namespace FrontDashboard.Fanout

variable {Message : Type}

theorem one_le_queueMax : 1 ≤ queueMax := by decide

namespace Client

/-- A frame was yielded. -/
def Yielded (client : Client Message) (serial : Nat) (message : Message) : Prop :=
  .frame serial message ∈ client.sent

/-- A resync was yielded after a frame was offered. -/
def Followed (client : Client Message) (serial : Nat) : Prop :=
  ∃ scopes head offered, .resync scopes head offered ∈ client.sent ∧ serial < offered

/-- A resync is due: its sentinel is queued or just dequeued. -/
def OwesResync (client : Client Message) : Prop :=
  .overflow ∈ client.queue ∨ client.phase = .readingHead

/-- Every frame offered was yielded or followed by a resync. -/
def Settled (client : Client Message) : Prop :=
  ∀ serial message, client.offered[serial]? = some message →
    client.Yielded serial message ∨ client.Followed serial

/-- No frame was dropped silently, the queue is within its bound, and a pending resync is
due or the session was revoked. -/
structure LosesNothing (client : Client Message) : Prop where
  accounted : client.revoked = false → ∀ serial message,
    client.offered[serial]? = some message → client.Yielded serial message ∨
      client.Followed serial ∨ .frame serial message ∈ client.queue ∨ client.OwesResync
  bounded : client.queue.length ≤ queueMax
  pending : client.resyncPending = true → client.OwesResync ∨ client.revoked = true

/-- The invariant: a client that is not revoked is registered, and its queue does not say
otherwise. -/
structure Good (client : Client Message) : Prop extends LosesNothing client where
  unrevoked : client.revoked = false → client.registered = true ∧ .revoked ∉ client.queue

/-- What was accounted for stays so when the queue, the phase and the sent frames change
as they do in one step. -/
theorem Good.of_accounted {before after : Client Message} (good : Good before)
    (same : after.offered = before.offered) (unrevoked : after.revoked = before.revoked)
    (registered : after.registered = before.registered)
    (sent : ∀ item ∈ before.sent, item ∈ after.sent)
    (queued : ∀ serial message, .frame serial message ∈ before.queue →
      .frame serial message ∈ after.queue ∨ after.Yielded serial message)
    (owed : before.OwesResync → after.OwesResync ∨
      ∀ serial < before.offered.length, after.Followed serial)
    (shorter : ∀ item ∈ after.queue, item ∈ before.queue)
    (bounded : after.queue.length ≤ before.queue.length)
    (pending : after.resyncPending = true → after.OwesResync ∨ after.revoked = true) :
    Good after where
  accounted := by
    intro live serial message offered
    rw [same] at offered
    rw [unrevoked] at live
    rcases good.accounted live serial message offered with yielded | followed | inside | owes
    · exact .inl (sent _ yielded)
    · obtain ⟨scopes, head, count, member, earlier⟩ := followed
      exact .inr (.inl ⟨scopes, head, count, sent _ member, earlier⟩)
    · rcases queued serial message inside with still | yielded
      · exact .inr (.inr (.inl still))
      · exact .inl yielded
    · rcases owed owes with still | followed
      · exact .inr (.inr (.inr still))
      · obtain ⟨within, -⟩ := List.getElem?_eq_some_iff.mp offered
        exact .inr (.inl (followed serial within))
  bounded := Nat.le_trans bounded good.bounded
  pending := pending
  unrevoked := by
    intro live
    rw [unrevoked] at live
    obtain ⟨here, absent⟩ := good.unrevoked live
    exact ⟨registered.trans here, fun inside => absent (shorter _ inside)⟩

/-- **A frame offered** is queued, or a resync is due. -/
theorem Good.offer {client : Client Message} (good : Good client) (message : Message) :
    Good (client.offer message) := by
  have recent : ∀ serial found, (client.offered ++ [message])[serial]? = some found →
      client.offered[serial]? = some found ∨ serial = client.offered.length ∧ found = message := by
    intro serial found offered
    by_cases within : serial < client.offered.length
    · rw [List.getElem?_append_left within] at offered
      exact .inl offered
    · have last : serial = client.offered.length := by
        have bound := (List.getElem?_eq_some_iff.mp offered).1
        rw [List.length_append, List.length_singleton] at bound
        omega
      subst last
      rw [List.getElem?_concat_length] at offered
      exact .inr ⟨rfl, (Option.some.inj offered).symm⟩
  unfold Client.offer
  split
  next pending =>
    refine ⟨⟨?_, good.bounded, good.pending⟩, good.unrevoked⟩
    intro live serial found _
    rcases good.pending pending with owes | revoked
    · exact .inr (.inr (.inr owes))
    · rw [show client.revoked = false from live] at revoked
      cases revoked
  next =>
    split
    next fits =>
      refine ⟨⟨?_, ?_, ?_⟩, ?_⟩
      · intro live serial found offered
        rcases recent serial found offered with before | ⟨rfl, rfl⟩
        · rcases good.accounted live serial found before with yielded | followed | inside | owes
          · exact .inl yielded
          · exact .inr (.inl followed)
          · exact .inr (.inr (.inl (List.mem_append_left _ inside)))
          · exact .inr (.inr (.inr (owes.imp_left (List.mem_append_left _))))
        · exact .inr (.inr (.inl (List.mem_append_right _ List.mem_cons_self)))
      · rw [List.length_append]
        exact fits
      · intro pending
        exact (good.pending pending).imp_left (.imp_left (List.mem_append_left _))
      · intro live
        obtain ⟨here, absent⟩ := good.unrevoked live
        refine ⟨here, fun inside => ?_⟩
        rcases List.mem_append.mp inside with before | added
        · exact absent before
        · cases List.mem_singleton.mp added
    next =>
      have owes : ∀ noted : Client Message, noted.overflow.OwesResync :=
        fun _ => .inl List.mem_cons_self
      refine ⟨⟨?_, one_le_queueMax, fun _ => .inl (owes _)⟩, ?_⟩
      · exact fun _ _ _ _ => .inr (.inr (.inr (owes _)))
      · intro live
        refine ⟨(good.unrevoked live).1, fun inside => ?_⟩
        cases List.mem_singleton.mp inside

/-- A step that only moves the stream on. -/
theorem Good.moved {client : Client Message} (good : Good client) {phase : Phase}
    (idle : client.phase ≠ .readingHead) : Good { client with phase := phase } := by
  refine good.of_accounted rfl rfl rfl (fun _ => id) (fun _ _ => .inl) ?_ (fun _ => id)
    (Nat.le_refl _) ?_
  · exact fun owes => .inl (.inl (owes.resolve_right idle))
  · exact fun pending => (good.pending pending).imp_left fun owes => .inl (owes.resolve_right idle)

theorem Good.yielded {client : Client Message} (good : Good client) (sent : Sent Message)
    {phase : Phase} (idle : client.phase ≠ .readingHead) : Good (client.yield sent phase) := by
  refine good.of_accounted rfl rfl rfl ?_ (fun _ _ => .inl) ?_ (fun _ => id) (Nat.le_refl _) ?_
  · exact fun _ => List.mem_append_left _
  · exact fun owes => .inl (.inl (owes.resolve_right idle))
  · exact fun pending => (good.pending pending).imp_left fun owes => .inl (owes.resolve_right idle)

/-- **A frame dequeued** is yielded. -/
theorem Good.dequeueFrame {client : Client Message} (good : Good client) {serial : Nat}
    {message : Message} {rest : List (Item Message)} (waits : client.phase = .waiting)
    (front : client.queue = .frame serial message :: rest) :
    Good ({ client with queue := rest }.yield (.frame serial message) .looping) := by
  have owed : client.OwesResync → .overflow ∈ rest := by
    rintro (queued | reading)
    · rw [front] at queued
      rcases List.mem_cons.mp queued with same | later
      · cases same
      · exact later
    · rw [waits] at reading
      cases reading
  refine good.of_accounted rfl rfl rfl ?_ ?_ ?_ ?_ ?_ ?_
  · exact fun _ => List.mem_append_left _
  · intro other found inside
    rw [front] at inside
    rcases List.mem_cons.mp inside with same | later
    · cases same
      exact .inr (List.mem_append_right _ List.mem_cons_self)
    · exact .inl later
  · exact fun owes => .inl (.inl (owed owes))
  · intro item inside
    rw [front]
    exact List.mem_cons_of_mem _ inside
  · rw [front]
    exact Nat.le_succ _
  · exact fun pending => (good.pending pending).imp_left fun owes => .inl (owed owes)

theorem Good.dequeueOverflow {client : Client Message} (good : Good client)
    {rest : List (Item Message)} (front : client.queue = .overflow :: rest) :
    Good { client with queue := rest, phase := .readingHead } := by
  refine good.of_accounted rfl rfl rfl (fun _ => id) ?_ (fun _ => .inl (.inr rfl)) ?_ ?_
    (fun _ => .inl (.inr rfl))
  · intro other found inside
    rw [front] at inside
    rcases List.mem_cons.mp inside with same | later
    · cases same
    · exact .inl later
  · intro item inside
    rw [front]
    exact List.mem_cons_of_mem _ inside
  · rw [front]
    exact Nat.le_succ _

/-- **The resync** that answers an overflow follows everything offered so far. -/
theorem Good.headRead {client : Client Message} (good : Good client) (head : Option Nat) :
    Good ({ client with resyncPending := false }.yield
      (.resync none head client.offered.length) .looping) := by
  refine good.of_accounted rfl rfl rfl ?_ (fun _ _ => .inl) ?_ (fun _ => id) (Nat.le_refl _) ?_
  · exact fun _ => List.mem_append_left _
  · intro _
    right
    intro serial within
    exact ⟨none, head, _, List.mem_append_right _ List.mem_cons_self, within⟩
  · intro pending
    cases pending

theorem Good.advance {client after : Client Message} (good : Good client)
    {action : StreamAction} (moved : client.advance action = some (some after)) : Good after := by
  cases action with
  | greet | resync =>
      simp only [Client.advance] at moved
      split at moved
      next here =>
        cases moved
        exact good.yielded _ (by rw [here]; nofun)
      next => cases moved
  | checkSession | await | timeout =>
      simp only [Client.advance] at moved
      split at moved
      next here =>
        cases moved
        exact good.moved (by rw [here]; nofun)
      next => cases moved
  | revalidated live =>
      simp only [Client.advance] at moved
      split at moved
      next here =>
        cases live <;> cases moved
        exact good.moved (by rw [here]; nofun)
      next => cases moved
  | expire =>
      simp only [Client.advance] at moved
      split at moved <;> cases moved
  | dequeue =>
      simp only [Client.advance] at moved
      split at moved
      next serial message rest waits front =>
        cases moved
        exact good.dequeueFrame waits front
      next rest _ front =>
        cases moved
        exact good.dequeueOverflow front
      next => cases moved
      next => cases moved
  | headRead head =>
      simp only [Client.advance] at moved
      split at moved
      next =>
        cases moved
        exact good.headRead head
      next => cases moved
  | close => cases moved

end Client

/-! ## Runs -/

/-- One client's stream takes some steps of its own and stays open. -/
inductive Client.Goes : Client Message → List StreamAction → Client Message → Prop
  | stays (client : Client Message) : Goes client [] client
  | steps {client next after : Client Message} {action : StreamAction}
      {rest : List StreamAction} : client.advance action = some (some next) →
        Goes next rest after → Goes client (action :: rest) after

namespace Client

theorem Goes.trans {first second third : Client Message} {earlier later : List StreamAction}
    (goes : Goes first earlier second) (on : Goes second later third) :
    Goes first (earlier ++ later) third := by
  induction goes with
  | stays client => exact on
  | steps moved _ ih => exact .steps moved (ih on)

theorem Goes.one {client after : Client Message} {action : StreamAction}
    (moved : client.advance action = some (some after)) : Goes client [action] after :=
  .steps moved (.stays after)

theorem Goes.good {client after : Client Message} {actions : List StreamAction}
    (goes : Goes client actions after) (good : Good client) : Good after := by
  induction goes with
  | stays client => exact good
  | steps moved _ ih => exact ih (good.advance moved)

/-- Nothing else has changed than how far the stream has come. -/
structure SameButSent (before after : Client Message) : Prop where
  queue : after.queue = before.queue
  offered : after.offered = before.offered
  revoked : after.revoked = before.revoked

theorem SameButSent.trans {first second third : Client Message}
    (earlier : SameButSent first second) (later : SameButSent second third) :
    SameButSent first third :=
  ⟨later.queue.trans earlier.queue, later.offered.trans earlier.offered,
    later.revoked.trans earlier.revoked⟩

/-- With nothing queued and no resync due, everything offered is settled. -/
theorem Good.settled {client : Client Message} (good : Good client)
    (live : client.revoked = false) (empty : client.queue = []) (waits : client.phase = .waiting) :
    client.Settled := by
  intro serial message offered
  rcases good.accounted live serial message offered with yielded | followed | inside | owes
  · exact .inl yielded
  · exact .inr followed
  · rw [empty] at inside
    cases inside
  · rcases owes with queued | reading
    · rw [empty] at queued
      cases queued
    · rw [waits] at reading
      cases reading

end Client

end FrontDashboard.Fanout
