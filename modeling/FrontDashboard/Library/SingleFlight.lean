import Mathlib.Data.List.Basic

/-! # Single-flight loads

Calls made while a load is in flight join it and share its promise. A call that insists on
fresh data queues one more request, since the one under way may have been answered before.
Whether each insisting call is served by a request of its own time is decided where the load
finishes: it must not finish while one is queued.
-/

/-- What happens to a load. -/
inductive FlightEvent (Call : Type*)
  | began (call : Call)
  | joined (call : Call) (insists : Bool)
  | requested
  | settled (call : Call)
  deriving DecidableEq

/-- The calls that await the load in flight, whether one more request is queued, and what has
happened, the latest first. -/
structure Flight (Call : Type*) where
  awaiting : Option (List Call)
  queued : Bool
  log : List (FlightEvent Call)

namespace Flight

variable {Call : Type*}

def idle : Flight Call := ⟨none, false, []⟩

/-- A call that finds no load in flight begins one. -/
def begin (call : Call) (flight : Flight Call) : Flight Call :=
  ⟨some [call], false, .requested :: .began call :: flight.log⟩

/-- One that finds a load joins it. -/
def join (call : Call) (insists : Bool) (flight : Flight Call) : Flight Call :=
  ⟨some (flight.awaiting.getD [] ++ [call]), flight.queued || insists,
    .joined call insists :: flight.log⟩

/-- One more request for the same calls. -/
def again (flight : Flight Call) : Flight Call :=
  ⟨flight.awaiting, false, .requested :: flight.log⟩

/-- The promise settles. -/
def finish (flight : Flight Call) : Flight Call :=
  ⟨none, flight.queued, (flight.awaiting.getD []).reverse.map .settled ++ flight.log⟩

/-! ## Calls that insist -/

/-- A request follows each call that insists. -/
def Served (log : List (FlightEvent Call)) : Prop :=
  ∀ call after before, log = after ++ .joined call true :: before → .requested ∈ after

/-- **Every call that insists** is followed by a request before its promise settles. -/
def Honoured (log : List (FlightEvent Call)) : Prop :=
  ∀ call after between before,
    log = after ++ .settled call :: (between ++ .joined call true :: before) →
      .requested ∈ between

variable {log : List (FlightEvent Call)} {flight : Flight Call}

/-- An empty log owes nothing. -/
theorem served_nil : Served ([] : List (FlightEvent Call)) := by
  intro call after before split
  simp at split

/-- After a request nothing is owed. -/
theorem Served.requested (log : List (FlightEvent Call)) : Served (.requested :: log) := by
  intro call after before split
  cases after with
  | nil => cases split
  | cons event after =>
      cases split
      exact List.mem_cons_self

/-- Events other than calls owe nothing more. -/
theorem Served.cons (served : Served log) {event : FlightEvent Call}
    (calm : ∀ call, event ≠ .joined call true) : Served (event :: log) := by
  intro call after before split
  cases after with
  | nil =>
      cases split
      exact absurd rfl (calm call)
  | cons event after =>
      cases split
      exact List.mem_cons_of_mem _ (served call after before rfl)

/-- In an empty log nothing is settled. -/
theorem honoured_nil : Honoured ([] : List (FlightEvent Call)) := by
  intro call after between before split
  simp at split

/-- An event that settles nothing leaves every call honoured. -/
theorem Honoured.cons (honoured : Honoured log) {event : FlightEvent Call}
    (open_ : ∀ call, event ≠ .settled call) : Honoured (event :: log) := by
  intro call after between before split
  cases after with
  | nil =>
      cases split
      exact absurd rfl (open_ call)
  | cons event after =>
      cases split
      exact honoured call after between before rfl

/-- A call that is settled when served leaves every call honoured. -/
theorem Honoured.settle (honoured : Honoured log) (served : Served log) (call : Call) :
    Honoured (.settled call :: log) := by
  intro other after between before split
  cases after with
  | nil =>
      cases split
      exact served _ between before rfl
  | cons event after =>
      cases split
      exact honoured other after between before rfl

/-- Where every call has been served, all may settle. -/
theorem settle_all (calls : List Call) (honoured : Honoured log) (served : Served log) :
    Honoured (calls.map .settled ++ log) ∧ Served (calls.map .settled ++ log) := by
  induction calls with
  | nil => exact ⟨honoured, served⟩
  | cons call rest ih =>
      refine ⟨ih.1.settle ih.2 call, ih.2.cons ?_⟩
      exact fun _ same => nomatch same

/-- The invariant: calls that have not been served are queued for. -/
structure Sound (flight : Flight Call) : Prop where
  honoured : Honoured flight.log
  served : flight.queued = false → Served flight.log

/-- A flight that is idle is sound. -/
theorem sound_idle : Sound (idle : Flight Call) := ⟨honoured_nil, fun _ => served_nil⟩

theorem Sound.begin (sound : Sound flight) (call : Call) : Sound (flight.begin call) := by
  refine ⟨?_, fun _ => .requested _⟩
  refine (sound.honoured.cons ?_).cons ?_
  · exact fun _ same => nomatch same
  · exact fun _ same => nomatch same

theorem Sound.join (sound : Sound flight) (call : Call) (insists : Bool) :
    Sound (flight.join call insists) := by
  refine ⟨sound.honoured.cons ?_, fun unqueued => ?_⟩
  · exact fun _ same => nomatch same
  · obtain ⟨before, relaxed⟩ := Bool.or_eq_false_iff.mp unqueued
    refine (sound.served before).cons ?_
    rintro other same
    cases same
    cases relaxed

theorem Sound.again (sound : Sound flight) : Sound flight.again := by
  refine ⟨sound.honoured.cons ?_, fun _ => .requested _⟩
  exact fun _ same => nomatch same

/-- A load may finish where nothing is queued. -/
theorem Sound.finish (sound : Sound flight) (unqueued : flight.queued = false) :
    Sound flight.finish := by
  obtain ⟨honoured, served⟩ :=
    settle_all (flight.awaiting.getD []).reverse sound.honoured (sound.served unqueued)
  exact ⟨honoured, fun _ => served⟩

/-- What may become of a load, which finishes over a queued call only if `honest` fails. -/
inductive Turn (honest : Prop) (flight : Flight Call) : Flight Call → Prop
  | stay : Turn honest flight flight
  | begin (call : Call) : Turn honest flight (flight.begin call)
  | join (call : Call) (insists : Bool) (flying : flight.awaiting.isSome = true) :
      Turn honest flight (flight.join call insists)
  | again : Turn honest flight flight.again
  | finish (unqueued : honest → flight.queued = false) : Turn honest flight flight.finish

/-- Each turn keeps a flight sound. -/
theorem Sound.turn {honest : Prop} {next : Flight Call} (sound : Sound flight)
    (turn : flight.Turn honest next) (holds : honest) : Sound next := by
  cases turn with
  | stay => exact sound
  | begin call => exact sound.begin call
  | join call insists => exact sound.join call insists
  | again => exact sound.again
  | finish unqueued => exact sound.finish (unqueued holds)

/-! ## And only there -/

/-- A call that insists and awaits the load, and that no request has followed yet. -/
def Unserved (flight : Flight Call) : Prop :=
  ∃ call ∈ flight.awaiting.getD [], ∃ after before,
    flight.log = after ++ .joined call true :: before ∧ .requested ∉ after

/-- A call that insists is not served by what is under way. -/
theorem unserved_join_insisting (call : Call) (flight : Flight Call) :
    Unserved (flight.join call true) :=
  ⟨call, List.mem_append_right _ List.mem_cons_self, [], flight.log, rfl, List.not_mem_nil⟩

/-- Others that join serve the call no more. -/
theorem Unserved.join (unserved : Unserved flight) (call : Call) (insists : Bool) :
    Unserved (flight.join call insists) := by
  obtain ⟨other, awaits, after, before, split, unrequested⟩ := unserved
  refine ⟨other, List.mem_append_left _ awaits, .joined call insists :: after, before, ?_, ?_⟩
  · exact congrArg (FlightEvent.joined call insists :: ·) split
  · exact fun member =>
      unrequested ((List.mem_cons.mp member).resolve_left fun same => nomatch same)

/-- **A load that finishes** over a call that has not been served swallows it. -/
theorem Unserved.not_honoured (unserved : Unserved flight) : ¬ Honoured flight.finish.log := by
  obtain ⟨call, awaits, after, before, split, unrequested⟩ := unserved
  intro honoured
  obtain ⟨first, last, calls⟩ := List.append_of_mem (List.mem_reverse.mpr awaits)
  have settled : flight.finish.log = first.map .settled ++ .settled call ::
      ((last.map .settled ++ after) ++ .joined call true :: before) := by
    rw [finish, calls, split]
    simp
  rcases List.mem_append.mp (honoured call _ _ _ settled) with done | requested
  · obtain ⟨other, -, same⟩ := List.mem_map.mp done
    cases same
  · exact unrequested requested

/-- Whatever is queued is queued for a call that has not been served. -/
def Tracked (flight : Flight Call) : Prop :=
  flight.awaiting.isSome = true → flight.queued = true → Unserved flight

/-- A turn keeps a flight tracked. -/
theorem Tracked.turn {honest : Prop} {next : Flight Call} (tracked : Tracked flight)
    (turn : flight.Turn honest next) : Tracked next := by
  cases turn with
  | stay => exact tracked
  | begin call => exact fun _ queued => nomatch queued
  | join call insists flying =>
      intro _ queued
      cases insists with
      | true => exact unserved_join_insisting call flight
      | false => exact (tracked flying ((Bool.or_false _).symm.trans queued)).join call false
  | again => exact fun _ queued => nomatch queued
  | finish unqueued => exact fun flying => nomatch flying

end Flight
