import FrontDashboard.Events.WellFormed

/-! # Every stored event is well-formed

In every run whose commits are admitted, the stored events are well-formed, and an event
without a recurrence has no overrides.
-/

namespace FrontDashboard.Events

open ReadCommitted
open Calendar

variable (zoneInfo : TimezoneName → Zone)

/-- **The property**, of the tables. -/
def AllWellFormed (tables : Tables) : Prop :=
  (∀ event ∈ tables.events, WellFormed zoneInfo event) ∧
    ∀ event ∈ tables.events, event.recurrence = none → tables.overridesOf event.id = []

/-! ## The commits admitted -/

/-- A column that an update leaves is as it was read. -/
def Unmoved {α : Type} (read revised row : α) : Prop := revised = read → row = read

/-- So is each that the checks have read. -/
structure Unmixed (read revised row : CalendarEvent) : Prop where
  startsAt : Unmoved read.startsAt revised.startsAt row.startsAt
  endsAt : Unmoved read.endsAt revised.endsAt row.endsAt
  timezone : Unmoved read.timezone revised.timezone row.timezone
  allDay : Unmoved read.allDay revised.allDay row.allDay
  recurrence : Unmoved read.recurrence revised.recurrence row.recurrence

/-- An event with a rule that ends is snapped back. An update keeps the rule that it has read
and meets the columns it leaves as it read them; overrides are inserted for an event that
still repeats, and deleted when no other was inserted. -/
def AdmitsWrite (tables : Tables) : Write → Prop
  | .insertEvent _ body => ∀ rule ∈ body.recurrence,
      SnapsBack zoneInfo rule body.allDay body.timezone body.startsAt
  | .updateEvent read revised body => KeepsRule zoneInfo read body ∧
      ∀ row ∈ tables.events, row.id = read.id → Unmixed read revised row
  | .insertOverride override => ∀ row ∈ tables.events, row.id = override.calendarEventId →
      row.recurrence ≠ none
  | .deleteOverrides id starts => ∀ override ∈ tables.overridesOf id,
      override.occurrenceStart ∈ starts
  | _ => True

def Admits (tables : Tables) (pending : List Write) : Prop :=
  ∀ write ∈ pending, AdmitsWrite zoneInfo tables write

instance {α : Type} [DecidableEq α] (read revised row : α) :
    Decidable (Unmoved read revised row) :=
  inferInstanceAs (Decidable (revised = read → row = read))

instance (read revised row : CalendarEvent) : Decidable (Unmixed read revised row) :=
  decidable_of_iff
    (Unmoved read.startsAt revised.startsAt row.startsAt ∧
      Unmoved read.endsAt revised.endsAt row.endsAt ∧
      Unmoved read.timezone revised.timezone row.timezone ∧
      Unmoved read.allDay revised.allDay row.allDay ∧
      Unmoved read.recurrence revised.recurrence row.recurrence)
    ⟨fun ⟨startsAt, endsAt, timezone, allDay, recurrence⟩ =>
      ⟨startsAt, endsAt, timezone, allDay, recurrence⟩,
      fun unmixed => ⟨unmixed.startsAt, unmixed.endsAt, unmixed.timezone, unmixed.allDay,
        unmixed.recurrence⟩⟩

instance (tables : Tables) (write : Write) : Decidable (AdmitsWrite zoneInfo tables write) := by
  unfold AdmitsWrite
  split <;> infer_instance

instance (tables : Tables) (pending : List Write) : Decidable (Admits zoneInfo tables pending) := by
  unfold Admits
  infer_instance

/-! ## What stands -/

structure Sound (tables : Tables) : Prop where
  formed : ∀ event ∈ tables.events, WellFormed zoneInfo event
  single : ∀ event ∈ tables.events, event.recurrence = none → tables.overridesOf event.id = []
  referenced : ∀ override ∈ tables.overrides, override.calendarEventId ∈ tables.events.map (·.id)

/-- Events stay, and come under a lock. -/
structure Relies (held : Set Lock) (before after : Tables) : Prop where
  stay : ∀ id ∈ before.events.map (·.id), id ∈ after.events.map (·.id)
  absent : ∀ id, .event id ∈ held → id ∉ before.events.map (·.id) →
    id ∉ after.events.map (·.id)

theorem Relies.refl (held : Set Lock) (tables : Tables) : Relies held tables tables :=
  ⟨fun _ present => present, fun _ _ absent => absent⟩

theorem Relies.trans {held : Set Lock} {first second third : Tables}
    (earlier : Relies held first second) (later : Relies held second third) :
    Relies held first third where
  stay := fun id before => later.stay id (earlier.stay id before)
  absent := fun id locked before => later.absent id locked (earlier.absent id locked before)

/-- Steps that leave the events in place are relied on. -/
theorem Relies.of_ids {held : Set Lock} {before after : Tables}
    (same : after.events.map (·.id) = before.events.map (·.id)) : Relies held before after := by
  constructor
  · intro id present
    rwa [same]
  · intro id _ absent
    rwa [same]

/-- Requests keep the stored events sound, and create events under a lock. -/
def forming : Interference Tables Lock where
  invariant := Sound zoneInfo
  rely := Relies
  refl := Relies.refl
  trans := fun _ _ _ _ => Relies.trans

variable {zoneInfo} {tables : Tables}

/-! ## Writes -/

/-- An unmoved column takes its new value. -/
theorem column_eq {α : Type} [DecidableEq α] {read revised row : α}
    (unmoved : Unmoved read revised row) : column read revised row = revised := by
  unfold column
  split
  next same => rw [unmoved same, same]
  next => rfl

/-- An update that meets the columns as it read them leaves what its checks have seen. -/
theorem WellFormed.merged {read revised row : CalendarEvent} (formed : WellFormed zoneInfo revised)
    (unmixed : Unmixed read revised row) : WellFormed zoneInfo (mergedEvent read revised row) := by
  have startsAt : (mergedEvent read revised row).startsAt = revised.startsAt :=
    column_eq unmixed.startsAt
  have endsAt : (mergedEvent read revised row).endsAt = revised.endsAt := column_eq unmixed.endsAt
  have timezone : (mergedEvent read revised row).timezone = revised.timezone :=
    column_eq unmixed.timezone
  have allDay : (mergedEvent read revised row).allDay = revised.allDay := column_eq unmixed.allDay
  have recurrence : (mergedEvent read revised row).recurrence = revised.recurrence :=
    column_eq unmixed.recurrence
  constructor
  · rw [startsAt, endsAt]
    exact formed.timeRange
  · rw [CalendarEvent.duration, recurrence, startsAt, endsAt]
    exact formed.duration
  · rw [recurrence, startsAt]
    exact formed.ends
  · rw [allDay, timezone, startsAt, endsAt]
    exact formed.whole

/-- An update leaves the events in place. -/
theorem ids_updateEvent (read revised : CalendarEvent) (body : CalendarEventUpdate) :
    (perform tables (.updateEvent read revised body)).events.map (·.id) =
      tables.events.map (·.id) := by
  rw [perform, List.map_map]
  apply List.map_congr_left
  intro row _
  change (if row.id = read.id then mergedEvent read revised row else row).id = row.id
  split <;> rfl

/-- Storing a revised event keeps the events well formed, where no other write mixed in. -/
theorem formed_updateEvent (sound : Sound zoneInfo tables) {read revised : CalendarEvent}
    (body : CalendarEventUpdate) (formed : WellFormed zoneInfo revised)
    (unmixed : ∀ row ∈ tables.events, row.id = read.id → Unmixed read revised row) :
    ∀ event ∈ (perform tables (.updateEvent read revised body)).events,
      WellFormed zoneInfo event := by
  intro event present
  obtain ⟨row, stored, rfl⟩ := List.mem_map.mp present
  split
  next named => exact formed.merged (unmixed row stored named)
  next => exact sound.formed row stored

/-- An event that is created has no overrides yet. -/
theorem Sound.insertEvent (sound : Sound zoneInfo tables) {event : CalendarEvent}
    (body : CalendarEventCreate) (formed : WellFormed zoneInfo event)
    (new : event.id ∉ tables.events.map (·.id)) :
    Sound zoneInfo (perform tables (.insertEvent event body)) where
  formed := by
    intro other present
    rcases List.mem_append.mp present with before | added
    · exact sound.formed other before
    · rw [List.mem_singleton.mp added]
      exact formed
  single := by
    intro other present oneOff
    rcases List.mem_append.mp present with before | added
    · exact sound.single other before oneOff
    · rw [List.mem_singleton.mp added]
      apply List.filter_eq_nil_iff.mpr
      intro override stored named
      have referenced := sound.referenced override stored
      rw [eq_of_beq named] at referenced
      exact new referenced
  referenced := by
    intro override stored
    rw [perform, List.map_append]
    exact List.mem_append_left _ (sound.referenced override stored)

/-- An update that takes no recurrence away. -/
theorem Sound.updateEvent (sound : Sound zoneInfo tables) {read revised : CalendarEvent}
    (body : CalendarEventUpdate) (formed : WellFormed zoneInfo revised)
    (unmixed : ∀ row ∈ tables.events, row.id = read.id → Unmixed read revised row)
    (repeats : revised.recurrence = none → read.recurrence = none) :
    Sound zoneInfo (perform tables (.updateEvent read revised body)) where
  formed := formed_updateEvent sound body formed unmixed
  single := by
    intro event present oneOff
    obtain ⟨row, stored, rfl⟩ := List.mem_map.mp present
    split at oneOff
    next named =>
      rw [if_pos named]
      have moved := (unmixed row stored named).recurrence
      have kept : revised.recurrence = none := (column_eq moved).symm.trans oneOff
      apply sound.single row stored
      rw [moved (kept.trans (repeats kept).symm), repeats kept]
    next different =>
      rw [if_neg different]
      exact sound.single row stored oneOff
  referenced := by
    rw [ids_updateEvent]
    exact sound.referenced

/-- An update that takes the recurrence away takes the overrides with it. -/
theorem Sound.convertEvent (sound : Sound zoneInfo tables) {read revised : CalendarEvent}
    (body : CalendarEventUpdate) (formed : WellFormed zoneInfo revised)
    (unmixed : ∀ row ∈ tables.events, row.id = read.id → Unmixed read revised row)
    {starts : List Int}
    (listed : ∀ override ∈ tables.overridesOf read.id, override.occurrenceStart ∈ starts) :
    Sound zoneInfo (perform (perform tables (.updateEvent read revised body))
      (.deleteOverrides read.id starts)) where
  formed := formed_updateEvent sound body formed unmixed
  single := by
    intro event present oneOff
    obtain ⟨row, stored, rfl⟩ := List.mem_map.mp present
    apply List.filter_eq_nil_iff.mpr
    intro override kept named
    obtain ⟨before, spared⟩ := List.mem_filter.mp kept
    have named := eq_of_beq named
    split at named
    next same =>
      have own : override.calendarEventId = read.id := named.trans same
      have gone := listed override (mem_overridesOf.mpr ⟨before, own⟩)
      simp [own, gone] at spared
    next different =>
      rw [if_neg different] at oneOff
      have inside : override ∈ tables.overridesOf row.id := mem_overridesOf.mpr ⟨before, named⟩
      rw [sound.single row stored oneOff] at inside
      cases inside
  referenced := by
    intro override kept
    change override.calendarEventId ∈
      (perform tables (.updateEvent read revised body)).events.map (·.id)
    rw [ids_updateEvent]
    exact sound.referenced override (List.mem_of_mem_filter kept)

/-- A new override keeps the tables sound. -/
theorem Sound.insertOverride (sound : Sound zoneInfo tables) {override : CalendarEventOverride}
    (stored : override.calendarEventId ∈ tables.events.map (·.id))
    (repeats : ∀ row ∈ tables.events, row.id = override.calendarEventId → row.recurrence ≠ none) :
    Sound zoneInfo (perform tables (.insertOverride override)) where
  formed := sound.formed
  single := by
    intro event present oneOff
    have different : override.calendarEventId ≠ event.id := by
      intro same
      exact repeats event present same.symm oneOff
    rw [perform, Tables.overridesOf, List.filter_append, List.append_eq_nil_iff]
    refine ⟨sound.single event present oneOff, ?_⟩
    rw [List.filter_singleton, beq_eq_false_iff_ne.mpr different]
    rfl
  referenced := by
    intro other kept
    rcases List.mem_append.mp kept with before | added
    · exact sound.referenced other before
    · rw [List.mem_singleton.mp added]
      exact stored

/-- An override that is changed keeps the tables sound. -/
theorem Sound.updateOverride (sound : Sound zoneInfo tables)
    (read revised : CalendarEventOverride) :
    Sound zoneInfo (perform tables (.updateOverride read revised)) where
  formed := sound.formed
  single := by
    intro event present oneOff
    apply List.filter_eq_nil_iff.mpr
    intro override kept named
    obtain ⟨row, before, rfl⟩ := List.mem_map.mp kept
    have own : row.calendarEventId = event.id := by
      have named := eq_of_beq named
      split at named <;> exact named
    have inside := mem_overridesOf.mpr ⟨before, own⟩
    rw [sound.single event present oneOff] at inside
    cases inside
  referenced := by
    intro override kept
    obtain ⟨row, before, rfl⟩ := List.mem_map.mp kept
    split <;> exact sound.referenced row before

/-! ## Requests -/

/-- The program keeps the stored events sound, started in a given transaction. -/
abbrev Kept (zoneInfo : TimezoneName → Zone) {α : Type}
    (post : α → List Write → Set Lock → Tables → Prop) (program : Handler α)
    (pending : List Write) (held : Set Lock) (tables : Tables) : Prop :=
  Ensures perform (forming zoneInfo) (Admits zoneInfo) post program pending held tables

/-- A pure part of a route either answers or ends it. -/
theorem kept_orRaise {α β : Type} {outcome : Except HttpError α} {rest : α → Handler β}
    {post : β → List Write → Set Lock → Tables → Prop} {pending : List Write} {held : Set Lock}
    (continues : ∀ value, outcome = .ok value →
      Kept zoneInfo post (rest value) pending held tables) :
    Kept zoneInfo post (orRaise outcome >>= rest) pending held tables := by
  cases outcome with
  | error error => exact Ensures.raise error pending held tables
  | ok value => exact continues value rfl

/-- Each request keeps the tables sound. -/
theorem kept_createEvent (id : EventId) (caller : UserId) (body : CalendarEventCreate)
    (tables : Tables) :
    Kept zoneInfo (fun _ _ _ _ => True) (createEvent zoneInfo id caller body) [] ∅ tables := by
  apply kept_orRaise
  intro event created
  have named := createdEvent_id created
  apply Ensures.acquire
  intro locked _ _
  apply Ensures.updateReturning
  intro inserted _ _
  split
  · trivial
  next new =>
    apply Ensures.commitTransaction
    intro later toLater sound admitted
    have formed := wellFormed_created (admitted (.insertEvent event body) (by simp)) created
    have absent : event.id ∉ later.events.map (·.id) := by
      rw [named]
      apply toLater.absent id (Set.mem_insert _ _)
      intro present
      obtain ⟨row, stored, same⟩ := List.mem_map.mp present
      exact new (List.any_eq_true.mpr ⟨row, stored, decide_eq_true same⟩)
    refine ⟨sound.insertEvent body formed absent, fun others apart => ?_, trivial⟩
    constructor
    · intro other present
      change other ∈ (later.events ++ [event]).map (·.id)
      rw [List.map_append]
      exact List.mem_append_left _ present
    · intro other theirs before after
      change other ∈ (later.events ++ [event]).map (·.id) at after
      rw [List.map_append] at after
      rcases List.mem_append.mp after with stored | added
      · exact before stored
      · have same := List.mem_singleton.mp added
        change other = event.id at same
        rw [same, named] at theirs
        exact Set.disjoint_left.mp apart (Set.mem_insert _ _) theirs

theorem kept_dropOverrides (id : EventId) (pending : List Write) (held : Set Lock)
    (tables : Tables) :
    Kept zoneInfo (fun _ after _ _ => ∃ starts, after = pending ++ [.deleteOverrides id starts])
      (dropOverrides id) pending held tables := by
  apply Ensures.query
  intro listed _ _
  apply Ensures.bind _ (Ensures.acquireAll _ _ pending held listed)
  · rintro _ _ holds waited ⟨rfl, -⟩ deleted _ _
    exact ⟨_, rfl⟩
  · exact fun key held _ _ relies =>
      ⟨relies.stay, fun id locked => relies.absent id (Set.mem_insert_of_mem key locked)⟩

/-- **A patch** keeps the stored events sound where its checks still hold at its commit. -/
theorem kept_updateEvent (id : EventId) (caller : UserId) (body : CalendarEventUpdate)
    (tables : Tables) :
    Kept zoneInfo (fun _ _ _ _ => True) (updateEvent zoneInfo id caller body) [] ∅ tables := by
  apply Ensures.query
  intro read _ sound
  split
  next => trivial
  next event found =>
    have before := sound.formed event (liveEvent_eq_some found).1
    apply kept_orRaise
    intro revised patched
    apply Ensures.acquire
    intro locked _ _
    apply Ensures.updateReturning
    intro written _ _
    split
    · trivial
    split
    next converts =>
      apply Ensures.bind _ (kept_dropOverrides event.id _ _ written)
      rintro _ _ held deleted ⟨starts, rfl⟩
      apply Ensures.commitTransaction
      intro later _ soundLater admitted
      obtain ⟨keeps, unmixed⟩ := admitted (.updateEvent event revised body) (by simp)
      have listed := admitted (.deleteOverrides event.id starts) (by simp)
      have formed := wellFormed_revised before keeps patched
      refine ⟨soundLater.convertEvent body formed unmixed listed, fun _ _ => ?_, trivial⟩
      exact Relies.of_ids (ids_updateEvent event revised body)
    next stays =>
      apply Ensures.commitTransaction
      intro later _ soundLater admitted
      obtain ⟨keeps, unmixed⟩ := admitted (.updateEvent event revised body) (by simp)
      have formed := wellFormed_revised before keeps patched
      have repeats : revised.recurrence = none → event.recurrence = none := by
        intro oneOff
        by_contra repeated
        exact stays ⟨Option.isSome_iff_ne_none.mpr repeated, Option.isNone_iff_eq_none.mpr oneOff⟩
      refine ⟨soundLater.updateEvent body formed unmixed repeats, fun _ _ => ?_, trivial⟩
      exact Relies.of_ids (ids_updateEvent event revised body)

theorem kept_writeOverride (existing : Option CalendarEventOverride)
    (override : CalendarEventOverride) (held : Set Lock) (tables : Tables) :
    Kept zoneInfo (fun _ _ _ _ => True) (writeOverride existing override) [] held tables := by
  apply Ensures.acquire
  intro locked _ _
  split
  next =>
    apply Ensures.updateReturning
    intro inserted _ _
    split
    · trivial
    next accepted =>
      apply Ensures.commitTransaction
      intro later toLater sound admitted
      have stored : override.calendarEventId ∈ later.events.map (·.id) := by
        apply toLater.stay
        simp only [Bool.or_eq_true, not_or, Bool.not_eq_true, Bool.not_eq_false'] at accepted
        obtain ⟨row, present, same⟩ := List.any_eq_true.mp accepted.1.2
        exact List.mem_map.mpr ⟨row, present, of_decide_eq_true same⟩
      have repeats := admitted (.insertOverride override) (by simp)
      exact ⟨sound.insertOverride stored repeats, fun _ _ => .of_ids rfl, trivial⟩
  next old =>
    apply Ensures.updateReturning
    intro updated _ _
    split
    · trivial
    apply Ensures.commitTransaction
    intro later _ sound _
    exact ⟨sound.updateOverride old override, fun _ _ => .of_ids rfl, trivial⟩

theorem kept_updateOccurrence (settings : Settings) (id : EventId) (caller : UserId)
    (body : CalendarOccurrenceUpdate) (tables : Tables) :
    Kept zoneInfo (fun _ _ _ _ => True) (updateOccurrence settings id caller body) [] ∅ tables := by
  apply kept_orRaise
  intro _ _
  apply Ensures.query
  intro read _ _
  split
  next => trivial
  next event _ =>
    split
    · trivial
    apply kept_orRaise
    intro _ _
    apply Ensures.query
    intro listed _ _
    apply Ensures.query
    intro counted _ _
    split
    · trivial
    apply kept_orRaise
    intro _ _
    apply kept_orRaise
    intro _ _
    apply kept_orRaise
    intro _ _
    exact kept_writeOverride _ _ _ _

/-! ## Runs -/

/-- The service keeps its tables sound. -/
theorem verified (settings : Settings) :
    Service.Verified (service zoneInfo settings) (forming zoneInfo) (Admits zoneInfo) where
  initially := by
    rintro _ rfl
    exact ⟨List.forall_mem_nil _, List.forall_mem_nil _, List.forall_mem_nil _⟩
  handlers := by
    intro _ request tables _
    cases request with
    | createEvent id caller body => exact kept_createEvent id caller body tables
    | updateEvent id caller body => exact kept_updateEvent id caller body tables
    | updateOccurrence id caller body => exact kept_updateOccurrence settings id caller body tables
  keeps := fun _ => nofun
  leaves := fun _ => nofun

/-- **Stored events are well-formed** in every run whose commits are admitted. -/
theorem allWellFormed_of_admitted {settings : Settings}
    {state : State Tables Write Lock HttpError Unit}
    (reached : (service zoneInfo settings).system.ReachedWithin
      (Service.CommitsWithin (Admits zoneInfo)) state) :
    AllWellFormed zoneInfo state.database := by
  have sound := Service.invariant_of_ensures (verified settings) reached
  exact ⟨sound.formed, sound.single⟩

/-! ## Patches that are checked apart -/

/-- Whole days in UTC begin at a multiple of a day. -/
theorem emod_of_wholeDays {name : TimezoneName} {startsAt endsAt : Int}
    (whole : WholeDays (utc name) startsAt endsAt) : startsAt % day = 0 := by
  obtain ⟨first, -, -, begins, -⟩ := whole
  unfold Zone.localToUtc checked at begins
  split at begins
  · cases begins
    simp [utc]
  · cases begins

def defaultSettings : Settings where
  quotaOverridesPerEvent := 500

def empty : State Tables Write Lock HttpError Unit where
  database := ⟨[], []⟩
  holder := fun _ => none
  processes := fun _ => none

/-- An empty database is where the run below starts. -/
theorem empty_initial (zoneInfo : TimezoneName → Zone) (settings : Settings) :
    (service zoneInfo settings).system.Initial empty :=
  ⟨rfl, fun _ => rfl, fun _ => rfl⟩

/-- A full hour, with the days counted from one in 2024. -/
def on (ordinal hour : Int) : Int := hourOf (739000 + ordinal) hour

def daily (untilAt : Option Int) : RecurrenceRule where
  frequency := .daily
  interval := 1
  byWeekday := none
  untilAt := untilAt
  count := none
  interval_bounds := RecurrenceRule.one_bounds
  count_bounds := RecurrenceRule.uncounted_bounds
  weekdays := RecurrenceRule.weekdays_of_daily

/-- An hour of one morning. -/
def visit (recurrence : Option RecurrenceRule) : CalendarEventCreate :=
  ⟨1, "Visit", none, none, on 5 9, on 5 10, "UTC", false, recurrence⟩

def unchanged : CalendarEventUpdate := ⟨none, none, none, none, none, none, none, none⟩

/-- The cancellation of one occurrence. -/
def cancellation (occurrenceStart : Int) : CalendarOccurrenceUpdate :=
  ⟨occurrenceStart, true, none, none, none, none, none, none, none⟩

/-- The first event is moved past the end of its rule. The second becomes a one-off event
while one of its occurrences is edited. The third is given a longer duration while it is
given a recurrence, and the fourth another start while it becomes all-day. -/
theorem checks_not_kept :
    ∃ state, (service utc defaultSettings).system.Reachable state ∧
      (∃ event ∈ state.database.events, ∃ rule ∈ event.recurrence,
        ¬ endsAfterStart rule event.startsAt) ∧
      (∃ event ∈ state.database.events, event.recurrence = none ∧
        state.database.overridesOf event.id ≠ []) ∧
      (∃ event ∈ state.database.events, event.recurrence.isSome = true ∧
        ¬ event.duration ≤ maxOccurrenceDuration) ∧
      ∃ event ∈ state.database.events, event.allDay = true ∧
        ¬ WholeDays (utc event.timezone) event.startsAt event.endsAt := by
  obtain ⟨state, reached, shape⟩ := TransitionSystem.exists_reachable_of_run
    (empty_initial utc defaultSettings)
    (runs 0 (.createEvent 1 1 (visit (some (daily (some (on 10 0)))))) 3 ++
      runs 1 (.updateEvent 1 1
        { unchanged with startsAt := some (on 20 9), endsAt := some (on 20 10) }) 4 ++
      runs 2 (.createEvent 2 1 (visit (some (daily none)))) 3 ++
      runs 3 (.updateOccurrence 2 1 (cancellation (on 6 9))) 3 ++
      runs 4 (.updateEvent 2 1 { unchanged with recurrence := some none }) 6 ++
      List.replicate 3 (.advance 3) ++ runs 5 (.createEvent 3 1 (visit none)) 3 ++
      runs 6 (.updateEvent 3 1 { unchanged with endsAt := some (on 50 9) }) 1 ++
      runs 7 (.updateEvent 3 1 { unchanged with recurrence := some (some (daily none)) }) 4 ++
      List.replicate 3 (.advance 6) ++ runs 8 (.createEvent 4 1 (visit none)) 3 ++
      runs 9 (.updateEvent 4 1 { unchanged with startsAt := some (on 5 9 + 1) }) 1 ++
      runs 10 (.updateEvent 4 1 { unchanged with allDay := some true }) 4 ++
      List.replicate 3 (.advance 9))
    (fun state => decide
      ((∃ event ∈ state.database.events, ∃ rule ∈ event.recurrence,
        ¬ endsAfterStart rule event.startsAt) ∧
      (∃ event ∈ state.database.events, event.recurrence = none ∧
        state.database.overridesOf event.id ≠ []) ∧
      (∃ event ∈ state.database.events, event.recurrence.isSome = true ∧
        ¬ event.duration ≤ maxOccurrenceDuration) ∧
      ∃ event ∈ state.database.events, event.allDay = true ∧ event.startsAt % day ≠ 0))
    (by decide)
  obtain ⟨past, edited, long, event, stored, all, within⟩ := of_decide_eq_true shape
  exact ⟨state, reached, past, edited, long, event, stored, all,
    fun whole => within (emod_of_wholeDays whole)⟩

/-- A series is moved within its rule, an occurrence of it is cancelled, and it becomes an
all-day event of its own. -/
theorem wellFormed_after_conversion :
    ∃ state : State Tables Write Lock HttpError Unit,
      (state.database.events.map (fun event =>
          (event.startsAt, event.endsAt, event.allDay, event.recurrence)) =
        [(on 7 0, on 8 0, true, none)] ∧ state.database.overrides = []) ∧
      AllWellFormed utc state.database := by
  obtain ⟨state, reached, shape⟩ := TransitionSystem.exists_reachedWithin_of_run
    (Service.CommitsWithin (Admits utc)) (empty_initial utc defaultSettings)
    (runs 0 (.createEvent 1 1 (visit (some (daily (some (on 10 0)))))) 3 ++
      runs 1 (.updateEvent 1 1
        { unchanged with startsAt := some (on 7 9), endsAt := some (on 7 10) }) 4 ++
      runs 2 (.updateOccurrence 1 1 (cancellation (on 8 9))) 6 ++
      runs 3 (.updateEvent 1 1 { unchanged with allDay := some true, recurrence := some none }) 7)
    (fun state => decide (state.database.events.map (fun event =>
        (event.startsAt, event.endsAt, event.allDay, event.recurrence)) =
          [(on 7 0, on 8 0, true, none)] ∧ state.database.overrides = []))
    (by decide)
  exact ⟨state, of_decide_eq_true shape, allWellFormed_of_admitted reached⟩

end FrontDashboard.Events
