import FrontDashboard.Activity.Groups
import FrontDashboard.Library.Runs
import FrontDashboard.Library.Timestamp
import Mathlib.Algebra.Order.Group.Int
import Mathlib.Algebra.Order.Group.Unbundled.Abs

/-! # The rows partition the feed

The rows of the feed are the maximal sittings of its events, each counted by the entities
that it touched.
-/

namespace FrontDashboard.Activity.Groups

variable (dateParse : DateParse)

/-! ## What a row may stand for -/

/-- Events at most the collapse window apart. -/
def Near (first second : ActivityEvent) : Prop :=
  ∃ before ∈ dateParse first.createdAt, ∃ after ∈ dateParse second.createdAt,
    |before - after| ≤ collapseWindow

/-- Events that one row may stand for: they share a key and neighbours are near. -/
structure Sitting (members : List ActivityEvent) : Prop where
  shared : ∃ key, ∀ member ∈ members, collapseKey member = some key
  near : members.IsChain (Near dateParse)

/-- The timestamps that can be read do not increase along the feed. -/
def Ordered (events : List ActivityEvent) : Prop :=
  events.IsChain fun newer older =>
    ∀ before ∈ dateParse newer.createdAt, ∀ after ∈ dateParse older.createdAt, after ≤ before

/-- The rows are an exact partition of the feed. -/
structure Partition (events : List ActivityEvent) (groups : List ActivityGroup) : Prop where
  concatenated : groups.flatMap (·.members) = events
  represented : ∀ group ∈ groups, group.members.head? = some group.event
  sitting : ∀ group ∈ groups, 1 < group.members.length → Sitting dateParse group.members
  maximal : groups.IsChain fun newer older =>
    ¬ Sitting dateParse (newer.members ++ older.members)
  alone : ∀ group ∈ groups, ∀ member ∈ group.members,
    collapseKey member = none → group.members = [member]
  counted : ∀ group ∈ groups,
    group.entities = (group.members.map (·.entityId)).toFinset.card

/-! ## The fold finds the runs -/

/-- The test of the loop, of an event and the one before it. -/
def joins (previous next : ActivityEvent) : Bool :=
  decide (collapseKey next ≠ none ∧ collapseKey next = collapseKey previous) &&
    withinWindow (dateParse previous.createdAt) (dateParse next.createdAt)

/-- What the loop knows after the events that it has seen. -/
structure Seen (events : List ActivityEvent) (progress : Progress) : Prop where
  split : progress.groups.map (·.members) = events.splitBy (joins dateParse)
  key : ∀ newest ∈ events.getLast?, progress.runKey = collapseKey newest
  previous : ∀ newest ∈ events.getLast?, progress.runPreviousAt = dateParse newest.createdAt
  entities : ∀ last ∈ progress.groups.getLast?,
    progress.runEntities = (last.members.map (·.entityId)).toFinset
  represented : ∀ group ∈ progress.groups, group.members.head? = some group.event
  counted : ∀ group ∈ progress.groups,
    group.entities = (group.members.map (·.entityId)).toFinset.card

variable {dateParse}

/-- Before any event there are no groups. -/
theorem seen_start : Seen dateParse [] .start := by
  refine ⟨rfl, ?_, ?_, ?_, ?_, ?_⟩ <;> simp [Progress.start]

/-- An event apart from the last begins a group. -/
theorem seen_pushGroup {events : List ActivityEvent} {progress : Progress}
    (seen : Seen dateParse events progress) {event : ActivityEvent}
    (apart : ∀ previous ∈ events.getLast?, joins dateParse previous event = false) :
    Seen dateParse (events ++ [event]) (pushGroup dateParse progress event) := by
  refine ⟨?_, ?_, ?_, ?_, ?_, ?_⟩
  · rw [Runs.splitBy_concat_of_apart apart, ← seen.split]
    simp [pushGroup]
  · simp [pushGroup]
  · simp [pushGroup]
  · simp [pushGroup]
  · intro group member
    rcases List.mem_append.mp member with before | last
    · exact seen.represented group before
    · obtain rfl := List.mem_singleton.mp last
      rfl
  · intro group member
    rcases List.mem_append.mp member with before | last
    · exact seen.counted group before
    · obtain rfl := List.mem_singleton.mp last
      simp

/-- An event that joins the last is taken into its group. -/
theorem seen_pushMember {events : List ActivityEvent} {progress : Progress}
    (seen : Seen dateParse events progress) {last : ActivityGroup} {event : ActivityEvent}
    (found : progress.groups.getLast? = some last)
    (key : collapseKey event = progress.runKey)
    (joined : ∀ previous ∈ last.members.getLast?, joins dateParse previous event = true) :
    Seen dateParse (events ++ [event]) (pushMember dateParse progress last event) := by
  obtain ⟨earlier, same⟩ := List.getLast?_eq_some_iff.mp found
  have entities : insert event.entityId progress.runEntities =
      ((last.members ++ [event]).map (·.entityId)).toFinset := by
    rw [seen.entities last found]
    ext entity
    simp
  have split : events.splitBy (joins dateParse) = earlier.map (·.members) ++ [last.members] := by
    rw [← seen.split, same]
    simp
  have represented := seen.represented last (by simp [same])
  refine ⟨?_, ?_, ?_, ?_, ?_, ?_⟩
  · rw [Runs.splitBy_concat_of_joins split joined]
    simp [pushMember, same]
  · simpa [pushMember] using key.symm
  · simp [pushMember]
  · simpa [pushMember] using entities
  · intro group member
    rcases List.mem_append.mp member with before | newest
    · exact seen.represented group (List.mem_of_mem_dropLast before)
    · obtain rfl := List.mem_singleton.mp newest
      simp [List.head?_append, represented]
  · intro group member
    rcases List.mem_append.mp member with before | newest
    · exact seen.counted group (List.mem_of_mem_dropLast before)
    · obtain rfl := List.mem_singleton.mp newest
      exact congrArg Finset.card entities

/-- Two events join when they are of one kind and near in time. -/
theorem joins_iff {previous next : ActivityEvent} :
    joins dateParse previous next = true ↔
      (collapseKey next ≠ none ∧ collapseKey next = collapseKey previous) ∧
        withinWindow (dateParse previous.createdAt) (dateParse next.createdAt) = true := by
  rw [joins, Bool.and_eq_true, decide_eq_true_eq]

/-- The last row ends with the last event. -/
theorem Seen.getLast?_eq {events : List ActivityEvent} {progress : Progress}
    (seen : Seen dateParse events progress) {last : ActivityGroup}
    (found : progress.groups.getLast? = some last) :
    last.members.getLast? = events.getLast? := by
  obtain ⟨earlier, same⟩ := List.getLast?_eq_some_iff.mp found
  have whole : events = (earlier.map (·.members)).flatten ++ last.members := by
    rw [← List.flatten_splitBy (joins dateParse) events, ← seen.split, same]
    simp
  obtain ⟨newest, rest, nonempty⟩ : ∃ newest rest, last.members = newest :: rest := by
    have represented := seen.represented last (by simp [same])
    obtain ⟨rest, starts⟩ := List.head?_eq_some_iff.mp represented
    exact ⟨_, rest, starts⟩
  rw [whole, List.getLast?_append_of_ne_nil _ (by simp [nonempty])]

/-- **A turn of the loop sees one event more.** -/
theorem seen_addEvent {events : List ActivityEvent} {progress : Progress}
    (seen : Seen dateParse events progress) (event : ActivityEvent) :
    Seen dateParse (events ++ [event]) (addEvent dateParse progress event) := by
  unfold addEvent
  cases found : progress.groups.getLast? with
  | none =>
      have empty : events = [] := by
        have nothing := List.getLast?_eq_none_iff.mp found
        have split := seen.split
        rw [nothing, List.map_nil] at split
        exact List.splitBy_eq_nil.mp split.symm
      exact seen_pushGroup seen (by simp [empty])
  | some last =>
      have latest := seen.getLast?_eq found
      have test : ∀ previous ∈ events.getLast?, joins dateParse previous event = true ↔
          collapseKey event ≠ none ∧ collapseKey event = progress.runKey ∧
            withinWindow progress.runPreviousAt (dateParse event.createdAt) = true := by
        intro previous newest
        rw [joins_iff, seen.key previous newest, seen.previous previous newest, and_assoc]
      dsimp only
      split_ifs with joined
      · exact seen_pushMember seen found joined.2.1
          fun previous newest => (test previous (latest ▸ newest)).mpr joined
      · exact seen_pushGroup seen fun previous newest =>
          Bool.eq_false_of_not_eq_true fun same => joined ((test previous newest).mp same)

/-- **The loop has seen every event.** -/
theorem seen_foldl (events : List ActivityEvent) :
    Seen dateParse events (events.foldl (addEvent dateParse) .start) := by
  induction events using List.reverseRecOn with
  | nil => exact seen_start
  | append_singleton events event ih =>
      rw [List.foldl_append]
      exact seen_addEvent ih event

/-! ## The runs are sittings -/

/-- Events that join are near. -/
theorem near_of_joins {previous next : ActivityEvent}
    (joined : joins dateParse previous next = true)
    (ordered : ∀ before ∈ dateParse previous.createdAt, ∀ after ∈ dateParse next.createdAt,
      after ≤ before) :
    Near dateParse previous next := by
  obtain ⟨_, window⟩ := joins_iff.mp joined
  unfold withinWindow at window
  split at window
  · rename_i before after one other
    refine ⟨before, one, after, other, ?_⟩
    rw [abs_of_nonneg (sub_nonneg.mpr (ordered before one after other))]
    simpa using window
  · cases window

/-- A chain of events that join is a sitting. -/
theorem sitting_of_chain {members : List ActivityEvent}
    (joined : members.IsChain fun previous next => joins dateParse previous next = true)
    (ordered : Ordered dateParse members) (several : 1 < members.length) :
    Sitting dateParse members := by
  obtain ⟨first, second, rest, rfl⟩ : ∃ first second rest, members = first :: second :: rest := by
    match members, several with
    | first :: second :: rest, _ => exact ⟨first, second, rest, rfl⟩
  obtain ⟨⟨keyed, same⟩, _⟩ := joins_iff.mp (List.isChain_cons_cons.mp joined).1
  obtain ⟨key, found⟩ := Option.ne_none_iff_exists'.mp keyed
  refine ⟨⟨key, fun member inside => ?_⟩, ?_⟩
  · have agree := Runs.key_eq_of_chain collapseKey
      (fun previous next accepted => (joins_iff.mp accepted).1.2) joined member inside
    rw [agree, ← same, found]
  · exact (Runs.isChain_and joined ordered).imp fun _ _ both => near_of_joins both.1 both.2

/-- Events that are near and of one kind join. -/
theorem joins_of_near {previous next : ActivityEvent} {key : String}
    (one : collapseKey previous = some key) (other : collapseKey next = some key)
    (near : Near dateParse previous next) : joins dateParse previous next = true := by
  obtain ⟨before, first, after, second, close⟩ := near
  refine joins_iff.mpr ⟨⟨by simp [other], by rw [one, other]⟩, ?_⟩
  rw [Option.mem_def.mp first, Option.mem_def.mp second]
  simpa [withinWindow] using (le_abs_self _).trans close

/-- A sitting is a chain of events that join. -/
theorem chain_of_sitting {members : List ActivityEvent} (sitting : Sitting dateParse members) :
    members.IsChain fun previous next => joins dateParse previous next = true := by
  obtain ⟨key, shared⟩ := sitting.shared
  exact sitting.near.imp_of_mem_imp fun previous next one other near =>
    joins_of_near (shared previous one) (shared next other) near

/-! ## The partition -/

variable {events : List ActivityEvent}

/-- The groups are the maximal runs of events that join. -/
theorem mem_splitBy_of_mem {group : ActivityGroup}
    (member : group ∈ groupActivityEvents dateParse events) :
    group.members ∈ events.splitBy (joins dateParse) := by
  rw [← (seen_foldl events).split]
  exact List.mem_map_of_mem member

/-- A row is a run of neighbours in the feed. -/
theorem infix_of_mem {group : ActivityGroup}
    (member : group ∈ groupActivityEvents dateParse events) : group.members <:+: events := by
  have inside := List.infix_of_mem_flatten (mem_splitBy_of_mem member)
  rwa [List.flatten_splitBy] at inside

/-- A group of several events is a sitting. -/
theorem sitting_of_mem (ordered : Ordered dateParse events) {group : ActivityGroup}
    (member : group ∈ groupActivityEvents dateParse events) (several : 1 < group.members.length) :
    Sitting dateParse group.members := by
  have inside : Ordered dateParse group.members := List.IsChain.infix ordered (infix_of_mem member)
  exact sitting_of_chain (List.isChain_of_mem_splitBy (mem_splitBy_of_mem member)) inside several

/-- An event without a key stands in no sitting, so that it stands alone. -/
theorem alone_of_keyless {members : List ActivityEvent}
    (sitting : 1 < members.length → Sitting dateParse members) {member : ActivityEvent}
    (inside : member ∈ members) (keyless : collapseKey member = none) : members = [member] := by
  rcases Nat.lt_or_ge 1 members.length with several | single
  · obtain ⟨key, shared⟩ := (sitting several).shared
    rw [shared member inside] at keyless
    cases keyless
  · obtain ⟨only, rfl⟩ := List.length_eq_one_iff.mp
      (Nat.le_antisymm single (List.length_pos_of_mem inside))
    rw [List.mem_singleton.mp inside]

/-- Neighbouring rows do not make a sitting together. -/
theorem maximal_groups : (groupActivityEvents dateParse events).IsChain fun newer older =>
    ¬ Sitting dateParse (newer.members ++ older.members) := by
  have apart := List.isChain_getLast_head_splitBy (joins dateParse) events
  rw [← (seen_foldl events).split, List.isChain_map] at apart
  refine apart.imp fun newer older separate merged => ?_
  obtain ⟨some_, others, different⟩ := separate
  have joined := (chain_of_sitting merged).rel_getLast_head_of_append some_ others
  rw [different] at joined
  cases joined

/-- **The rows of the feed are an exact partition of its events.** -/
theorem partition_groupActivityEvents (ordered : Ordered dateParse events) :
    Partition dateParse events (groupActivityEvents dateParse events) where
  concatenated := by
    have split : (groupActivityEvents dateParse events).map (·.members) =
        events.splitBy (joins dateParse) := (seen_foldl events).split
    rw [List.flatMap_def, split, List.flatten_splitBy]
  represented := (seen_foldl events).represented
  sitting := fun _ member => sitting_of_mem ordered member
  maximal := maximal_groups
  alone := fun _ member _ inside keyless =>
    alone_of_keyless (sitting_of_mem ordered member) inside keyless
  counted := (seen_foldl events).counted

/-- `Date.parse` of a text that the server writes. -/
def parseIso : DateParse := fun text =>
  (Timestamp.fromisoformat text.toList).map fun stamp => stamp.val / 1000 - 62135596800000

/-- Two items of a list toggled three times, and one of them a day earlier. -/
def toggles : List ActivityEvent :=
  let toggled := fun eventId entityId createdAt =>
    ActivityEvent.mk eventId "list.item.checked" entityId createdAt [("list_id", .text "list-1")]
  [toggled 4 "item-a" "2026-07-17T18:53:00+00:00", toggled 3 "item-b" "2026-07-17T18:52:00+00:00",
    toggled 2 "item-a" "2026-07-17T18:51:34.500000+00:00",
    toggled 1 "item-a" "2026-07-16T09:00:00+00:00"]

/-- A feed of toggles, partitioned. -/
theorem partition_toggles :
    Ordered parseIso toggles ∧
      Partition parseIso toggles (groupActivityEvents parseIso toggles) ∧
        (groupActivityEvents parseIso toggles).map (fun row => (row.members.length, row.entities)) =
          [(3, 2), (1, 1)] := by
  have ordered : Ordered parseIso toggles := by
    unfold Ordered
    decide +kernel
  exact ⟨ordered, partition_groupActivityEvents ordered, by decide +kernel⟩

/-! ## The only partition -/

/-- Any partition of the feed splits it into the same runs. -/
theorem splitBy_of_partition {groups : List ActivityGroup} (ordered : Ordered dateParse events)
    (partition : Partition dateParse events groups) :
    events.splitBy (joins dateParse) = groups.map (·.members) := by
  have nonempty : ∀ group ∈ groups, group.members ≠ [] := by
    intro group member empty
    have represented := partition.represented group member
    rw [empty] at represented
    cases represented
  have chained : ∀ group ∈ groups, group.members.IsChain fun previous next =>
      joins dateParse previous next = true := by
    intro group member
    rcases Nat.lt_or_ge 1 group.members.length with several | single
    · exact chain_of_sitting (partition.sitting group member several)
    · obtain ⟨only, same⟩ := List.length_eq_one_iff.mp
        (Nat.le_antisymm single (List.length_pos_of_ne_nil (nonempty group member)))
      rw [same]
      exact List.isChain_singleton only
  rw [List.splitBy_eq_iff]
  refine ⟨?_, ?_, ?_, ?_⟩
  · rw [← List.flatMap_def, partition.concatenated]
  · intro member
    obtain ⟨group, inside, empty⟩ := List.mem_map.mp member
    exact nonempty group inside empty
  · intro members member
    obtain ⟨group, inside, rfl⟩ := List.mem_map.mp member
    exact chained group inside
  · rw [List.isChain_map, List.isChain_iff_forall_rel_of_append_cons_cons]
    intro newer older before after same
    have some_ := nonempty newer (by simp [same])
    have others := nonempty older (by simp [same])
    refine ⟨some_, others, Bool.eq_false_of_not_eq_true fun joined => ?_⟩
    have maximal := partition.maximal
    rw [List.isChain_iff_forall_rel_of_append_cons_cons] at maximal
    have neighbours : newer.members ++ older.members <:+: events := by
      refine ⟨before.flatMap (·.members), after.flatMap (·.members), ?_⟩
      rw [← partition.concatenated, same]
      simp
    have inside : Ordered dateParse (newer.members ++ older.members) :=
      List.IsChain.infix ordered neighbours
    refine maximal same (sitting_of_chain ?_ inside ?_)
    · refine (chained newer (by simp [same])).append (chained older (by simp [same])) ?_
      intro last ends first begins
      rw [List.getLast?_eq_some_getLast some_] at ends
      rw [List.head?_eq_some_head others] at begins
      cases ends
      cases begins
      exact joined
    · rw [List.length_append]
      exact Nat.add_lt_add_of_le_of_lt (List.length_pos_of_ne_nil some_)
        (List.length_pos_of_ne_nil others)

/-- What a row says follows from its members. -/
def Determined (group : ActivityGroup) : Prop :=
  group.members.head? = some group.event ∧
    group.entities = (group.members.map (·.entityId)).toFinset.card

/-- A group is determined by its members. -/
theorem Determined.eq {group other : ActivityGroup} (one : Determined group)
    (two : Determined other) (members : group.members = other.members) : group = other := by
  have event : some group.event = some other.event := by
    rw [← one.1, ← two.1, members]
  have entities : group.entities = other.entities := by
    rw [one.2, two.2, members]
  cases group
  cases other
  cases event
  cases members
  cases entities
  rfl

/-- All the groups are determined by their members. -/
theorem eq_of_members_eq {left right : List ActivityGroup}
    (same : left.map (·.members) = right.map (·.members))
    (first : ∀ group ∈ left, Determined group) (second : ∀ group ∈ right, Determined group) :
    left = right := by
  induction left generalizing right with
  | nil => simpa using same.symm
  | cons group rest ih =>
      cases right with
      | nil => cases same
      | cons other others =>
          obtain ⟨members, remaining⟩ := List.cons.inj same
          have head := (first group (List.mem_cons_self ..)).eq
            (second other (List.mem_cons_self ..)) members
          have tail := ih remaining (fun row inside => first row (List.mem_cons_of_mem _ inside))
            (fun row inside => second row (List.mem_cons_of_mem _ inside))
          rw [head, tail]

/-- **The rule leaves one partition of a feed.** -/
theorem eq_groupActivityEvents {groups : List ActivityGroup} (ordered : Ordered dateParse events)
    (partition : Partition dateParse events groups) :
    groups = groupActivityEvents dateParse events := by
  have seen : Seen dateParse events (events.foldl (addEvent dateParse) .start) :=
    seen_foldl events
  refine eq_of_members_eq ?_ (fun group member => ?_) (fun group member => ?_)
  · exact (splitBy_of_partition ordered partition).symm.trans seen.split.symm
  · exact ⟨partition.represented group member, partition.counted group member⟩
  · exact ⟨seen.represented group member, seen.counted group member⟩

end FrontDashboard.Activity.Groups
