import FrontDashboard.Fanout.Broker
import FrontDashboard.Library.Places

/-! # What reaches the clients of other workers

A frame committed on one worker reaches the clients it addresses on every other, or they
are sent a resync later, or one of the two is still to come. This holds in every run in
which, while some client awaits the frame of a worker whose reader has noticed no outage,
no publication of it is given up or lost, none is added to the stream before that reader's
first call or between two of its calls at `$`, and none is trimmed before it is read.
-/

namespace FrontDashboard.Fanout

open Places

variable {Message : Type}

namespace Worker

/-- The entries answered and not delivered yet. -/
def batch (worker : Worker Message) : List (Entry Message) :=
  match worker.reader with
  | .delivering entry rest => entry :: rest
  | _ => []

/-- The id after which the next entries are read; there is none at `$`, between calls. -/
def position (worker : Worker Message) : Option Nat :=
  match worker.reader with
  | .between => worker.lastId
  | .reading after => some after
  | .delivering entry rest => some (rest.getLastD entry).id

/-- The entry will be read. -/
def WillRead (worker : Worker Message) (entry : Entry Message) : Prop :=
  ∃ position ∈ worker.position, position < entry.id

instance (worker : Worker Message) (entry : Entry Message) : Decidable (worker.WillRead entry) :=
  inferInstanceAs (Decidable (∃ position ∈ worker.position, position < entry.id))

end Worker

/-- A client a frame is for, that was connected when it was committed. -/
structure Awaits (worker : Worker Message) (client : Listener) (serial : Nat)
    (frame : Frame Message) : Prop where
  origin : frame.origin ≠ worker.workerId
  since : client.since ≤ serial
  addressed : addresses frame.userIds frame.actorId client.userId = true

instance (worker : Worker Message) (client : Listener) (serial : Nat) (frame : Frame Message) :
    Decidable (Awaits worker client serial frame) :=
  decidable_of_iff (frame.origin ≠ worker.workerId ∧ client.since ≤ serial ∧
      addresses frame.userIds frame.actorId client.userId = true)
    ⟨fun both => ⟨both.1, both.2.1, both.2.2⟩, fun awaits => ⟨awaits.1, awaits.2, awaits.3⟩⟩

namespace Cluster

/-- A frame, or a resync, is still to come to a worker's clients. -/
def Coming (cluster : Cluster Message) (worker : Worker Message) (serial : Nat) : Prop :=
  worker.readerDegraded = true ∨
    (∃ other ∈ cluster.workers, ∃ outgoing ∈ other.outgoing, outgoing.serial = serial) ∨
    (∃ entry ∈ cluster.stream, entry.serial = serial ∧ worker.WillRead entry) ∨
    ∃ entry ∈ worker.batch, entry.serial = serial

/-- **The property.** -/
def Reaches (cluster : Cluster Message) : Prop :=
  ∀ worker ∈ cluster.workers, ∀ client ∈ worker.clients, ∀ serial frame,
    cluster.committed[serial]? = some frame → Awaits worker client serial frame →
      serial ∈ client.received ∨ serial < client.resynced ∨ cluster.Coming worker serial

/-! ## The events admitted -/

/-- A worker's clients await a frame, and were sent no resync since. -/
def Concerned (worker : Worker Message) (serial : Nat) (frame : Frame Message) : Prop :=
  ∃ client ∈ worker.clients, Awaits worker client serial frame ∧ client.resynced ≤ serial

instance (worker : Worker Message) (serial : Nat) (frame : Frame Message) :
    Decidable (Concerned worker serial frame) :=
  inferInstanceAs (Decidable (∃ client ∈ worker.clients, _ ∧ _))

/-- Nobody misses a frame that is not published. -/
def MayLose (cluster : Cluster Message) (outgoing : Outgoing Message) : Prop :=
  ∀ worker ∈ cluster.workers, Concerned worker outgoing.serial outgoing.frame →
    worker.readerDegraded = true

/-- Nobody misses a frame that is added to the stream now. -/
def MayAdd (cluster : Cluster Message) (outgoing : Outgoing Message) : Prop :=
  ∀ worker ∈ cluster.workers, Concerned worker outgoing.serial outgoing.frame →
    worker.readerDegraded = true ∨ worker.position.isSome = true

/-- Nobody misses an entry that is trimmed now. -/
def MayTrim (cluster : Cluster Message) (entry : Entry Message) : Prop :=
  ∀ worker ∈ cluster.workers, Concerned worker entry.serial entry.frame →
    worker.readerDegraded = true ∨ ¬ worker.WillRead entry

instance (cluster : Cluster Message) (outgoing : Outgoing Message) :
    Decidable (cluster.MayLose outgoing) :=
  inferInstanceAs (Decidable (∀ worker ∈ cluster.workers, _ → _))

instance (cluster : Cluster Message) (outgoing : Outgoing Message) :
    Decidable (cluster.MayAdd outgoing) :=
  inferInstanceAs (Decidable (∀ worker ∈ cluster.workers, _ → _))

instance (cluster : Cluster Message) (entry : Entry Message) :
    Decidable (cluster.MayTrim entry) :=
  inferInstanceAs (Decidable (∀ worker ∈ cluster.workers, _ → _))

def Admits (cluster : Cluster Message) : Event Message → Prop
  | .beginPublish index place => ∀ worker ∈ cluster.workers[index]?,
      ∀ outgoing ∈ worker.outgoing[place]?,
        cluster.now < worker.publishRetryAfter → cluster.MayLose outgoing
  | .endPublish index place outcome => ∀ worker ∈ cluster.workers[index]?,
      ∀ outgoing ∈ worker.outgoing[place]?,
        if outcome = .failed false then cluster.MayLose outgoing else cluster.MayAdd outgoing
  | .trim count => ∀ entry ∈ cluster.stream.take count, cluster.MayTrim entry
  | _ => True

instance (cluster : Cluster Message) (event : Event Message) :
    Decidable (cluster.Admits event) := by
  unfold Admits
  split <;> infer_instance

/-! ## The invariant -/

/-- What a worker holds is known, and its reader is not ahead of the stream. -/
structure Sound (committed : List (Frame Message)) (nextId : Nat) (worker : Worker Message) :
    Prop where
  outgoing : ∀ outgoing ∈ worker.outgoing, committed[outgoing.serial]? = some outgoing.frame
  batch : ∀ entry ∈ worker.batch,
    committed[entry.serial]? = some entry.frame ∧ entry.id < nextId
  position : ∀ position ∈ worker.position, position < nextId
  lastId : ∀ last ∈ worker.lastId, last < nextId

structure Good (cluster : Cluster Message) : Prop where
  positive : 0 < cluster.nextId
  entries : ∀ entry ∈ cluster.stream,
    cluster.committed[entry.serial]? = some entry.frame ∧ entry.id < cluster.nextId
  sorted : cluster.stream.Pairwise fun first second => first.id < second.id
  workers : ∀ worker ∈ cluster.workers, Sound cluster.committed cluster.nextId worker
  reaches : cluster.Reaches

section SetWorker

variable {cluster : Cluster Message} {index : Nat} {worker changed : Worker Message}

/-- What a worker publishes, it or the worker it has become still does. -/
theorem outgoing_setWorker (found : cluster.workers[index]? = some worker) {serial : Nat}
    (keeps : ∀ outgoing ∈ worker.outgoing, outgoing.serial = serial →
      ∃ later ∈ changed.outgoing, later.serial = serial)
    (published : ∃ other ∈ cluster.workers, ∃ outgoing ∈ other.outgoing,
      outgoing.serial = serial) :
    ∃ other ∈ (cluster.setWorker index changed).workers, ∃ outgoing ∈ other.outgoing,
      outgoing.serial = serial := by
  obtain ⟨other, member, outgoing, inside, same⟩ := published
  rcases eq_or_mem_set changed found member with rfl | still
  · obtain ⟨later, there, named⟩ := keeps outgoing inside same
    exact ⟨changed, mem_set_self found, later, there, named⟩
  · exact ⟨other, still, outgoing, inside, same⟩

/-- **One worker changes.** -/
theorem Good.setWorker (good : Good cluster) (found : cluster.workers[index]? = some worker)
    (sound : Sound cluster.committed cluster.nextId changed)
    (keeps : ∀ outgoing ∈ worker.outgoing, ∃ later ∈ changed.outgoing,
      later.serial = outgoing.serial)
    (reaches : ∀ client ∈ changed.clients, ∀ serial frame,
      cluster.committed[serial]? = some frame → Awaits changed client serial frame →
        serial ∈ client.received ∨ serial < client.resynced ∨ cluster.Coming changed serial) :
    Good (cluster.setWorker index changed) := by
  have coming : ∀ (other : Worker Message) (serial : Nat), cluster.Coming other serial →
      (cluster.setWorker index changed).Coming other serial := by
    intro other serial comes
    refine comes.imp_right (.imp_left (outgoing_setWorker found ?_))
    intro outgoing inside same
    rw [← same]
    exact keeps outgoing inside
  refine ⟨good.positive, good.entries, good.sorted, ?_, ?_⟩
  · intro other member
    rcases List.mem_or_eq_of_mem_set member with before | rfl
    · exact good.workers other before
    · exact sound
  · intro other member client listed serial frame committed awaits
    rcases List.mem_or_eq_of_mem_set member with before | rfl
    · exact (good.reaches other before client listed serial frame committed awaits).imp_right
        (.imp_right (coming other serial))
    · exact (reaches client listed serial frame committed awaits).imp_right
        (.imp_right (coming _ serial))

end SetWorker

/-! ## Publishing -/

theorem Good.add {cluster : Cluster Message} (good : Good cluster) {outgoing : Outgoing Message}
    (known : cluster.committed[outgoing.serial]? = some outgoing.frame) :
    Good (cluster.add outgoing) where
  positive := Nat.succ_pos _
  entries := by
    intro entry member
    rcases List.mem_append.mp member with before | added
    · exact ⟨(good.entries entry before).1, Nat.lt_succ_of_lt (good.entries entry before).2⟩
    · rw [List.mem_singleton.mp added]
      exact ⟨known, Nat.lt_succ_self _⟩
  sorted := by
    refine List.pairwise_append.mpr ⟨good.sorted, List.pairwise_singleton _ _, ?_⟩
    intro entry member added last
    rw [List.mem_singleton.mp last]
    exact (good.entries entry member).2
  workers := by
    intro worker member
    have sound := good.workers worker member
    exact ⟨sound.outgoing, fun entry inside => ⟨(sound.batch entry inside).1,
      Nat.lt_succ_of_lt (sound.batch entry inside).2⟩,
      fun position at_ => Nat.lt_succ_of_lt (sound.position position at_),
      fun last at_ => Nat.lt_succ_of_lt (sound.lastId last at_)⟩
  reaches := by
    intro worker member client listed serial frame committed awaits
    refine (good.reaches worker member client listed serial frame committed awaits).imp_right
      (.imp_right (.imp_right (.imp_right (.imp_left ?_))))
    rintro ⟨entry, inside, same, reads⟩
    exact ⟨entry, List.mem_append_left _ inside, same, reads⟩

/-- A publication ends: its frame reaches those who await it otherwise. -/
theorem Good.retire {cluster : Cluster Message} (good : Good cluster) {index place : Nat}
    {worker : Worker Message} {outgoing : Outgoing Message}
    (found : cluster.workers[index]? = some worker)
    (held : worker.outgoing[place]? = some outgoing) (retryAfter : Nat)
    (otherwise : ∀ other ∈ cluster.workers, Concerned other outgoing.serial outgoing.frame →
      other.readerDegraded = true ∨
        ∃ entry ∈ cluster.stream, entry.serial = outgoing.serial ∧ other.WillRead entry) :
    Good (cluster.setWorker index { worker with
      outgoing := worker.outgoing.eraseIdx place, publishRetryAfter := retryAfter }) := by
  have here := List.mem_of_getElem? found
  have known := (good.workers worker here).outgoing outgoing (List.mem_of_getElem? held)
  have stays : ∀ other ∈ worker.outgoing, other = outgoing ∨
      other ∈ worker.outgoing.eraseIdx place :=
    fun _ => eq_or_mem_eraseIdx held
  -- A client of a worker with the same reader and clients still gets what it awaits.
  have still : ∀ other ∈ cluster.workers, ∀ client ∈ other.clients, ∀ serial frame,
      cluster.committed[serial]? = some frame → Awaits other client serial frame →
        serial ∈ client.received ∨ serial < client.resynced ∨
          (cluster.setWorker index { worker with
            outgoing := worker.outgoing.eraseIdx place,
            publishRetryAfter := retryAfter }).Coming other serial := by
    intro other member client listed serial frame committed awaits
    rcases good.reaches other member client listed serial frame committed awaits with
      received | resynced | degraded | published | reads | inBatch
    · exact .inl received
    · exact .inr (.inl resynced)
    · exact .inr (.inr (.inl degraded))
    · by_cases same : serial = outgoing.serial
      · subst same
        rw [known] at committed
        cases committed
        by_cases resynced : outgoing.serial < client.resynced
        · exact .inr (.inl resynced)
        · rcases otherwise other member ⟨client, listed, awaits, Nat.le_of_not_lt resynced⟩ with
            degraded | reads
          · exact .inr (.inr (.inl degraded))
          · exact .inr (.inr (.inr (.inr (.inl reads))))
      · refine .inr (.inr (.inr (.inl (outgoing_setWorker found ?_ published))))
        intro held inside named
        rcases stays held inside with rfl | kept
        · exact absurd named.symm same
        · exact ⟨held, kept, named⟩
    · exact .inr (.inr (.inr (.inr (.inl reads))))
    · exact .inr (.inr (.inr (.inr (.inr inBatch))))
  refine ⟨good.positive, good.entries, good.sorted, ?_, ?_⟩
  · intro other member
    rcases List.mem_or_eq_of_mem_set member with before | rfl
    · exact good.workers other before
    · have sound := good.workers worker here
      exact ⟨fun held inside => sound.outgoing held (List.mem_of_mem_eraseIdx inside),
        sound.batch, sound.position, sound.lastId⟩
  · intro other member client listed serial frame committed awaits
    rcases List.mem_or_eq_of_mem_set member with before | rfl
    · exact still other before client listed serial frame committed awaits
    · exact still worker here client listed serial frame committed
        ⟨awaits.origin, awaits.since, awaits.addressed⟩

/-- **A frame committed** awaits its publication. -/
theorem Good.commit {cluster : Cluster Message} (good : Good cluster) {index : Nat}
    {worker : Worker Message} (found : cluster.workers[index]? = some worker) (message : Message)
    (userIds : Option (List Nat)) (actorId : Nat) :
    Good (cluster.commit index worker message userIds actorId) := by
  let frame : Frame Message := ⟨worker.workerId, message, userIds, actorId⟩
  have here := List.mem_of_getElem? found
  have grows : ∀ {serial : Nat} {known : Frame Message},
      cluster.committed[serial]? = some known →
        (cluster.committed ++ [frame])[serial]? = some known := by
    intro serial known committed
    rw [List.getElem?_append_left (List.getElem?_eq_some_iff.mp committed).1]
    exact committed
  have soundly : ∀ other : Worker Message, Sound cluster.committed cluster.nextId other →
      Sound (cluster.committed ++ [frame]) cluster.nextId other :=
    fun other sound => ⟨fun held inside => grows (sound.outgoing held inside),
      fun entry inside => ⟨grows (sound.batch entry inside).1, (sound.batch entry inside).2⟩,
      sound.position, sound.lastId⟩
  let changed : Worker Message := { worker with
    outgoing := worker.outgoing ++ [⟨cluster.committed.length, frame, none⟩] }
  have still : ∀ other ∈ cluster.workers, ∀ client ∈ other.clients, ∀ serial known,
      (cluster.committed ++ [frame])[serial]? = some known → Awaits other client serial known →
        serial ∈ client.received ∨ serial < client.resynced ∨
          (cluster.setWorker index changed).Coming other serial := by
    intro other member client listed serial known committed awaits
    by_cases within : serial < cluster.committed.length
    · rw [List.getElem?_append_left within] at committed
      refine (good.reaches other member client listed serial known committed awaits).imp_right
        (.imp_right (.imp_right (.imp_left (outgoing_setWorker found ?_))))
      exact fun held inside same => ⟨held, List.mem_append_left _ inside, same⟩
    · have bound := (List.getElem?_eq_some_iff.mp committed).1
      rw [List.length_append, List.length_singleton] at bound
      have last : cluster.committed.length = serial := by omega
      refine .inr (.inr (.inr (.inl ⟨changed, mem_set_self found,
        ⟨cluster.committed.length, frame, none⟩, ?_, last⟩)))
      exact List.mem_append_right _ List.mem_cons_self
  refine ⟨good.positive, ?_, good.sorted, ?_, ?_⟩
  · exact fun entry inside => ⟨grows (good.entries entry inside).1, (good.entries entry inside).2⟩
  · intro other member
    rcases List.mem_or_eq_of_mem_set member with before | rfl
    · exact soundly other (good.workers other before)
    · have sound := soundly worker (good.workers worker here)
      refine ⟨?_, sound.batch, sound.position, sound.lastId⟩
      intro held inside
      rcases List.mem_append.mp inside with before | added
      · exact sound.outgoing held before
      · rw [List.mem_singleton.mp added]
        exact List.getElem?_concat_length
  · intro other member client listed serial known committed awaits
    rcases List.mem_or_eq_of_mem_set member with before | rfl
    · exact still other before client listed serial known committed awaits
    · exact still worker here client listed serial known committed
        ⟨awaits.origin, awaits.since, awaits.addressed⟩

theorem Good.beginPublish {cluster : Cluster Message} (good : Good cluster) {index place : Nat}
    {worker : Worker Message} {outgoing : Outgoing Message}
    (found : cluster.workers[index]? = some worker)
    (held : worker.outgoing[place]? = some outgoing)
    (admitted : cluster.now < worker.publishRetryAfter → cluster.MayLose outgoing) :
    Good (cluster.beginPublish index worker place outgoing) := by
  unfold Cluster.beginPublish
  split
  next waits =>
    apply good.retire found held worker.publishRetryAfter
    exact fun other member concerned => .inl (admitted waits other member concerned)
  next =>
    have here := List.mem_of_getElem? found
    have sound := good.workers worker here
    refine good.setWorker found ⟨?_, sound.batch, sound.position, sound.lastId⟩ ?_ ?_
    · intro other inside
      rcases List.mem_or_eq_of_mem_set inside with before | rfl
      · exact sound.outgoing other before
      · exact sound.outgoing outgoing (List.mem_of_getElem? held)
    · intro other inside
      rcases eq_or_mem_set { outgoing with started := some cluster.now } held inside with
        rfl | still
      · exact ⟨_, mem_set_self held, rfl⟩
      · exact ⟨other, still, rfl⟩
    · intro client listed serial frame committed awaits
      exact good.reaches worker here client listed serial frame committed
        ⟨awaits.origin, awaits.since, awaits.addressed⟩

theorem Good.endPublish {cluster : Cluster Message} (good : Good cluster) {index place : Nat}
    {worker : Worker Message} {outgoing : Outgoing Message}
    (found : cluster.workers[index]? = some worker)
    (held : worker.outgoing[place]? = some outgoing) (started : Nat) {outcome : Outcome}
    (admitted : if outcome = .failed false then cluster.MayLose outgoing
      else cluster.MayAdd outgoing) :
    Good (cluster.endPublish index worker place outgoing started outcome) := by
  have known := (good.workers worker (List.mem_of_getElem? found)).outgoing outgoing
    (List.mem_of_getElem? held)
  have added : cluster.MayAdd outgoing → ∀ retryAfter, Good ((cluster.add outgoing).setWorker index
      { worker with
        outgoing := worker.outgoing.eraseIdx place, publishRetryAfter := retryAfter }) := by
    intro mayAdd retryAfter
    apply (good.add known).retire found held retryAfter
    intro other member concerned
    refine (mayAdd other member concerned).imp_right fun placed => ?_
    obtain ⟨position, there⟩ := Option.isSome_iff_exists.mp placed
    refine ⟨⟨cluster.nextId, outgoing.serial, outgoing.frame⟩,
      List.mem_append_right _ List.mem_cons_self, rfl, position, there, ?_⟩
    exact (good.workers other member).position position there
  cases outcome with
  | succeeded => exact added admitted 0
  | failed entered =>
      cases entered with
      | true => exact added admitted _
      | false =>
          apply good.retire found held (started + publishBackoff)
          exact fun other member concerned => .inl (admitted other member concerned)

theorem Good.trim {cluster : Cluster Message} (good : Good cluster) {count : Nat}
    (admitted : ∀ entry ∈ cluster.stream.take count, cluster.MayTrim entry) :
    Good { cluster with stream := cluster.stream.drop count } := by
  refine ⟨good.positive, fun entry inside => good.entries entry (List.mem_of_mem_drop inside),
    good.sorted.sublist (List.drop_sublist _ _), good.workers, ?_⟩
  intro worker member client listed serial frame committed awaits
  rcases good.reaches worker member client listed serial frame committed awaits with
    received | resynced | degraded | published | reads | inBatch
  · exact .inl received
  · exact .inr (.inl resynced)
  · exact .inr (.inr (.inl degraded))
  · exact .inr (.inr (.inr (.inl published)))
  · obtain ⟨entry, inside, rfl, reads⟩ := reads
    rw [← List.take_append_drop count cluster.stream] at inside
    rcases List.mem_append.mp inside with trimmed | kept
    · by_cases resynced : entry.serial < client.resynced
      · exact .inr (.inl resynced)
      have known := (good.entries entry (List.mem_of_mem_take trimmed)).1
      rw [known] at committed
      cases committed
      rcases admitted entry trimmed worker member
          ⟨client, listed, awaits, Nat.le_of_not_lt resynced⟩ with degraded | passed
      · exact .inr (.inr (.inl degraded))
      · exact absurd reads passed
    · exact .inr (.inr (.inr (.inr (.inl ⟨entry, kept, rfl, reads⟩))))
  · exact .inr (.inr (.inr (.inr (.inr inBatch))))

/-! ## Reading -/

section Reading

variable {cluster : Cluster Message} {index : Nat} {worker : Worker Message}
  (good : Good cluster) (found : cluster.workers[index]? = some worker)
include good found

theorem Good.call (rests : worker.reader = .between) :
    Good (cluster.setWorker index (worker.call cluster.tail)) := by
  have here := List.mem_of_getElem? found
  have sound := good.workers worker here
  refine good.setWorker found ⟨sound.outgoing, ?_, ?_, sound.lastId⟩
    (fun outgoing inside => ⟨outgoing, inside, rfl⟩) ?_
  · exact List.forall_mem_nil _
  · intro position placed
    cases placed
    cases last : worker.lastId with
    | none => exact Nat.sub_lt good.positive Nat.one_pos
    | some id => exact sound.lastId id last
  · intro client listed serial frame committed awaits
    rcases good.reaches worker here client listed serial frame committed
        ⟨awaits.origin, awaits.since, awaits.addressed⟩ with
      received | resynced | degraded | published | reads | inBatch
    · exact .inl received
    · exact .inr (.inl resynced)
    · exact .inr (.inr (.inl degraded))
    · exact .inr (.inr (.inr (.inl published)))
    · obtain ⟨entry, inside, same, position, placed, before⟩ := reads
      simp only [Worker.position, rests, Option.mem_def] at placed
      refine .inr (.inr (.inr (.inr (.inl ⟨entry, inside, same, position, ?_, before⟩))))
      simp only [Worker.position, Worker.call, placed, Option.getD_some, Option.mem_def]
    · obtain ⟨entry, inside, -⟩ := inBatch
      simp only [Worker.batch, rests] at inside
      cases inside

/-- A read that was answered, by a worker that notices no outage or resyncs its clients. -/
theorem Good.read {changed : Worker Message}
    (same : changed = { worker.recover cluster.committed.length with reader := changed.reader })
    (batch : ∀ entry ∈ changed.batch,
      cluster.committed[entry.serial]? = some entry.frame ∧ entry.id < cluster.nextId)
    (position : ∀ position ∈ changed.position, position < cluster.nextId)
    (reads : ∀ entry ∈ cluster.stream, worker.WillRead entry →
      changed.WillRead entry ∨ entry ∈ changed.batch)
    (empty : worker.batch = []) : Good (cluster.setWorker index changed) := by
  have here := List.mem_of_getElem? found
  have sound := good.workers worker here
  have outgoing : changed.outgoing = worker.outgoing := by
    rw [same]
    unfold Worker.recover
    split <;> rfl
  have lastId : changed.lastId = worker.lastId := by
    rw [same]
    unfold Worker.recover
    split <;> rfl
  have workerId : changed.workerId = worker.workerId := by
    rw [same]
    unfold Worker.recover
    split <;> rfl
  refine good.setWorker found ⟨?_, batch, position, ?_⟩ ?_ ?_
  · rw [outgoing]
    exact sound.outgoing
  · rw [lastId]
    exact sound.lastId
  · rw [outgoing]
    exact fun held inside => ⟨held, inside, rfl⟩
  · intro client listed serial frame committed awaits
    by_cases degraded : worker.readerDegraded = true
    · rw [same] at listed
      simp only [Worker.recover, degraded, if_true, Worker.resyncAll] at listed
      obtain ⟨before, -, rfl⟩ := List.mem_map.mp listed
      exact .inr (.inl (List.getElem?_eq_some_iff.mp committed).1)
    · have clients : changed.clients = worker.clients := by
        rw [same]
        simp only [Worker.recover, degraded, Bool.false_eq_true, if_false]
      rw [clients] at listed
      rcases good.reaches worker here client listed serial frame committed
          ⟨workerId ▸ awaits.origin, awaits.since, awaits.addressed⟩ with
        received | resynced | noticed | published | later | inBatch
      · exact .inl received
      · exact .inr (.inl resynced)
      · exact absurd noticed degraded
      · exact .inr (.inr (.inr (.inl published)))
      · obtain ⟨entry, inside, named, reading⟩ := later
        rcases reads entry inside reading with still | answered
        · exact .inr (.inr (.inr (.inr (.inl ⟨entry, inside, named, still⟩))))
        · exact .inr (.inr (.inr (.inr (.inr ⟨entry, answered, named⟩))))
      · obtain ⟨entry, inside, -⟩ := inBatch
        rw [empty] at inside
        cases inside

theorem Good.answer {after : Nat} {entry : Entry Message} {rest : List (Entry Message)}
    (reads : worker.reader = .reading after)
    (answered : cluster.entriesAfter after = entry :: rest) :
    Good (cluster.answer index worker entry rest) := by
  have member : ∀ other ∈ entry :: rest, other ∈ cluster.stream ∧ after < other.id := by
    intro other inside
    rw [← answered] at inside
    obtain ⟨stored, later⟩ := List.mem_filter.mp (List.mem_of_mem_take inside)
    exact ⟨stored, of_decide_eq_true later⟩
  have last : rest.getLastD entry ∈ entry :: rest := by
    rw [List.getLastD_eq_getLast?]
    cases listed : rest.getLast? with
    | none => exact List.mem_cons_self
    | some final => exact List.mem_cons_of_mem _ (List.mem_of_getLast? listed)
  refine good.read found rfl ?_ ?_ ?_ ?_
  · exact fun other inside => good.entries other (member other inside).1
  · intro position placed
    cases placed
    exact (good.entries _ (member _ last).1).2
  · intro other stored willRead
    obtain ⟨position, placed, before⟩ := willRead
    simp only [Worker.position, reads, Option.mem_some_iff] at placed
    subst placed
    have matching : other ∈ cluster.stream.filter fun entry => after < entry.id :=
      List.mem_filter.mpr ⟨stored, decide_eq_true before⟩
    have sorted := good.sorted.sublist
      (List.filter_sublist (p := fun entry => decide (after < entry.id)))
    rw [← List.take_append_drop readCount
      (cluster.stream.filter fun entry => after < entry.id)] at matching sorted
    rcases List.mem_append.mp matching with taken | left
    · refine .inr ?_
      change other ∈ entry :: rest
      rw [← answered]
      exact taken
    · refine .inl ⟨_, rfl, (List.pairwise_append.mp sorted).2.2 _ ?_ other left⟩
      rw [← answered] at last
      exact last
  · simp only [Worker.batch, reads]

theorem Good.idle {after : Nat} (reads : worker.reader = .reading after)
    (answered : cluster.entriesAfter after = []) : Good (cluster.idle index worker) := by
  have sound := good.workers worker (List.mem_of_getElem? found)
  refine good.read found rfl (List.forall_mem_nil _) ?_ ?_ ?_
  · intro position placed
    have placed : (worker.recover cluster.committed.length).lastId = some position := placed
    apply sound.lastId
    rw [← Option.mem_def] at placed
    unfold Worker.recover at placed
    split at placed <;> exact placed
  · intro other stored willRead
    obtain ⟨position, placed, before⟩ := willRead
    simp only [Worker.position, reads, Option.mem_some_iff] at placed
    subst placed
    have matching : other ∈ cluster.stream.filter fun entry => after < entry.id :=
      List.mem_filter.mpr ⟨stored, decide_eq_true before⟩
    have none : (cluster.stream.filter fun entry => after < entry.id) = [] :=
      (List.take_eq_nil_iff.mp answered).resolve_left (by decide)
    rw [none] at matching
    cases matching
  · simp only [Worker.batch, reads]

theorem Good.fail : Good (cluster.setWorker index worker.fail) := by
  have sound := good.workers worker (List.mem_of_getElem? found)
  refine good.setWorker found ⟨sound.outgoing, List.forall_mem_nil _, sound.lastId, sound.lastId⟩
    (fun outgoing inside => ⟨outgoing, inside, rfl⟩) ?_
  exact fun _ _ _ _ _ _ => .inr (.inr (.inl rfl))

theorem Good.deliver {entry : Entry Message} {rest : List (Entry Message)}
    (holds : worker.reader = .delivering entry rest) :
    Good (cluster.setWorker index (worker.pass entry rest)) := by
  have here := List.mem_of_getElem? found
  have sound := good.workers worker here
  have batch : worker.batch = entry :: rest := by simp only [Worker.batch, holds]
  obtain ⟨known, old⟩ := sound.batch entry (by rw [batch]; exact List.mem_cons_self)
  have passed : (worker.pass entry rest).batch = rest := by
    unfold Worker.pass Worker.batch
    cases rest <;> rfl
  have position : (worker.pass entry rest).position = worker.position := by
    unfold Worker.pass Worker.position
    rw [holds]
    cases rest with
    | nil => rfl
    | cons next rest =>
        simp only [List.getLastD_cons]
  have unchanged : (worker.deliver entry).workerId = worker.workerId ∧
      (worker.deliver entry).outgoing = worker.outgoing ∧
        (worker.deliver entry).readerDegraded = worker.readerDegraded := by
    unfold Worker.deliver
    split <;> exact ⟨rfl, rfl, rfl⟩
  obtain ⟨workerId, outgoing, degradation⟩ := unchanged
  refine good.setWorker found ⟨?_, ?_, ?_, ?_⟩ ?_ ?_
  · change ∀ held ∈ (worker.deliver entry).outgoing, _
    rw [outgoing]
    exact sound.outgoing
  · rw [passed]
    intro other inside
    exact sound.batch other (by rw [batch]; exact List.mem_cons_of_mem _ inside)
  · rw [position]
    exact sound.position
  · intro last placed
    cases placed
    exact old
  · intro held inside
    refine ⟨held, ?_, rfl⟩
    change held ∈ (worker.deliver entry).outgoing
    rw [outgoing]
    exact inside
  · intro client listed serial frame committed awaits
    have origin : frame.origin ≠ worker.workerId := by
      have other : frame.origin ≠ (worker.deliver entry).workerId := awaits.origin
      rw [workerId] at other
      exact other
    -- What the client is now owed it was owed before, and the delivery only adds to it.
    have before : ∃ earlier ∈ worker.clients, earlier.userId = client.userId ∧
        earlier.since = client.since ∧ earlier.resynced = client.resynced ∧
        (∀ number ∈ earlier.received, number ∈ client.received) ∧
        (serial = entry.serial → entry.frame = frame → serial ∈ client.received) := by
      have listed : client ∈ (worker.deliver entry).clients := listed
      unfold Worker.deliver at listed
      split at listed
      next own =>
        refine ⟨client, listed, rfl, rfl, rfl, fun _ => id, fun _ same => ?_⟩
        rw [same] at own
        exact absurd own origin
      next =>
        obtain ⟨earlier, inside, rfl⟩ := List.mem_map.mp listed
        have addressed := awaits.addressed
        by_cases meant : addresses entry.frame.userIds entry.frame.actorId earlier.userId = true
        · rw [if_pos meant]
          refine ⟨earlier, inside, rfl, rfl, rfl, fun _ => List.mem_append_left _, ?_⟩
          intro same _
          rw [same]
          exact List.mem_append_right _ List.mem_cons_self
        · rw [if_neg meant] at addressed ⊢
          refine ⟨earlier, inside, rfl, rfl, rfl, fun _ => id, fun _ same => ?_⟩
          rw [same] at meant
          exact absurd addressed meant
    obtain ⟨earlier, inside, user, since, resyncs, keeps, delivers⟩ := before
    rcases good.reaches worker here earlier inside serial frame committed
        ⟨origin, since ▸ awaits.since, user ▸ awaits.addressed⟩ with
      received | resynced | degraded | published | reads | inBatch
    · exact .inl (keeps serial received)
    · exact .inr (.inl (resyncs ▸ resynced))
    · exact .inr (.inr (.inl (degradation.trans degraded)))
    · exact .inr (.inr (.inr (.inl published)))
    · obtain ⟨other, stored, named, willRead⟩ := reads
      refine .inr (.inr (.inr (.inr (.inl ⟨other, stored, named, ?_⟩))))
      unfold Worker.WillRead
      rw [position]
      exact willRead
    · obtain ⟨other, listed, named⟩ := inBatch
      rw [batch] at listed
      rcases List.mem_cons.mp listed with rfl | later
      · rw [named] at known
        rw [known] at committed
        exact .inl (delivers named.symm (Option.some.inj committed))
      · refine .inr (.inr (.inr (.inr (.inr ⟨other, ?_, named⟩))))
        rw [passed]
        exact later

/-- A client that connects awaits nothing committed before, and one that leaves nothing. -/
theorem Good.clients {clients : List Listener}
    (known : ∀ client ∈ clients, client ∈ worker.clients ∨
      cluster.committed.length ≤ client.since) :
    Good (cluster.setWorker index { worker with clients := clients }) := by
  have here := List.mem_of_getElem? found
  have sound := good.workers worker here
  refine good.setWorker found ⟨sound.outgoing, sound.batch, sound.position, sound.lastId⟩
    (fun outgoing inside => ⟨outgoing, inside, rfl⟩) ?_
  intro client listed serial frame committed awaits
  rcases known client listed with before | fresh
  · exact good.reaches worker here client before serial frame committed
      ⟨awaits.origin, awaits.since, awaits.addressed⟩
  · have within := (List.getElem?_eq_some_iff.mp committed).1
    have since := awaits.since
    omega

end Reading

/-! ## Runs -/

theorem Good.step {cluster next : Cluster Message} {event : Event Message} (good : Good cluster)
    (admitted : cluster.Admits event) (moved : cluster.step event = some next) : Good next := by
  cases event with
  | elapse span =>
      cases moved
      exact ⟨good.positive, good.entries, good.sorted, good.workers, good.reaches⟩
  | commit index message userIds actorId =>
      obtain ⟨worker, found, rfl⟩ := Option.map_eq_some_iff.mp moved
      exact good.commit found message userIds actorId
  | beginPublish index place =>
      obtain ⟨worker, found, moved⟩ := Option.bind_eq_some_iff.mp moved
      obtain ⟨outgoing, held, moved⟩ := Option.bind_eq_some_iff.mp moved
      split at moved <;> cases moved
      exact good.beginPublish found held (admitted worker found outgoing held)
  | endPublish index place outcome =>
      obtain ⟨worker, found, moved⟩ := Option.bind_eq_some_iff.mp moved
      obtain ⟨outgoing, held, moved⟩ := Option.bind_eq_some_iff.mp moved
      obtain ⟨started, -, moved⟩ := Option.bind_eq_some_iff.mp moved
      cases moved
      exact good.endPublish found held started (admitted worker found outgoing held)
  | trim count =>
      simp only [Cluster.step] at moved
      split at moved <;> cases moved
      exact good.trim admitted
  | call index =>
      obtain ⟨worker, found, moved⟩ := Option.bind_eq_some_iff.mp moved
      split at moved
      next rests =>
        cases moved
        exact good.call found rests
      next => cases moved
  | answer index =>
      obtain ⟨worker, found, moved⟩ := Option.bind_eq_some_iff.mp moved
      split at moved
      next after reads =>
        split at moved
        next entry rest answered =>
          cases moved
          exact good.answer found reads answered
        next => cases moved
      next => cases moved
  | idle index =>
      obtain ⟨worker, found, moved⟩ := Option.bind_eq_some_iff.mp moved
      split at moved
      next after reads =>
        split at moved
        next => cases moved
        next answered =>
          cases moved
          exact good.idle found reads answered
      next => cases moved
  | fail index =>
      obtain ⟨worker, found, rfl⟩ := Option.map_eq_some_iff.mp moved
      exact good.fail found
  | deliver index =>
      obtain ⟨worker, found, moved⟩ := Option.bind_eq_some_iff.mp moved
      split at moved
      next entry rest holds =>
        cases moved
        exact good.deliver found holds
      next => cases moved
  | connect index userId =>
      obtain ⟨worker, found, rfl⟩ := Option.map_eq_some_iff.mp moved
      apply good.clients found
      intro client listed
      rcases List.mem_append.mp listed with before | added
      · exact .inl before
      · rw [List.mem_singleton.mp added]
        exact .inr (Nat.le_refl _)
  | disconnect index place =>
      obtain ⟨worker, found, rfl⟩ := Option.map_eq_some_iff.mp moved
      apply good.clients found
      exact fun client listed => .inl (List.mem_of_mem_eraseIdx listed)

theorem good_of_initial {cluster : Cluster Message} (begins : (system Message).Initial cluster) :
    Good cluster := by
  obtain ⟨workers, rfl⟩ := begins
  refine ⟨Nat.one_pos, List.forall_mem_nil _, List.Pairwise.nil, ?_, ?_⟩
  · intro worker member
    obtain ⟨workerId, -, rfl⟩ := List.mem_map.mp member
    exact ⟨List.forall_mem_nil _, List.forall_mem_nil _, fun _ placed => (by cases placed),
      fun _ placed => (by cases placed)⟩
  · intro worker _ client _ serial frame committed
    cases committed

instance (cluster : Cluster Message) (worker : Worker Message) (serial : Nat) :
    Decidable (cluster.Coming worker serial) :=
  inferInstanceAs (Decidable (_ ∨ _))

/-- Some client of another worker misses a frame. -/
def missed (cluster : Cluster Message) : Bool :=
  cluster.workers.any fun worker => worker.clients.any fun client =>
    cluster.committed.zipIdx.any fun (frame, serial) =>
      Awaits worker client serial frame && serial ∉ client.received &&
        client.resynced ≤ serial && ¬ cluster.Coming worker serial

theorem not_reaches_of_missed {cluster : Cluster Message} (misses : cluster.missed = true) :
    ¬ cluster.Reaches := by
  intro reaches
  obtain ⟨worker, member, misses⟩ := List.any_eq_true.mp misses
  obtain ⟨client, listed, misses⟩ := List.any_eq_true.mp misses
  obtain ⟨⟨frame, serial⟩, committed, misses⟩ := List.any_eq_true.mp misses
  simp only [Bool.and_eq_true, decide_eq_true_eq] at misses
  obtain ⟨⟨⟨awaits, absent⟩, unsynced⟩, gone⟩ := misses
  have stored : cluster.committed[serial]? = some frame := by
    rw [List.mem_zipIdx_iff_getElem?] at committed
    exact committed
  rcases reaches worker member client listed serial frame stored awaits with
    received | resynced | coming
  · exact absent received
  · omega
  · exact gone coming

/-- A publication fails while the reader of the other worker notices no outage. -/
theorem frame_lost_to_failed_publish :
    ∃ cluster : Cluster Nat, (system Nat).Reachable cluster ∧ ¬ cluster.Reaches := by
  obtain ⟨cluster, reached, misses⟩ := TransitionSystem.exists_reachable_of_run
    (show (system Nat).Initial ⟨0, [], [], 1, [.start 0, .start 1]⟩ from ⟨[0, 1], rfl⟩)
    [.connect 1 7, .call 1, .commit 0 5 (some [7]) 3, .beginPublish 0 0,
      .endPublish 0 0 (.failed false)] missed (by decide)
  exact ⟨cluster, reached, not_reaches_of_missed misses⟩

end Cluster

end FrontDashboard.Fanout
