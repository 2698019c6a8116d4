import Mathlib.Data.Set.BooleanAlgebra
import Mathlib.Order.CompletePartialOrder
import Mathlib.Data.Set.Insert
import FrontDashboard.Library.TransitionSystem

/-! # Programs over a read-committed database

Requests run against one database at the read-committed isolation level. A
statement sees the rows that are committed when it runs together with the
uncommitted rows of its own transaction; a transaction's rows appear to others
all at once, when it commits. Locks are held until the transaction ends.

A request is a `Program`: a tree of statements whose continuations depend on
what the statements read. Programs are verified one at a time against an
`Interference`, which says what a program may rely on others to leave alone
while it holds a given set of locks; `Service.invariant_of_ensures` turns those
separate proofs into an invariant of every interleaving.
-/

namespace ReadCommitted

variable {Database Write Key Failure α β : Type}

/-- What remains of a request's code, cut at its database statements. The
continuation of `execute` receives the rows its statement ran on, which is what
a `RETURNING` clause reads. -/
inductive Program (Database Write Key Failure α : Type) : Type
  | answer (value : α)
  | raise (failure : Failure)
  | select (next : Database → Program Database Write Key Failure α)
  | execute (statement : Database → List Write)
      (next : Database → Program Database Write Key Failure α)
  | lock (key : Key) (next : Program Database Write Key Failure α)
  | commit (next : Program Database Write Key Failure α)

namespace Program

/-- Sequential composition; a raised failure skips the rest. -/
def bind (program : Program Database Write Key Failure α)
    (rest : α → Program Database Write Key Failure β) :
    Program Database Write Key Failure β :=
  match program with
  | .answer value => rest value
  | .raise failure => .raise failure
  | .select next => .select fun rows => bind (next rows) rest
  | .execute statement next => .execute statement fun rows => bind (next rows) rest
  | .lock key next => .lock key (bind next rest)
  | .commit next => .commit (bind next rest)

instance : Monad (Program Database Write Key Failure) where
  pure := .answer
  bind := bind

/-- A `SELECT`, with what it extracts from the rows it sees. -/
def query (read : Database → α) : Program Database Write Key Failure α :=
  .select fun rows => .answer (read rows)

/-- A data-changing statement. -/
def update (statement : Database → List Write) : Program Database Write Key Failure Unit :=
  .execute statement fun _ => .answer ()

/-- A data-changing statement with a `RETURNING` clause. -/
def updateReturning (statement : Database → List Write) (read : Database → α) :
    Program Database Write Key Failure α :=
  .execute statement fun rows => .answer (read rows)

/-- Wait for a lock and keep it until the transaction ends. -/
def acquire (key : Key) : Program Database Write Key Failure Unit :=
  .lock key (.answer ())

/-- Wait for some locks, one after the other. -/
def acquireAll : List Key → Program Database Write Key Failure Unit
  | [] => .answer ()
  | key :: keys => .lock key (acquireAll keys)

/-- Make the transaction's rows visible and start a new transaction. -/
def commitTransaction : Program Database Write Key Failure Unit :=
  .commit (.answer ())

end Program

/-- The rows after a list of writes. -/
def performAll (perform : Database → Write → Database) (database : Database)
    (writes : List Write) : Database :=
  writes.foldl perform database

/-- Performing nothing changes nothing. -/
@[simp] theorem performAll_nil (perform : Database → Write → Database) (database : Database) :
    performAll perform database [] = database := rfl

/-- The first write is performed first. -/
@[simp] theorem performAll_cons (perform : Database → Write → Database) (database : Database)
    (write : Write) (writes : List Write) :
    performAll perform database (write :: writes) =
      performAll perform (perform database write) writes := rfl

/-- Two batches are performed one after the other. -/
theorem performAll_append (perform : Database → Write → Database) (database : Database)
    (first second : List Write) :
    performAll perform database (first ++ second) =
      performAll perform (performAll perform database first) second := by
  simp only [performAll, List.foldl_append]

/-- What each of some writes leaves standing exactly where it spares it, all of them
leave standing where every one does. -/
theorem performAll_iff {perform : Database → Write → Database} (standing : Database → Prop)
    {spares : Write → Prop} {writes : List Write}
    (one : ∀ write ∈ writes, ∀ database,
      standing (perform database write) ↔ standing database ∧ spares write)
    (database : Database) :
    standing (performAll perform database writes) ↔
      standing database ∧ ∀ write ∈ writes, spares write := by
  induction writes generalizing database with
  | nil => simp
  | cons write rest ih =>
      rw [performAll_cons, ih fun other member => one other (List.mem_cons_of_mem _ member),
        one write List.mem_cons_self, List.forall_mem_cons, and_assoc]

/-- The rows once the next event of the environment has happened, if there is one. -/
def happen {Event : Type} (environment : Database → Event → Database) (events : List Event)
    (database : Database) : Database :=
  events.head?.elim database (environment database)

/-- A request with no other beside it, events of the environment happening one by one
before its statements: what it ends in, and the rows it leaves. -/
def Program.alone {Event : Type} (perform : Database → Write → Database)
    (environment : Database → Event → Database) :
    Program Database Write Key Failure α → List Write → List Event → Database →
      Except Failure α × Database
  | .answer value, _, _, database => (.ok value, database)
  | .raise failure, _, _, database => (.error failure, database)
  | .select next, pending, events, database =>
      let later := happen environment events database
      alone perform environment (next (performAll perform later pending)) pending events.tail later
  | .execute statement next, pending, events, database =>
      let later := happen environment events database
      let view := performAll perform later pending
      alone perform environment (next view) (pending ++ statement view) events.tail later
  | .lock _ next, pending, events, database =>
      alone perform environment next pending events.tail (happen environment events database)
  | .commit next, pending, events, database =>
      alone perform environment next [] events.tail
        (performAll perform (happen environment events database) pending)

/-- What a request may rely on while other requests run. `rely held` relates the
committed rows at two moments of a request that holds the locks `held`
throughout; `invariant` holds of the committed rows at every moment. -/
structure Interference (Database Key : Type) where
  invariant : Database → Prop
  rely : Set Key → Database → Database → Prop
  refl : ∀ held database, rely held database database
  trans : ∀ held first second third,
    rely held first second → rely held second third → rely held first third

variable (perform : Database → Write → Database) (interference : Interference Database Key)
  (admits : Database → List Write → Prop)

/-- The program, started with the given uncommitted writes and locks at a moment
when the committed rows are `database`, ends in `post` whatever others do within
the interference, and every commit it makes on the way keeps the invariant and
stays within what others rely on. Only the commits that `admits` accepts are
accounted for. -/
def Ensures (post : α → List Write → Set Key → Database → Prop) :
    Program Database Write Key Failure α → List Write → Set Key → Database → Prop
  | .answer value, pending, held, database => post value pending held database
  | .raise _, _, _, _ => True
  | .select next, pending, held, database =>
      ∀ later, interference.rely held database later → interference.invariant later →
        Ensures post (next (performAll perform later pending)) pending held later
  | .execute statement next, pending, held, database =>
      ∀ later, interference.rely held database later → interference.invariant later →
        Ensures post (next (performAll perform later pending))
          (pending ++ statement (performAll perform later pending)) held later
  | .lock key next, pending, held, database =>
      ∀ later, interference.rely held database later → interference.invariant later →
        Ensures post next pending (insert key held) later
  | .commit next, pending, held, database =>
      ∀ later, interference.rely held database later → interference.invariant later →
        admits later pending →
          interference.invariant (performAll perform later pending) ∧
          (∀ others, Disjoint held others →
            interference.rely others later (performAll perform later pending)) ∧
          Ensures post next [] ∅ (performAll perform later pending)

variable {perform interference admits}

/-- **Sequencing rule.** -/
theorem Ensures.bind {program : Program Database Write Key Failure α}
    {rest : α → Program Database Write Key Failure β}
    {middle : α → List Write → Set Key → Database → Prop}
    {post : β → List Write → Set Key → Database → Prop}
    (continues : ∀ value pending held database, middle value pending held database →
      Ensures perform interference admits post (rest value) pending held database)
    {pending : List Write} {held : Set Key} {database : Database}
    (first : Ensures perform interference admits middle program pending held database) :
    Ensures perform interference admits post (program >>= rest) pending held database := by
  change Ensures perform interference admits post (program.bind rest) pending held database
  induction program generalizing pending held database with
  | answer value => exact continues value pending held database first
  | raise failure => trivial
  | select _ ih | execute _ _ ih =>
      intro later relied kept
      exact ih _ (first later relied kept)
  | lock key next ih =>
      intro later relied kept
      exact ih (first later relied kept)
  | commit next ih =>
      intro later relied kept admitted
      obtain ⟨invariant, guaranteed, remaining⟩ := first later relied kept admitted
      exact ⟨invariant, guaranteed, ih remaining⟩

/-- The rule of a statement that reads. -/
theorem Ensures.query {read : Database → α} {rest : α → Program Database Write Key Failure β}
    {post : β → List Write → Set Key → Database → Prop}
    {pending : List Write} {held : Set Key} {database : Database}
    (continues : ∀ later, interference.rely held database later → interference.invariant later →
      Ensures perform interference admits post
        (rest (read (performAll perform later pending))) pending held later) :
    Ensures perform interference admits post (Program.query read >>= rest)
      pending held database :=
  continues

/-- The rule of a statement that writes and reads. -/
theorem Ensures.updateReturning {statement : Database → List Write} {read : Database → α}
    {rest : α → Program Database Write Key Failure β}
    {post : β → List Write → Set Key → Database → Prop}
    {pending : List Write} {held : Set Key} {database : Database}
    (continues : ∀ later, interference.rely held database later → interference.invariant later →
      Ensures perform interference admits post (rest (read (performAll perform later pending)))
        (pending ++ statement (performAll perform later pending)) held later) :
    Ensures perform interference admits post (Program.updateReturning statement read >>= rest)
      pending held database :=
  continues

/-- The rule of a statement that writes. -/
theorem Ensures.update {statement : Database → List Write}
    {rest : Unit → Program Database Write Key Failure β}
    {post : β → List Write → Set Key → Database → Prop}
    {pending : List Write} {held : Set Key} {database : Database}
    (continues : ∀ later, interference.rely held database later → interference.invariant later →
      Ensures perform interference admits post (rest ())
        (pending ++ statement (performAll perform later pending)) held later) :
    Ensures perform interference admits post (Program.update statement >>= rest)
      pending held database :=
  continues

/-- The rule of a statement that waits for a lock. -/
theorem Ensures.acquire {key : Key} {rest : Unit → Program Database Write Key Failure β}
    {post : β → List Write → Set Key → Database → Prop}
    {pending : List Write} {held : Set Key} {database : Database}
    (continues : ∀ later, interference.rely held database later → interference.invariant later →
      Ensures perform interference admits post (rest ()) pending (insert key held) later) :
    Ensures perform interference admits post (Program.acquire key >>= rest)
      pending held database :=
  continues

/-- A final commit must keep the invariant and what others rely on. -/
theorem Ensures.commitTransaction {post : Unit → List Write → Set Key → Database → Prop}
    {pending : List Write} {held : Set Key} {database : Database}
    (commits : ∀ later, interference.rely held database later → interference.invariant later →
      admits later pending →
        interference.invariant (performAll perform later pending) ∧
        (∀ others, Disjoint held others →
          interference.rely others later (performAll perform later pending)) ∧
        post () [] ∅ (performAll perform later pending)) :
    Ensures perform interference admits post
      (Program.commitTransaction : Program Database Write Key Failure Unit)
      pending held database :=
  commits

/-- Raising abandons the transaction, so nothing is left to show. -/
theorem Ensures.raise {post : α → List Write → Set Key → Database → Prop} (failure : Failure)
    (pending : List Write) (held : Set Key) (database : Database) :
    Ensures perform interference admits post
      (.raise failure : Program Database Write Key Failure α) pending held database :=
  trivial

/-- A check that raises changes nothing. -/
theorem Ensures.check {condition : Prop} [Decidable condition] {failure : Failure}
    {rest : Unit → Program Database Write Key Failure β}
    {post : β → List Write → Set Key → Database → Prop}
    {pending : List Write} {held : Set Key} {database : Database}
    (continues : Ensures perform interference admits post (rest ()) pending held database) :
    Ensures perform interference admits post
      ((if condition then pure () else .raise failure) >>= rest) pending held database := by
  split
  · exact continues
  · trivial

/-- A weaker postcondition. -/
theorem Ensures.mono {program : Program Database Write Key Failure α}
    {post weaker : α → List Write → Set Key → Database → Prop}
    (implies : ∀ value pending held database, post value pending held database →
      weaker value pending held database)
    {pending : List Write} {held : Set Key} {database : Database}
    (ensured : Ensures perform interference admits post program pending held database) :
    Ensures perform interference admits weaker program pending held database := by
  induction program generalizing pending held database with
  | answer value => exact implies value pending held database ensured
  | raise failure => trivial
  | select _ ih | execute _ _ ih => exact fun later relied kept => ih _ (ensured later relied kept)
  | lock key next ih => exact fun later relied kept => ih (ensured later relied kept)
  | commit next ih =>
      intro later relied kept admitted
      obtain ⟨invariant, guaranteed, remaining⟩ := ensured later relied kept admitted
      exact ⟨invariant, guaranteed, ih remaining⟩

/-- Waiting for locks, where holding more only adds to what others leave alone. -/
theorem Ensures.acquireAll
    (more : ∀ key held before after, interference.rely (insert key held) before after →
      interference.rely held before after)
    (keys : List Key) (pending : List Write) (held : Set Key) (database : Database) :
    Ensures perform interference admits
      (fun _ after holds later => after = pending ∧ held ⊆ holds ∧ (∀ key ∈ keys, key ∈ holds) ∧
        interference.rely held database later)
      (Program.acquireAll keys : Program Database Write Key Failure Unit)
      pending held database := by
  induction keys generalizing held database with
  | nil => exact ⟨rfl, subset_rfl, List.forall_mem_nil _, interference.refl _ _⟩
  | cons key rest ih =>
      intro later relied _
      apply Ensures.mono _ (ih _ _)
      rintro _ after holds final ⟨same, kept, all, further⟩
      obtain ⟨own, others⟩ := Set.insert_subset_iff.mp kept
      exact ⟨same, others, List.forall_mem_cons.mpr ⟨own, all⟩,
        interference.trans _ _ _ _ relied (more _ _ _ _ further)⟩

/-- What is ensured at one moment is ensured at any later moment the program can
be resumed at, given a postcondition that others cannot disturb. -/
theorem Ensures.stable {program : Program Database Write Key Failure α}
    {post : α → List Write → Set Key → Database → Prop}
    {pending : List Write} {held : Set Key} {database later : Database}
    (undisturbed : ∀ value, post value pending held database → post value pending held later)
    (relied : interference.rely held database later)
    (ensured : Ensures perform interference admits post program pending held database) :
    Ensures perform interference admits post program pending held later := by
  cases program with
  | answer value => exact undisturbed value ensured
  | raise failure => trivial
  | select _ | execute _ _ | lock _ _ | commit _ =>
      intro final further
      exact ensured final (interference.trans _ _ _ _ relied further)

/-! ## Disciplines of writes -/

/-- Whatever it reads, the program writes only what is allowed. -/
def Program.Writes (allowed : Write → Prop) : Program Database Write Key Failure α → Prop
  | .answer _ => True
  | .raise _ => True
  | .select next => ∀ rows, Writes allowed (next rows)
  | .execute statement next =>
      ∀ rows, (∀ write ∈ statement rows, allowed write) ∧ Writes allowed (next rows)
  | .lock _ next => Writes allowed next
  | .commit next => Writes allowed next

variable {allowed : Write → Prop}

/-- What two parts may write, the whole may. -/
theorem Program.Writes.bind {program : Program Database Write Key Failure α}
    {rest : α → Program Database Write Key Failure β} (first : program.Writes allowed)
    (continues : ∀ value, (rest value).Writes allowed) : (program >>= rest).Writes allowed := by
  change (program.bind rest).Writes allowed
  induction program with
  | answer value => exact continues value
  | raise failure => trivial
  | select next ih => exact fun rows => ih rows (first rows)
  | execute statement next ih => exact fun rows => ⟨(first rows).1, ih rows (first rows).2⟩
  | lock _ _ ih | commit _ ih => exact ih first

/-- **Rule of allowed writes.** A program that is entered under an assumption which others
leave standing is ensured once every commit of allowed writes, under that assumption,
keeps the invariant and what others rely on. -/
theorem Ensures.of_writes_under {assumption : Database → Prop}
    (stands : ∀ held before after, interference.rely held before after →
      assumption before → assumption after)
    (keeps : ∀ rows pending, interference.invariant rows → assumption rows → admits rows pending →
      (∀ write ∈ pending, allowed write) →
        interference.invariant (performAll perform rows pending) ∧
          ∀ held, interference.rely held rows (performAll perform rows pending))
    {program : Program Database Write Key Failure α} (writes : program.Writes allowed)
    {pending : List Write} (begun : ∀ write ∈ pending, allowed write) (held : Set Key)
    {database : Database} (assumed : assumption database) :
    Ensures perform interference admits (fun _ _ _ _ => True) program pending held database := by
  induction program generalizing pending held database with
  | answer value => trivial
  | raise failure => trivial
  | select next ih =>
      exact fun later relied _ => ih _ (writes _) begun held (stands _ _ _ relied assumed)
  | execute statement next ih =>
      intro later relied _
      refine ih _ (writes _).2 ?_ held (stands _ _ _ relied assumed)
      intro write member
      rcases List.mem_append.mp member with before | added
      · exact begun write before
      · exact (writes _).1 write added
  | lock key next ih =>
      exact fun later relied _ => ih writes begun _ (stands _ _ _ relied assumed)
  | commit next ih =>
      intro later relied kept admitted
      have standing := stands _ _ _ relied assumed
      obtain ⟨invariant, leaves⟩ := keeps later pending kept standing admitted begun
      refine ⟨invariant, fun others _ => leaves others, ?_⟩
      exact ih writes (List.forall_mem_nil _) _ (stands _ _ _ (leaves ∅) standing)

/-- A program is ensured once every commit of allowed writes keeps the invariant and what
others rely on. -/
theorem Ensures.of_writes
    (keeps : ∀ rows pending, interference.invariant rows → admits rows pending →
      (∀ write ∈ pending, allowed write) →
        interference.invariant (performAll perform rows pending) ∧
          ∀ held, interference.rely held rows (performAll perform rows pending))
    {program : Program Database Write Key Failure α} (writes : program.Writes allowed)
    {pending : List Write} (begun : ∀ write ∈ pending, allowed write) (held : Set Key)
    (database : Database) :
    Ensures perform interference admits (fun _ _ _ _ => True) program pending held database := by
  apply @Ensures.of_writes_under _ _ _ _ _ _ _ _ _ (fun _ => True) (fun _ _ _ _ _ => trivial) _ _
    writes _ begun held database trivial
  exact fun rows pending kept _ => keeps rows pending kept

/-- As long as what it reads is as `sees` says, the program writes only what is allowed and
answers as `post` says. -/
def Program.Keeps (sees : Database → Prop) (allowed : Write → Prop) (post : α → Prop) :
    Program Database Write Key Failure α → Prop
  | .answer value => post value
  | .raise _ => True
  | .select next => ∀ rows, sees rows → Keeps sees allowed post (next rows)
  | .execute statement next => ∀ rows, sees rows →
      (∀ write ∈ statement rows, allowed write) ∧ Keeps sees allowed post (next rows)
  | .lock _ next => Keeps sees allowed post next
  | .commit next => Keeps sees allowed post next

/-- Two parts that keep to what they may write make a whole that does. -/
theorem Program.Keeps.bind {sees : Database → Prop} {middle : α → Prop} {post : β → Prop}
    {program : Program Database Write Key Failure α}
    {rest : α → Program Database Write Key Failure β} (first : program.Keeps sees allowed middle)
    (continues : ∀ value, middle value → (rest value).Keeps sees allowed post) :
    (program >>= rest).Keeps sees allowed post := by
  change (program.bind rest).Keeps sees allowed post
  induction program with
  | answer value => exact continues value first
  | raise failure => trivial
  | select next ih => exact fun rows seen => ih rows (first rows seen)
  | execute statement next ih =>
      exact fun rows seen => ⟨(first rows seen).1, ih rows (first rows seen).2⟩
  | lock _ _ ih | commit _ ih => exact ih first

/-- A statement that reads writes nothing. -/
theorem Program.Keeps.query {sees : Database → Prop} {read : Database → α}
    {rest : α → Program Database Write Key Failure β} {post : β → Prop}
    (continues : ∀ rows, sees rows → (rest (read rows)).Keeps sees allowed post) :
    (Program.query read >>= rest).Keeps sees allowed post :=
  continues

/-- A statement that writes is asked about its writes. -/
theorem Program.Keeps.update {sees : Database → Prop} {statement : Database → List Write}
    {rest : Unit → Program Database Write Key Failure β} {post : β → Prop}
    (writes : ∀ rows, sees rows → ∀ write ∈ statement rows, allowed write)
    (continues : (rest ()).Keeps sees allowed post) :
    (Program.update statement >>= rest).Keeps sees allowed post :=
  fun rows seen => ⟨writes rows seen, continues⟩

theorem Program.Keeps.updateReturning {sees : Database → Prop}
    {statement : Database → List Write} {read : Database → α}
    {rest : α → Program Database Write Key Failure β} {post : β → Prop}
    (writes : ∀ rows, sees rows → ∀ write ∈ statement rows, allowed write)
    (continues : ∀ rows, sees rows → (rest (read rows)).Keeps sees allowed post) :
    (Program.updateReturning statement read >>= rest).Keeps sees allowed post :=
  fun rows seen => ⟨writes rows seen, continues rows seen⟩

/-- A lock writes nothing. -/
theorem Program.Keeps.acquire {sees : Database → Prop} {key : Key}
    {rest : Unit → Program Database Write Key Failure β} {post : β → Prop}
    (continues : (rest ()).Keeps sees allowed post) :
    (Program.acquire key >>= rest).Keeps sees allowed post :=
  continues

/-- **Rule of kept data.** What allowed writes keep, a program that relies on nothing else
of what it reads keeps, whatever others do within the invariant, and it answers as it says. -/
theorem Ensures.of_keeps (free : ∀ held before after, interference.rely held before after)
    (preserved : ∀ rows pending, interference.invariant rows →
      (∀ write ∈ pending, allowed write) →
        interference.invariant (performAll perform rows pending))
    {post : α → Prop} {program : Program Database Write Key Failure α}
    (keeps : program.Keeps interference.invariant allowed post)
    {pending : List Write} (begun : ∀ write ∈ pending, allowed write) (held : Set Key)
    (database : Database) :
    Ensures perform interference admits
      (fun value written _ _ => post value ∧ ∀ write ∈ written, allowed write)
      program pending held database := by
  induction program generalizing pending held database with
  | answer value => exact ⟨keeps, begun⟩
  | raise failure => trivial
  | select next ih =>
      exact fun later _ kept => ih _ (keeps _ (preserved later pending kept begun)) begun held later
  | execute statement next ih =>
      intro later _ kept
      obtain ⟨writes, remaining⟩ := keeps _ (preserved later pending kept begun)
      apply ih _ remaining _ held later
      intro write member
      rcases List.mem_append.mp member with before | added
      · exact begun write before
      · exact writes write added
  | lock key next ih => exact fun later _ _ => ih keeps begun _ later
  | commit next ih =>
      intro later _ kept _
      exact ⟨preserved later pending kept begun, fun others _ => free _ _ _,
        ih keeps (List.forall_mem_nil _) _ _⟩

/-! ## Services -/

/-- Names of requests; each is used once. -/
abbrev ProcessId := Nat

/-- A request in progress: the code still to run and its uncommitted writes. -/
structure Process (Database Write Key Failure α : Type) where
  program : Program Database Write Key Failure α
  pending : List Write

/-- The committed rows, the holder of each lock and the requests so far. -/
structure State (Database Write Key Failure α : Type) where
  database : Database
  holder : Key → Option ProcessId
  processes : ProcessId → Option (Process Database Write Key Failure α)

/-- A request arrives, takes its next step or dies; or something outside the
requests happens to the rows. -/
inductive Action (Request Event Failure : Type)
  | start (process : ProcessId) (request : Request)
  | advance (process : ProcessId)
  | abort (process : ProcessId) (failure : Failure)
  | occur (event : Event)

/-- A request that arrives and takes some steps. -/
def runs {Request Event Failure : Type} (process : ProcessId) (request : Request) (steps : Nat) :
    List (Action Request Event Failure) :=
  .start process request :: List.replicate steps (.advance process)

/-- A database service: how writes and outside events change rows, and the code
each kind of request runs. -/
structure Service (Database Write Key Failure α Request Event : Type) where
  perform : Database → Write → Database
  handler : ProcessId → Request → Program Database Write Key Failure α
  environment : Database → Event → Database
  Initial : Database → Prop

/-- The state after a process continues with the given code and uncommitted
writes, nothing else changing. -/
def State.proceed (state : State Database Write Key Failure α) (process : ProcessId)
    (program : Program Database Write Key Failure α) (pending : List Write) :
    State Database Write Key Failure α :=
  { state with processes := Function.update state.processes process (some ⟨program, pending⟩) }

namespace Service

variable {Request Event : Type}

/-- The locks after a process's transaction has ended. -/
def release (holder : Key → Option ProcessId) (process : ProcessId) : Key → Option ProcessId :=
  fun key => if holder key = some process then none else holder key

/-- One statement of a process. A lock held by another process blocks; a request
that has ended gives up its uncommitted writes and its locks. -/
def advance [DecidableEq Key] (service : Service Database Write Key Failure α Request Event)
    (state : State Database Write Key Failure α) (process : ProcessId) :
    Option (State Database Write Key Failure α) :=
  match state.processes process with
  | none => none
  | some ⟨program, pending⟩ =>
    let view := performAll service.perform state.database pending
    match program with
    | .answer value =>
        some ({ state with holder := release state.holder process }.proceed process
          (.answer value) [])
    | .raise failure =>
        some ({ state with holder := release state.holder process }.proceed process
          (.raise failure) [])
    | .select next => some (state.proceed process (next view) pending)
    | .execute statement next =>
        some (state.proceed process (next view) (pending ++ statement view))
    | .lock key next =>
        if state.holder key = none ∨ state.holder key = some process then
          some ({ state with holder := Function.update state.holder key (some process) }.proceed
            process next pending)
        else none
    | .commit next =>
        some ({ state with database := view, holder := release state.holder process }.proceed
          process next [])

/-- The step function of a service. -/
def step [DecidableEq Key] (service : Service Database Write Key Failure α Request Event)
    (state : State Database Write Key Failure α) :
    Action Request Event Failure → Option (State Database Write Key Failure α)
  | .start process request =>
      match state.processes process with
      | none => some (state.proceed process (service.handler process request) [])
      | some _ => none
  | .advance process => service.advance state process
  | .abort process failure =>
      match state.processes process with
      | none => none
      | some _ =>
          some ({ state with holder := release state.holder process }.proceed process
            (.raise failure) [])
  | .occur event =>
      some { state with database := service.environment state.database event }

/-- The interleavings of a service's requests, started with no request and no
lock. -/
def system [DecidableEq Key] (service : Service Database Write Key Failure α Request Event) :
    TransitionSystem (State Database Write Key Failure α) (Action Request Event Failure) where
  Initial := fun state => service.Initial state.database ∧
    (∀ key, state.holder key = none) ∧ ∀ process, state.processes process = none
  step := service.step

/-- The same service, with one state of the database to start from. -/
def startedAt (service : Service Database Write Key Failure α Request Event)
    (database : Database) : Service Database Write Key Failure α Request Event :=
  { service with Initial := fun rows => rows = database }

/-- A run starts at one of the initial states of the database. -/
theorem exists_startedAt [DecidableEq Key]
    {service : Service Database Write Key Failure α Request Event}
    {guard : State Database Write Key Failure α → Action Request Event Failure → Prop}
    {state : State Database Write Key Failure α}
    (reached : service.system.ReachedWithin guard state) :
    ∃ database, service.Initial database ∧
      (service.startedAt database).system.ReachedWithin guard state := by
  induction reached with
  | @initial state start => exact ⟨state.database, start.1, .initial ⟨rfl, start.2⟩⟩
  | step _ accepted moved ih =>
      obtain ⟨database, begins, before⟩ := ih
      exact ⟨database, begins, before.step accepted moved⟩

/-- Every commit the action makes is one that `admits` accepts. -/
def CommitsWithin (admits : Database → List Write → Prop)
    (state : State Database Write Key Failure α) : Action Request Event Failure → Prop
  | .advance process =>
      match state.processes process with
      | some ⟨.commit _, pending⟩ => admits state.database pending
      | _ => True
  | _ => True

instance (admits : Database → List Write → Prop)
    [∀ database pending, Decidable (admits database pending)]
    (state : State Database Write Key Failure α) (action : Action Request Event Failure) :
    Decidable (CommitsWithin admits state action) := by
  unfold CommitsWithin
  split
  · split <;> infer_instance
  · infer_instance

/-- The locks a process holds. -/
def held (holder : Key → Option ProcessId) (process : ProcessId) : Set Key :=
  {key | holder key = some process}

/-- The code of every request is ensured at the present moment to answer as `post` says,
and only requests hold locks. -/
def EnsuredFor (service : Service Database Write Key Failure α Request Event)
    (interference : Interference Database Key) (admits : Database → List Write → Prop)
    (post : ProcessId → α → Database → Prop)
    (state : State Database Write Key Failure α) : Prop :=
  interference.invariant state.database ∧
    (∀ process, state.processes process = none → held state.holder process = ∅) ∧
    ∀ process program pending, state.processes process = some ⟨program, pending⟩ →
      Ensures service.perform interference admits (fun value _ _ database =>
        post process value database) program pending (held state.holder process) state.database

/-- The code of every request is ensured at the present moment, and only requests
hold locks. -/
def Ensured (service : Service Database Write Key Failure α Request Event)
    (interference : Interference Database Key) (admits : Database → List Write → Prop)
    (state : State Database Write Key Failure α) : Prop :=
  interference.invariant state.database ∧
    (∀ process, state.processes process = none → held state.holder process = ∅) ∧
    ∀ process program pending, state.processes process = some ⟨program, pending⟩ →
      Ensures service.perform interference admits (fun _ _ _ _ => True) program pending
        (held state.holder process) state.database

/-- A process that releases its locks holds none. -/
@[simp] theorem held_release_self (holder : Key → Option ProcessId) (process : ProcessId) :
    held (release holder process) process = ∅ := by
  ext key
  simp only [held, release, Set.mem_ofPred_eq, Set.mem_empty_iff_false, iff_false]
  split
  · exact Option.some_ne_none _ ∘ Eq.symm
  · assumption

/-- The others hold their locks. -/
@[simp] theorem held_release_of_ne {holder : Key → Option ProcessId} {process other : ProcessId}
    (different : other ≠ process) : held (release holder process) other = held holder other := by
  ext key
  simp only [held, release, Set.mem_ofPred_eq]
  by_cases own : holder key = some process
  · simp [own, Ne.symm different]
  · simp [own]

/-- Two processes never hold the same lock. -/
theorem disjoint_held (holder : Key → Option ProcessId) {process other : ProcessId}
    (different : other ≠ process) : Disjoint (held holder process) (held holder other) := by
  rw [Set.disjoint_left]
  intro key mine theirs
  have same : some process = some other := mine.symm.trans theirs
  exact different (Option.some.inj same).symm

variable [DecidableEq Key]

/-- A lock acquired is held beside the others. -/
theorem held_acquire_self (holder : Key → Option ProcessId) (key : Key) (process : ProcessId) :
    held (Function.update holder key (some process)) process =
      insert key (held holder process) := by
  ext candidate
  by_cases same : candidate = key
  · subst same
    simp [held]
  · simp [held, same]

/-- A lock acquired is taken from nobody. -/
theorem held_acquire_of_ne {holder : Key → Option ProcessId} {key : Key}
    {process other : ProcessId} (different : other ≠ process)
    (free : holder key = none ∨ holder key = some process) :
    held (Function.update holder key (some process)) other = held holder other := by
  ext candidate
  by_cases same : candidate = key
  · subst same
    have differs : process ≠ other := Ne.symm different
    rcases free with unheld | own
    · simp [held, unheld, differs]
    · simp [held, own]
  · simp [held, same]

variable {service : Service Database Write Key Failure α Request Event}
  {interference : Interference Database Key} {admits : Database → List Write → Prop}

/-- What others do leaves standing what a request has been answered. -/
def Stable (interference : Interference Database Key) (post : ProcessId → α → Database → Prop) :
    Prop :=
  ∀ process value held before after, interference.rely held before after →
    post process value before → post process value after

variable {post : ProcessId → α → Database → Prop}

omit [DecidableEq Key] in
/-- One process continuing keeps every request ensured, provided its new code is
and the others' locks and rows are theirs to rely on. -/
private theorem EnsuredFor.proceed {state : State Database Write Key Failure α}
    (ensured : EnsuredFor service interference admits post state)
    (stable : Stable interference post)
    (database : Database) (holder : Key → Option ProcessId) (process : ProcessId)
    (program : Program Database Write Key Failure α) (pending : List Write)
    (invariant : interference.invariant database)
    (own : Ensures service.perform interference admits (fun value _ _ rows =>
      post process value rows) program pending (held holder process) database)
    (locks : ∀ other, other ≠ process → held holder other = held state.holder other)
    (relied : ∀ other, other ≠ process →
      interference.rely (held state.holder other) state.database database) :
    EnsuredFor service interference admits post
      (State.proceed { state with database := database, holder := holder } process program
        pending) := by
  refine ⟨invariant, ?_, ?_⟩
  · intro other absent
    by_cases same : other = process
    · subst same
      simp [State.proceed] at absent
    · simp only [State.proceed, Function.update_of_ne same] at absent
      change held holder other = ∅
      rw [locks other same]
      exact ensured.2.1 other absent
  intro other code writes running
  by_cases same : other = process
  · subst same
    simp only [State.proceed, Function.update_self, Option.some.injEq, Process.mk.injEq]
      at running
    obtain ⟨rfl, rfl⟩ := running
    exact own
  · simp only [State.proceed, Function.update_of_ne same] at running
    have before := ensured.2.2 other code writes running
    change Ensures _ _ _ _ code writes (held holder other) database
    rw [locks other same]
    exact before.stable (fun value => stable other value _ _ _ (relied other same))
      (relied other same)

/-- What a service must establish about each of its parts separately. -/
structure Verified (service : Service Database Write Key Failure α Request Event)
    (interference : Interference Database Key) (admits : Database → List Write → Prop) :
    Prop where
  initially : ∀ database, service.Initial database → interference.invariant database
  handlers : ∀ process request database, interference.invariant database →
    Ensures service.perform interference admits (fun _ _ _ _ => True)
      (service.handler process request) [] ∅ database
  keeps : ∀ database event, interference.invariant database →
    interference.invariant (service.environment database event)
  leaves : ∀ database event held,
    interference.rely held database (service.environment database event)

/-- One statement of one process keeps every request ensured. -/
theorem EnsuredFor.advance {state next : State Database Write Key Failure α}
    (ensured : EnsuredFor service interference admits post state)
    (stable : Stable interference post) {process : ProcessId}
    (within : ∀ pending rest, state.processes process = some ⟨.commit rest, pending⟩ →
      admits state.database pending)
    (moved : service.advance state process = some next) :
    EnsuredFor service interference admits post next := by
  unfold Service.advance at moved
  cases running : state.processes process with
  | none => simp [running] at moved
  | some current =>
      obtain ⟨program, pending⟩ := current
      have own := ensured.2.2 process program pending running
      have unchanged : ∀ other, other ≠ process →
          interference.rely (held state.holder other) state.database state.database :=
        fun other _ => interference.refl _ _
      cases program with
      | answer value =>
          simp only [running, Option.some.injEq] at moved
          subst moved
          exact ensured.proceed stable _ _ _ _ _ ensured.1 own
            (fun _ => held_release_of_ne) unchanged
      | raise failure =>
          simp only [running, Option.some.injEq] at moved
          subst moved
          exact ensured.proceed stable _ _ _ _ _ ensured.1 trivial
            (fun _ => held_release_of_ne) unchanged
      | select _ | execute _ _ =>
          simp only [running, Option.some.injEq] at moved
          subst moved
          exact ensured.proceed stable _ _ _ _ _ ensured.1
            (own _ (interference.refl _ _) ensured.1) (fun _ _ => rfl) unchanged
      | lock key rest =>
          simp only [running] at moved
          split at moved
          next free =>
            cases moved
            refine ensured.proceed stable _ _ _ _ _ ensured.1 ?_
              (fun _ different => held_acquire_of_ne different free) unchanged
            rw [held_acquire_self]
            exact own _ (interference.refl _ _) ensured.1
          next => cases moved
      | commit rest =>
          simp only [running, Option.some.injEq] at moved
          subst moved
          have admitted := within pending rest running
          obtain ⟨kept, guaranteed, remaining⟩ :=
            own _ (interference.refl _ _) ensured.1 admitted
          refine ensured.proceed stable _ _ _ _ _ kept ?_ (fun _ => held_release_of_ne)
            (fun other different => guaranteed _ (disjoint_held _ different))
          rw [held_release_self]
          exact remaining

/-- **Adequacy.** A service whose handlers are ensured one by one keeps its invariant, and
answers as they are ensured to, in every interleaving whose commits are all admitted. -/
theorem ensuredFor_of_reached (verified : Verified service interference admits)
    (stable : Stable interference post)
    (answers : ∀ process request database, interference.invariant database →
      Ensures service.perform interference admits (fun value _ _ rows => post process value rows)
        (service.handler process request) [] ∅ database)
    {state : State Database Write Key Failure α}
    (reached : service.system.ReachedWithin (CommitsWithin admits) state) :
    EnsuredFor service interference admits post state := by
  refine reached.invariant ?_ ?_
  · rintro start ⟨begins, free, idle⟩
    refine ⟨verified.initially _ begins, ?_, ?_⟩
    · intro process _
      simp [held, free]
    intro process program pending running
    rw [idle process] at running
    cases running
  · intro before action after ensured within moved
    cases action with
    | start process request =>
        simp only [system, step] at moved
        split at moved
        next absent =>
          cases moved
          refine ensured.proceed stable _ _ _ _ _ ensured.1 ?_ (fun _ _ => rfl)
            (fun _ _ => interference.refl _ _)
          rw [ensured.2.1 process absent]
          exact answers process request _ ensured.1
        next => cases moved
    | advance process =>
        refine ensured.advance stable (fun pending rest running => ?_) moved
        simpa only [CommitsWithin, running] using within
    | abort process failure =>
        simp only [system, step] at moved
        split at moved
        next => cases moved
        next =>
          cases moved
          exact ensured.proceed stable _ _ _ _ _ ensured.1 trivial
            (fun _ => held_release_of_ne) (fun _ _ => interference.refl _ _)
    | occur event =>
        simp only [system, step, Option.some.injEq] at moved
        subst moved
        refine ⟨verified.keeps _ _ ensured.1, ensured.2.1, ?_⟩
        intro process program pending running
        have relied := verified.leaves before.database event (held before.holder process)
        exact (ensured.2.2 process program pending running).stable
          (fun value => stable process value _ _ _ relied) relied

/-- What each program ensures is ensured in every state reached. -/
theorem ensured_of_reached (verified : Verified service interference admits)
    {state : State Database Write Key Failure α}
    (reached : service.system.ReachedWithin (CommitsWithin admits) state) :
    Ensured service interference admits state :=
  ensuredFor_of_reached verified (fun _ _ _ _ _ _ _ => trivial) verified.handlers reached

/-- A service keeps its invariant in every interleaving whose commits are all admitted. -/
theorem invariant_of_ensures (verified : Verified service interference admits)
    {state : State Database Write Key Failure α}
    (reached : service.system.ReachedWithin (CommitsWithin admits) state) :
    interference.invariant state.database :=
  (ensured_of_reached verified reached).1

/-- Every run commits within no restriction at all. -/
theorem commitsWithin_of_reachable {state : State Database Write Key Failure α}
    (reached : service.system.Reachable state) :
    service.system.ReachedWithin (CommitsWithin fun _ _ => True) state := by
  apply reached.weaken
  intro before action _
  unfold CommitsWithin
  split
  · split <;> trivial
  · trivial

/-- Where every commit is accounted for, the invariant holds of every reachable state. -/
theorem invariant_of_reachable
    (verified : Verified service interference (fun _ _ => True))
    {state : State Database Write Key Failure α} (reached : service.system.Reachable state) :
    interference.invariant state.database :=
  invariant_of_ensures verified (commitsWithin_of_reachable reached)

/-- And every answer is as it was ensured to be. -/
theorem answers_of_reachable (verified : Verified service interference (fun _ _ => True))
    (stable : Stable interference post)
    (answers : ∀ process request database, interference.invariant database →
      Ensures service.perform interference (fun _ _ => True)
        (fun value _ _ rows => post process value rows)
        (service.handler process request) [] ∅ database)
    {state : State Database Write Key Failure α} (reached : service.system.Reachable state)
    {process : ProcessId} {value : α} {pending : List Write}
    (answered : state.processes process = some ⟨.answer value, pending⟩) :
    post process value state.database :=
  (ensuredFor_of_reached verified stable answers (commitsWithin_of_reachable reached)).2.2
    process _ _ answered

end Service

end ReadCommitted
