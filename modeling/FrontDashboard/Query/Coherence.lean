import FrontDashboard.Query.ScopedQuery

/-! # Coherence of the keyed query cache

When nothing is in flight, an entry that a component reads holds an error, or
data whose last source came after the entry's last invalidation, with every
later patch and seed applied. Its source is a request issued after that
invalidation, or a seed, which stands for full data and needs no request.

This holds in every run in which no successful response overwrites a patch or a
seed, none settles an entry that was invalidated under its readers, and no patch
fills an entry that was never loaded. A request that is joined rather than
repeated breaks each of the first two.
-/

namespace FrontDashboard.Query

variable {Scope Key Data Error : Type}

/-- Patches and seeds. -/
def Event.isChange : Event Data → Bool
  | .patched _ | .seeded _ => true
  | _ => false

def Event.isIssue (request : RequestId) : Event Data → Bool
  | .issued other => other == request
  | _ => false

/-- What an event makes of the data. -/
def Event.onData : Event Data → Option Data → Option Data
  | .patched change => change
  | .seeded data => fun _ => some data
  | _ => id

/-- The changes of a journal applied to data, the oldest first. -/
def replay (base : Option Data) (events : List (Event Data)) : Option Data :=
  events.foldr (fun event data => event.onData data) base

/-- The data of an entry with this journal is up to date: what came after its
source holds no invalidation, and its changes are all applied. -/
def Current (data : Option Data) (journal : List (Event Data)) : Prop :=
  ∃ later earlier, .invalidated ∉ later ∧
    ((∃ request response, journal = later ++ .issued request :: earlier ∧
        .answered request response ∈ later ∧ data = replay (some response) later) ∨
      ∃ full, journal = later ++ .seeded full :: earlier ∧ data = replay (some full) later)

/-- What a reader of the entry is owed. -/
def Entry.Served (entry : Entry Scope Data Error) : Prop :=
  entry.state.error.isSome = true ∨
    entry.state.data.isSome = true ∧ Current entry.state.data entry.journal

/-- Once nothing is in flight, every entry with a listener is served. -/
def Coherent (cache : Cache Scope Key Data Error) : Prop :=
  (∀ entry ∈ cache.entries.values, entry.inFlight = none) →
    ∀ entry ∈ cache.entries.values, 0 < entry.listeners → entry.Served

/-! ## The steps that lose nothing -/

/-- Whether the entry was patched or seeded since a request was issued. -/
def changedSince (request : RequestId) (journal : List (Event Data)) : Bool :=
  (journal.takeWhile fun event => !event.isIssue request).any Event.isChange

/-- A response may settle the entry: it overwrites no change, and no reader of the
entry waits for a later one. -/
def Entry.AwaitsResponse (request : RequestId) (entry : Entry Scope Data Error) : Prop :=
  entry.inFlight = some request →
    changedSince request entry.journal = false ∧ (0 < entry.listeners → entry.stale = false)

/-- A patch may change the entry: it does not fill one that still has to be
loaded. -/
def Entry.AwaitsPatch (predicate : Scope → Bool) (updater : Updater Scope Data Error)
    (entry : Entry Scope Data Error) : Prop :=
  predicate entry.scope = true → entry.inFlight = none → entry.stale = false →
    entry.state.error.isNone = true → entry.state.data.isNone = true →
      (updater.onData entry.scope none).isNone = true

instance (request : RequestId) (entry : Entry Scope Data Error) :
    Decidable (entry.AwaitsResponse request) :=
  inferInstanceAs (Decidable (entry.inFlight = some request →
    changedSince request entry.journal = false ∧ (0 < entry.listeners → entry.stale = false)))

instance (predicate : Scope → Bool) (updater : Updater Scope Data Error)
    (entry : Entry Scope Data Error) : Decidable (entry.AwaitsPatch predicate updater) :=
  inferInstanceAs (Decidable (predicate entry.scope = true → entry.inFlight = none →
    entry.stale = false → entry.state.error.isNone = true → entry.state.data.isNone = true →
      (updater.onData entry.scope none).isNone = true))

def LosesNothing (cache : Cache Scope Key Data Error) : Action Scope Key Data Error → Prop
  | .succeed request _ => ∀ entry ∈ cache.entries.values, entry.AwaitsResponse request
  | .updateWhere predicate updater =>
      ∀ entry ∈ cache.entries.values, entry.AwaitsPatch predicate updater
  | _ => True

instance (cache : Cache Scope Key Data Error) (action : Action Scope Key Data Error) :
    Decidable (LosesNothing cache action) := by
  unfold LosesNothing
  split <;> infer_instance

/-! ## Journals -/

/-- Events that change nothing leave the data. -/
theorem replay_of_unchanged (base : Option Data) {events : List (Event Data)}
    (unchanged : ∀ event ∈ events, event.isChange = false) : replay base events = base := by
  induction events with
  | nil => rfl
  | cons event rest ih =>
      have same : event.onData = id := by
        have kept := unchanged event List.mem_cons_self
        cases event <;> first | rfl | cases kept
      change event.onData (replay base rest) = base
      rw [same, ih fun other member => unchanged other (List.mem_cons_of_mem _ member)]
      rfl

/-- An event other than an invalidation keeps data current, once its own change is
applied. -/
theorem Current.cons {data : Option Data} {journal : List (Event Data)}
    (current : Current data journal) {event : Event Data} (kept : event ≠ .invalidated) :
    Current (event.onData data) (event :: journal) := by
  obtain ⟨later, earlier, uninvalidated, source⟩ := current
  refine ⟨event :: later, earlier, ?_, ?_⟩
  · intro member
    rcases List.mem_cons.mp member with same | before
    · exact kept same.symm
    · exact uninvalidated before
  · rcases source with ⟨request, response, rfl, answered, rfl⟩ | ⟨full, rfl, rfl⟩
    · exact .inl ⟨request, response, rfl, List.mem_cons_of_mem _ answered, rfl⟩
    · exact .inr ⟨full, rfl, rfl⟩

/-- Data that have just been seeded are current. -/
theorem current_seeded (full : Data) (journal : List (Event Data)) :
    Current (some full) (.seeded full :: journal) :=
  ⟨[], journal, List.not_mem_nil, .inr ⟨full, rfl, rfl⟩⟩

/-- Up to the request's issue, the events since are those after it. -/
theorem takeWhile_issue {request : RequestId} {later earlier : List (Event Data)}
    (once : .issued request ∉ later) :
    (later ++ .issued request :: earlier).takeWhile (fun event => !event.isIssue request) =
      later := by
  induction later with
  | nil => simp [Event.isIssue]
  | cons event rest ih =>
      have other : event.isIssue request = false := by
        cases event with
        | issued issue =>
            rw [Event.isIssue, beq_eq_false_iff_ne]
            rintro rfl
            exact once List.mem_cons_self
        | _ => rfl
      rw [List.cons_append, List.takeWhile_cons, other]
      simp only [Bool.not_false, ↓reduceIte, List.cons.injEq, true_and]
      exact ih fun member => once (List.mem_cons_of_mem _ member)

/-! ## Entries -/

/-- A request has been issued for the entry and is still awaited; unless the entry
is marked stale, no invalidation followed, or a change did. -/
def Awaiting (request : RequestId) (stale : Bool) (journal : List (Event Data)) : Prop :=
  ∃ later earlier, journal = later ++ .issued request :: earlier ∧ .issued request ∉ later ∧
    (stale = false → .invalidated ∉ later ∨ ∃ event ∈ later, event.isChange = true)

/-- The invariant of an entry. -/
structure Entry.Sound (entry : Entry Scope Data Error) : Prop where
  settled : entry.inFlight = none → entry.state.error.isSome = true ∨ entry.stale = true ∨
    entry.state.data = none ∨ Current entry.state.data entry.journal
  awaiting : ∀ request, entry.inFlight = some request →
    Awaiting request entry.stale entry.journal

/-- The invariant of an entry with a listener. -/
def Entry.Attended (entry : Entry Scope Data Error) : Prop :=
  0 < entry.listeners → entry.inFlight = none →
    entry.state.error.isSome = true ∨ entry.stale = false ∧ entry.state.data.isSome = true

/-- A sound entry that is attended and listened to is served once it rests. -/
theorem Entry.Sound.served {entry : Entry Scope Data Error} (sound : entry.Sound)
    (attended : entry.Attended) (listened : 0 < entry.listeners)
    (rests : entry.inFlight = none) : entry.Served := by
  rcases attended listened rests with failed | ⟨fresh, loaded⟩
  · exact .inl failed
  · rcases sound.settled rests with failed | stale | absent | current
    · exact .inl failed
    · rw [fresh] at stale
      cases stale
    · rw [absent] at loaded
      cases loaded
    · exact .inr ⟨loaded, current⟩

/-- An event that is no issue and, unless it marks the entry stale, no
invalidation leaves a request awaited. -/
theorem Awaiting.cons {request : RequestId} {stale marked : Bool} {journal : List (Event Data)}
    (awaiting : Awaiting request stale journal) {event : Event Data}
    (notIssue : ∀ other, event ≠ .issued other)
    (marks : marked = false → event.isChange = true ∨ stale = false ∧ event ≠ .invalidated) :
    Awaiting request marked (event :: journal) := by
  obtain ⟨later, earlier, rfl, once, fresh⟩ := awaiting
  refine ⟨event :: later, earlier, rfl, ?_, ?_⟩
  · intro member
    rcases List.mem_cons.mp member with same | before
    · exact notIssue request same.symm
    · exact once before
  · intro unmarked
    rcases marks unmarked with change | ⟨unstale, kept⟩
    · exact .inr ⟨event, List.mem_cons_self, change⟩
    · rcases fresh unstale with uninvalidated | ⟨changed, member, isChange⟩
      · refine .inl fun invalidated => ?_
        rcases List.mem_cons.mp invalidated with same | before
        · exact kept same.symm
        · exact uninvalidated before
      · exact .inr ⟨changed, List.mem_cons_of_mem _ member, isChange⟩

namespace Entry

/-- A new entry is sound. -/
theorem sound_create (scope : Scope) : (create scope : Entry Scope Data Error).Sound where
  settled := fun _ => .inr (.inr (.inl rfl))
  awaiting := by
    intro request issued
    cases issued

/-- A new entry is attended. -/
theorem attended_create (scope : Scope) : (create scope : Entry Scope Data Error).Attended := by
  intro listened
  cases listened

/-- An entry that begins a fetch is sound. -/
theorem Sound.beginFetch {entry : Entry Scope Data Error} (request : RequestId)
    (background : Option Bool) : (entry.beginFetch request background).Sound where
  settled := by
    intro rests
    cases rests
  awaiting := by
    intro issued same
    cases same
    exact ⟨[], entry.journal, rfl, List.not_mem_nil, fun _ => .inl List.not_mem_nil⟩

/-- An entry that begins a fetch is attended. -/
theorem attended_beginFetch (entry : Entry Scope Data Error) (request : RequestId)
    (background : Option Bool) : (entry.beginFetch request background).Attended := by
  intro _ rests
  cases rests

/-- An entry that is stale is sound. -/
theorem Sound.markStale {entry : Entry Scope Data Error} (sound : entry.Sound) :
    entry.markStale.Sound where
  settled := fun _ => .inr (.inl rfl)
  awaiting := by
    intro request issued
    refine (sound.awaiting request issued).cons ?_ ?_
    · intro other same
      cases same
    · intro unmarked
      cases unmarked

/-- A patch that the entry awaits keeps it sound. -/
theorem Sound.patch {entry : Entry Scope Data Error} (sound : entry.Sound)
    {predicate : Scope → Bool} {updater : Updater Scope Data Error}
    (within : predicate entry.scope = true) (awaits : entry.AwaitsPatch predicate updater) :
    (entry.patch updater).Sound where
  settled := by
    intro rests
    have data := updater.update_data entry.state entry.scope
    rcases sound.settled rests with failed | stale | absent | current
    · exact .inl (updater.keeps_error _ _ failed)
    · exact .inr (.inl stale)
    · by_cases failed : entry.state.error.isSome = true
      · exact .inl (updater.keeps_error _ _ failed)
      · by_cases stale : entry.stale = true
        · exact .inr (.inl stale)
        · refine .inr (.inr (.inl ?_))
          change (updater.update entry.state entry.scope).data = none
          rw [data, absent]
          exact Option.isNone_iff_eq_none.mp (awaits within rests (by simpa using stale)
            (by simpa using failed) (by rw [absent]; rfl))
    · refine .inr (.inr (.inr ?_))
      change Current (updater.update entry.state entry.scope).data _
      rw [data]
      refine current.cons ?_
      intro same
      cases same
  awaiting := by
    intro request issued
    refine (sound.awaiting request issued).cons ?_ fun _ => .inl rfl
    intro other same
    cases same

/-- Every patch keeps an entry attended. -/
theorem Attended.patch {entry : Entry Scope Data Error} (attended : entry.Attended)
    (updater : Updater Scope Data Error) : (entry.patch updater).Attended := by
  intro listened rests
  rcases attended listened rests with failed | ⟨fresh, loaded⟩
  · exact .inl (updater.keeps_error _ _ failed)
  · rcases updater.empties_with_error entry.state entry.scope loaded with kept | failed
    · exact .inr ⟨fresh, kept⟩
    · exact .inl failed

/-- Seeding makes an entry sound. -/
theorem Sound.seed {entry : Entry Scope Data Error} (sound : entry.Sound) (full : Data) :
    (entry.seed full).Sound where
  settled := fun _ => .inr (.inr (.inr (current_seeded full entry.journal)))
  awaiting := by
    intro request issued
    refine (sound.awaiting request issued).cons ?_ fun _ => .inl rfl
    intro other same
    cases same

/-- Seeding makes an entry attended. -/
theorem attended_seed (entry : Entry Scope Data Error) (full : Data) :
    (entry.seed full).Attended :=
  fun _ _ => .inr ⟨rfl, rfl⟩

/-- A response that overwrites nothing makes the entry current. -/
theorem Sound.succeed {entry : Entry Scope Data Error} (sound : entry.Sound)
    {request : RequestId} (awaits : entry.AwaitsResponse request) (response : Data) :
    (entry.succeed request response).Sound := by
  unfold Entry.succeed
  split
  next issued =>
    refine ⟨fun _ => ?_, fun other absurd => by cases absurd⟩
    by_cases stale : entry.stale = true
    · exact .inr (.inl stale)
    · obtain ⟨later, earlier, shape, once, fresh⟩ := sound.awaiting request issued
      have unchanged : ∀ event ∈ later, event.isChange = false := by
        have since := (awaits issued).1
        rw [changedSince, shape, takeWhile_issue once, List.any_eq_false] at since
        intro event member
        simpa using since event member
      have uninvalidated : .invalidated ∉ later := by
        rcases fresh (by simpa using stale) with kept | ⟨event, member, change⟩
        · exact kept
        · rw [unchanged event member] at change
          cases change
      refine .inr (.inr (.inr ⟨.answered request response :: later, earlier, ?_, .inl ?_⟩))
      · intro member
        rcases List.mem_cons.mp member with same | before
        · cases same
        · exact uninvalidated before
      · refine ⟨request, response, ?_, List.mem_cons_self, ?_⟩
        · rw [List.cons_append, ← shape]
        · exact (replay_of_unchanged (some response) unchanged).symm
  next => exact sound

/-- A response that is awaited leaves an entry attended. -/
theorem Attended.succeed {entry : Entry Scope Data Error} (attended : entry.Attended)
    {request : RequestId} (awaits : entry.AwaitsResponse request) (response : Data) :
    (entry.succeed request response).Attended := by
  unfold Entry.succeed
  split
  next issued => exact fun listened _ => .inr ⟨(awaits issued).2 listened, rfl⟩
  next => exact attended

/-- An error keeps an entry sound. -/
theorem Sound.fail {entry : Entry Scope Data Error} (sound : entry.Sound)
    (request : RequestId) (error : Error) : (entry.fail request error).Sound := by
  unfold Entry.fail
  split
  · exact ⟨fun _ => .inl rfl, fun other absurd => by cases absurd⟩
  · exact sound

/-- An error keeps an entry attended. -/
theorem Attended.fail {entry : Entry Scope Data Error} (attended : entry.Attended)
    (request : RequestId) (error : Error) : (entry.fail request error).Attended := by
  unfold Entry.fail
  split
  · exact fun _ _ => .inl rfl
  · exact attended

end Entry

/-! ## Caches -/

/-- Every entry of the cache has a property that may depend on its key. -/
def Everywhere (property : Key → Entry Scope Data Error → Prop)
    (cache : Cache Scope Key Data Error) : Prop :=
  ∀ key entry, cache.entries.get key = some entry → property key entry

/-- The invariant of a cache, but for the attention owed to the exempt keys. -/
def GoodBut (options : Options Scope Key Error) (exempt : Key → Prop)
    (cache : Cache Scope Key Data Error) : Prop :=
  Everywhere (fun key entry => options.getKey entry.scope = key ∧ entry.Sound ∧
    (¬ exempt key → entry.Attended)) cache

/-- The invariant of a cache. -/
def Good (options : Options Scope Key Error) (cache : Cache Scope Key Data Error) : Prop :=
  GoodBut options (fun _ => False) cache

/-- A good cache is good whatever is exempt. -/
theorem Good.but {options : Options Scope Key Error} {cache : Cache Scope Key Data Error}
    (good : Good options cache) (exempt : Key → Prop) : GoodBut options exempt cache := by
  intro key entry present
  obtain ⟨keyed, sound, attended⟩ := good key entry present
  exact ⟨keyed, sound, fun _ => attended id⟩

variable [DecidableEq Key]

/-- What is left after an eviction was there before. -/
theorem get_of_evictColdEntries {limit : Nat}
    {entries : InsertionMap Key (Entry Scope Data Error)} {key : Key}
    {entry : Entry Scope Data Error}
    (present : (Cache.evictColdEntries limit entries).get key = some entry) :
    entries.get key = some entry := by
  rw [Cache.evictColdEntries_eq] at present
  exact InsertionMap.get_of_evict present

/-- Ensuring an entry changes the scope of an entry at most, and adds an empty
one. -/
theorem Everywhere.ensureEntry {property : Key → Entry Scope Data Error → Prop}
    {cache : Cache Scope Key Data Error} (all : Everywhere property cache)
    (options : Options Scope Key Error) (scope : Scope)
    (rescoped : ∀ entry, property (options.getKey scope) entry →
      property (options.getKey scope) { entry with scope := scope })
    (created : property (options.getKey scope) (.create scope)) :
    Everywhere property (cache.ensureEntry options scope) := by
  intro key entry present
  unfold Cache.ensureEntry at present
  split at present
  next existing found =>
    rcases InsertionMap.get_of_insert present with ⟨rfl, rfl⟩ | ⟨-, kept⟩
    · exact rescoped existing (all _ existing found)
    · exact all key entry kept
  next =>
    rcases InsertionMap.get_of_insert (get_of_evictColdEntries present) with ⟨rfl, rfl⟩ | ⟨-, kept⟩
    · exact created
    · exact all key entry kept

variable {options : Options Scope Key Error} {cache : Cache Scope Key Data Error}

/-- What is under a key once an entry was changed. -/
theorem get_of_modify {key other : Key}
    {change : Entry Scope Data Error → Entry Scope Data Error} {entry : Entry Scope Data Error}
    (present : (cache.modify key change).entries.get other = some entry) :
    (∃ before, cache.entries.get key = some before ∧ other = key ∧ entry = change before) ∨
      other ≠ key ∧ cache.entries.get other = some entry := by
  unfold Cache.modify at present
  split at present
  next absent =>
    refine .inr ⟨?_, present⟩
    rintro rfl
    rw [absent] at present
    cases present
  next before found =>
    rcases InsertionMap.get_of_insert present with ⟨rfl, rfl⟩ | kept
    · exact .inl ⟨before, found, rfl, rfl⟩
    · exact .inr kept

/-- What is under a key after a fetch: the entry of the scope waits for a request, which it
did before or begins to. -/
theorem get_of_fetch {scope : Scope} {background : Option Bool} {key : Key}
    {entry : Entry Scope Data Error}
    (present : (cache.fetch options scope background).entries.get key = some entry) :
    (cache.ensureEntry options scope).entries.get key = some entry ∧
        (key ≠ options.getKey scope ∨ entry.inFlight.isSome = true) ∨
      ∃ before request, (cache.ensureEntry options scope).entries.get key = some before ∧
        entry = before.beginFetch request background := by
  unfold Cache.fetch at present
  dsimp only at present
  split at present
  next absent =>
    rw [InsertionMap.touch_get] at absent present
    refine .inl ⟨present, .inl ?_⟩
    rintro rfl
    rw [absent] at present
    cases present
  next existing found =>
    rw [InsertionMap.touch_get] at found
    split at present
    next joined =>
      rw [InsertionMap.touch_get] at present
      refine .inl ⟨present, ?_⟩
      by_cases same : key = options.getKey scope
      · subst same
        rw [found] at present
        cases present
        exact .inr joined
      · exact .inl same
    next =>
      rcases InsertionMap.get_of_insert present with ⟨rfl, rfl⟩ | ⟨differs, kept⟩
      · exact .inr ⟨existing, _, found, rfl⟩
      · rw [InsertionMap.touch_get] at kept
        exact .inl ⟨kept, .inl differs⟩

/-- Making an entry keeps the cache good but for what is exempt. -/
theorem GoodBut.ensureEntry {exempt : Key → Prop} (good : GoodBut options exempt cache)
    (scope : Scope) : GoodBut options exempt (cache.ensureEntry options scope) := by
  refine Everywhere.ensureEntry good options scope ?_ ?_
  · rintro entry ⟨-, sound, attended⟩
    exact ⟨rfl, ⟨sound.settled, sound.awaiting⟩, attended⟩
  · exact ⟨rfl, Entry.sound_create scope, fun _ => Entry.attended_create scope⟩

/-- Changing one entry may put its key among the exempt ones. -/
theorem GoodBut.modify {exempt exempt' : Key → Prop} (good : GoodBut options exempt cache)
    (key : Key) (change : Entry Scope Data Error → Entry Scope Data Error)
    (others : ∀ other, other ≠ key → exempt other → exempt' other)
    (changed : ∀ entry, cache.entries.get key = some entry → entry.Sound →
      (change entry).scope = entry.scope ∧ (change entry).Sound ∧
        (¬ exempt' key → (change entry).Attended)) :
    GoodBut options exempt' (cache.modify key change) := by
  intro other entry present
  rcases get_of_modify present with ⟨existing, found, rfl, rfl⟩ | ⟨differs, kept⟩
  · obtain ⟨keyed, sound, -⟩ := good _ existing found
    obtain ⟨sameScope, sound', attended'⟩ := changed existing found sound
    exact ⟨by rw [sameScope, keyed], sound', attended'⟩
  · obtain ⟨keyed, sound, attended⟩ := good other entry kept
    exact ⟨keyed, sound, fun spared => attended fun gone => spared (others other differs gone)⟩

/-- **A fetch attends to its entry**: it leaves the entry waiting for a request. -/
theorem GoodBut.fetch {scope : Scope}
    (good : GoodBut options (fun key => key = options.getKey scope) cache)
    (background : Option Bool) : Good options (cache.fetch options scope background) := by
  have ensured := good.ensureEntry scope
  intro key entry present
  rcases get_of_fetch present with ⟨kept, differs | joined⟩ | ⟨before, request, found, rfl⟩
  · obtain ⟨keyed, sound, attended⟩ := ensured key entry kept
    exact ⟨keyed, sound, fun _ => attended differs⟩
  · obtain ⟨keyed, sound, -⟩ := ensured key entry kept
    refine ⟨keyed, sound, fun _ _ rests => ?_⟩
    rw [rests] at joined
    cases joined
  · obtain ⟨keyed, -, -⟩ := ensured key before found
    exact ⟨keyed, .beginFetch _ _, fun _ => Entry.attended_beginFetch _ _ _⟩

/-- A fetch of what is stale keeps the cache good. -/
theorem Good.fetchIfStale (good : Good options cache) (scope : Scope) :
    Good options (cache.fetchIfStale options scope) := by
  have ensured : Good options (cache.ensureEntry options scope) := good.ensureEntry scope
  unfold Cache.fetchIfStale
  dsimp only
  split
  · split
    · exact ensured
    · exact (ensured.but _).fetch none
  · exact (ensured.but _).fetch none

/-- One invalidation marks its entry and, where the entry has readers, attends to
it. -/
theorem Good.invalidate (good : Good options cache) (predicate : Scope → Bool)
    (activeOnly : Bool) (background : Option Bool) (key : Key) :
    Good options (cache.invalidate options predicate activeOnly background key) := by
  unfold Cache.invalidate
  split
  next => exact good
  next entry found =>
    split
    · exact good
    · dsimp only
      split
      next unread =>
        refine GoodBut.modify good key _ (fun _ _ none => none) ?_
        intro other present sound
        refine ⟨rfl, sound.markStale, fun _ listened => ?_⟩
        rw [found] at present
        cases present
        simp only [Bool.and_eq_true, beq_iff_eq] at unread
        change 0 < entry.listeners at listened
        omega
      next =>
        obtain ⟨keyed, -, -⟩ := good key entry found
        refine GoodBut.fetch ?_ _
        refine GoodBut.modify good key _ (fun _ _ none => none.elim) ?_
        intro other _ sound
        exact ⟨rfl, sound.markStale, fun kept => absurd keyed.symm kept⟩

theorem Good.invalidateWhere (good : Good options cache) (predicate : Scope → Bool)
    (activeOnly : Bool) (background : Option Bool) :
    Good options (cache.invalidateWhere options predicate activeOnly background) := by
  unfold Cache.invalidateWhere
  generalize cache.entries.keys = keys
  induction keys generalizing cache with
  | nil => exact good
  | cons key rest ih => exact ih (good.invalidate predicate activeOnly background key)

/-- What is seeded was answered when the log was as it is. -/
theorem Good.seed (good : Good options cache) (scope : Scope) (data : Data) :
    Good options (cache.seed options scope data) := by
  have ensured : Good options (cache.ensureEntry options scope) := good.ensureEntry scope
  refine GoodBut.modify ensured _ _ (fun _ _ none => none) ?_
  intro entry _ sound
  exact ⟨rfl, sound.seed data, fun _ => entry.attended_seed data⟩

/-- A mounting component finds its entry loaded, or fetches it. -/
theorem Good.mount (good : Good options cache) (scope : Scope) :
    Good options (cache.mount options scope) := by
  have ensured : Good options (cache.ensureEntry options scope) := good.ensureEntry scope
  have subscribed : GoodBut options (fun key => key = options.getKey scope)
      ((cache.ensureEntry options scope).modify (options.getKey scope) fun entry =>
        { entry with listeners := entry.listeners + 1 }) := by
    refine GoodBut.modify ensured _ _ (fun _ _ none => none.elim) ?_
    intro entry _ sound
    exact ⟨rfl, ⟨sound.settled, sound.awaiting⟩, fun kept => absurd rfl kept⟩
  unfold Cache.mount
  dsimp only
  split
  next entry found =>
    split
    next => exact subscribed.fetch _
    next loaded =>
      simp only [Bool.or_eq_true, not_or, Bool.not_eq_true] at loaded
      intro key other present
      obtain ⟨keyed, sound, attended⟩ := subscribed key other present
      refine ⟨keyed, sound, fun _ => ?_⟩
      by_cases same : key = options.getKey scope
      · subst same
        rw [found] at present
        cases present
        exact fun _ _ => .inr ⟨loaded.2, by simpa using loaded.1⟩
      · exact attended same
  next => exact subscribed.fetch _

/-- A reader that leaves may leave its entry without one. -/
theorem Good.unmount (good : Good options cache) (key : Key) :
    Good options (cache.unmount key) := by
  refine GoodBut.modify good key _ (fun _ _ none => none) ?_
  intro entry present sound
  refine ⟨rfl, ⟨sound.settled, sound.awaiting⟩, fun _ listened => ?_⟩
  obtain ⟨-, -, attended⟩ := good key entry present
  exact attended id (by
    change 0 < entry.listeners - 1 at listened
    omega)

omit [DecidableEq Key] in
/-- A change of every entry that keeps each one sound and attended. -/
theorem Good.mapValues (good : Good options cache)
    (change : Entry Scope Data Error → Entry Scope Data Error)
    (changed : ∀ entry ∈ cache.entries.values, entry.Sound → entry.Attended →
      (change entry).scope = entry.scope ∧ (change entry).Sound ∧ (change entry).Attended) :
    Good options { cache with entries := cache.entries.mapValues change } := by
  intro key entry present
  rw [InsertionMap.mapValues_get, Option.map_eq_some_iff] at present
  obtain ⟨before, found, rfl⟩ := present
  obtain ⟨keyed, sound, attended⟩ := good key before found
  obtain ⟨sameScope, sound', attended'⟩ :=
    changed before (InsertionMap.mem_values.mpr ⟨key, found⟩) sound (attended id)
  exact ⟨by rw [sameScope, keyed], sound', fun _ => attended'⟩

/-- Every step that loses nothing keeps the invariant. -/
theorem Good.step (good : Good options cache) (action : Action Scope Key Data Error)
    (keeps : LosesNothing cache action) : Good options (step options cache action) := by
  cases action with
  | mount scope => exact good.mount scope
  | unmount key => exact good.unmount key
  | getState scope => exact GoodBut.ensureEntry good scope
  | fetch scope background => exact (good.but _).fetch background
  | fetchIfStale scope => exact good.fetchIfStale scope
  | invalidateWhere predicate activeOnly background =>
      exact good.invalidateWhere predicate activeOnly background
  | updateWhere predicate updater =>
      refine good.mapValues _ ?_
      intro entry member sound attended
      split
      next within =>
        exact ⟨rfl, sound.patch within (keeps entry member), attended.patch updater⟩
      next => exact ⟨rfl, sound, attended⟩
  | seed scope data => exact good.seed scope data
  | succeed request response =>
      refine good.mapValues _ ?_
      intro entry member sound attended
      refine ⟨?_, sound.succeed (keeps entry member) response,
        attended.succeed (keeps entry member) response⟩
      unfold Entry.succeed
      split <;> rfl
  | fail request rejection =>
      refine good.mapValues _ ?_
      intro entry _ sound attended
      refine ⟨?_, sound.fail request _, attended.fail request _⟩
      unfold Entry.fail
      split <;> rfl

omit [DecidableEq Key] in
/-- A good cache is coherent. -/
theorem Good.coherent (good : Good options cache) : Coherent cache := by
  intro rests entry member listened
  obtain ⟨key, present⟩ := InsertionMap.mem_values.mp member
  obtain ⟨-, sound, attended⟩ := good key entry present
  exact sound.served (attended id) listened (rests entry member)

/-- **In every run that loses nothing** the cache is good. -/
theorem good_of_reachedWithin (reached : (system options).ReachedWithin LosesNothing cache) :
    Good options cache := by
  refine reached.invariant ?_ ?_
  · rintro start rfl key entry present
    cases present
  · intro before action after good keeps moved
    cases moved
    exact good.step action keeps

/-- **The cache loses no invalidation and no patch** in every run whose steps lose
nothing. -/
theorem coherent_of_losesNothing (options : Options Scope Key Error)
    {cache : Cache Scope Key Data Error}
    (reached : (system options).ReachedWithin LosesNothing cache) : Coherent cache :=
  (good_of_reachedWithin reached).coherent

/-! ## Runs -/

def Event.isInvalidation : Event Data → Bool
  | .invalidated => true
  | _ => false

def Event.isSource : Event Data → Bool
  | .issued _ | .seeded _ => true
  | _ => false

/-- Current data has a source after the last invalidation. -/
theorem Current.source {data : Option Data} {journal : List (Event Data)}
    (current : Current data journal) :
    (journal.takeWhile fun event => !event.isInvalidation).any Event.isSource = true := by
  obtain ⟨later, earlier, uninvalidated, source⟩ := current
  have valid : ∀ event ∈ later, (!event.isInvalidation) = true := by
    intro event member
    cases event with
    | invalidated => exact absurd member uninvalidated
    | _ => rfl
  rcases source with ⟨request, response, rfl, -, -⟩ | ⟨full, rfl, -⟩
  all_goals
    rw [List.takeWhile_append_of_pos valid]
    simp [Event.isInvalidation, Event.isSource]

/-- Number lists cached by number, with text errors. -/
def numbered : Options Nat Nat String := ⟨id, "Failed to load data.", 32⟩

/-- A reader at rest whose entry has no source after its last invalidation. -/
def outdated (cache : Cache Nat Nat (List Nat) String) : Bool :=
  cache.entries.values.all (·.inFlight.isNone) &&
    cache.entries.values.any fun entry =>
      0 < entry.listeners && entry.state.error.isNone &&
        !(entry.journal.takeWhile fun event => !event.isInvalidation).any Event.isSource

/-- An outdated cache is not coherent. -/
theorem not_coherent_of_outdated {cache : Cache Nat Nat (List Nat) String}
    (bad : outdated cache = true) : ¬ Coherent cache := by
  intro coherent
  simp only [outdated, Bool.and_eq_true, List.all_eq_true, List.any_eq_true,
    Option.isNone_iff_eq_none, decide_eq_true_eq, Bool.not_eq_true'] at bad
  obtain ⟨rests, entry, member, ⟨listened, unfailed⟩, sourceless⟩ := bad
  rcases coherent rests entry member listened with failed | ⟨-, current⟩
  · rw [unfailed] at failed
    cases failed
  · rw [current.source] at sourceless
    cases sourceless

/-- An invalidation that finds a request in flight joins it, and its reader is left
with data requested before the invalidation. -/
theorem invalidation_joins_request :
    ¬ ∀ (options : Options Nat Nat String) (cache : Cache Nat Nat (List Nat) String),
      (system options).Reachable cache → Coherent cache := by
  intro coherent
  have begins : (system numbered).Initial (Cache.empty : Cache Nat Nat (List Nat) String) := rfl
  obtain ⟨cache, reached, bad⟩ := TransitionSystem.exists_reachable_of_run begins
    [.mount 0, .invalidateWhere (fun _ => true) true none, .succeed 0 [1]] outdated (by decide)
  exact not_coherent_of_outdated bad (coherent numbered cache reached)

/-- Adds a number to the lists that are loaded. -/
def appendNumber (number : Nat) : Updater Nat (List Nat) String where
  update := fun state _ => { state with data := state.data.map (· ++ [number]) }
  onData := fun _ data => data.map (· ++ [number])
  update_data := fun _ _ => rfl
  keeps_error := fun _ _ failed => failed
  empties_with_error := fun state _ loaded => .inl (by simpa using loaded)

/-- A reader whose entry was invalidated after one response and patched after the
next is served. -/
theorem coherent_after_refetch :
    ∃ cache : Cache Nat Nat (List Nat) String,
      cache.entries.values.map (fun entry => (entry.listeners, entry.state.data)) =
        [(1, some [1, 2, 3])] ∧ Coherent cache := by
  have begins : (system numbered).Initial (Cache.empty : Cache Nat Nat (List Nat) String) := rfl
  obtain ⟨cache, reached, shape⟩ := TransitionSystem.exists_reachedWithin_of_run LosesNothing
    begins [.mount 0, .succeed 0 [1], .invalidateWhere (fun _ => true) true none,
      .succeed 1 [1, 2], .updateWhere (fun _ => true) (appendNumber 3)]
    (fun cache => decide (cache.entries.values.map
      (fun entry => (entry.listeners, entry.state.data)) = [(1, some [1, 2, 3])])) (by decide)
  exact ⟨cache, of_decide_eq_true shape, coherent_of_losesNothing numbered reached⟩

end FrontDashboard.Query
