import FrontDashboard.Library.Eviction
import FrontDashboard.Library.TransitionSystem

/-! # The keyed query cache

`createScopedQuery`: a cache of one entry per scope, filled by a fetcher,
invalidated and patched by predicate, and read by mounted components. The
fetcher's promise is a request that is issued in one step and settled in a later
one, so that everything else the page does falls between the two.

An entry carries a `journal` of what has happened to it, newest first. It
influences nothing.
-/

namespace FrontDashboard.Query

variable {Scope Key Data Error : Type}

/-- `ScopedQueryState`. -/
structure QueryState (Data Error : Type) where
  data : Option Data
  loading : Bool
  error : Option Error

abbrev RequestId := Nat

/-- What can happen to an entry: a request goes out or settles, the entry is
invalidated, its data is patched, or it is seeded with full data. -/
inductive Event (Data : Type)
  | issued (request : RequestId)
  | answered (request : RequestId) (response : Data)
  | failed (request : RequestId)
  | invalidated
  | patched (change : Option Data → Option Data)
  | seeded (data : Data)

/-- `ScopedQueryEntry`, with the number of its listeners. -/
structure Entry (Scope Data Error : Type) where
  scope : Scope
  state : QueryState Data Error
  listeners : Nat
  inFlight : Option RequestId
  stale : Bool
  journal : List (Event Data)

/-- The options of `createScopedQuery`. -/
structure Options (Scope Key Error : Type) where
  getKey : Scope → Key
  fallbackError : Error
  maxCachedScopes : Nat

/-- The entries in recency order, and the next request to issue. -/
structure Cache (Scope Key Data Error : Type) where
  entries : InsertionMap Key (Entry Scope Data Error)
  nextRequest : RequestId

/-- An updater of `updateWhere`. It computes data from data, never drops an error,
and takes an entry's last data away only by putting an error in its place. -/
structure Updater (Scope Data Error : Type) where
  update : QueryState Data Error → Scope → QueryState Data Error
  onData : Scope → Option Data → Option Data
  update_data : ∀ state scope, (update state scope).data = onData scope state.data
  keeps_error : ∀ state scope, state.error.isSome = true →
    (update state scope).error.isSome = true
  empties_with_error : ∀ state scope, state.data.isSome = true →
    (update state scope).data.isSome = true ∨ (update state scope).error.isSome = true

def emptyState : QueryState Data Error := ⟨none, false, none⟩

/-- `toError`: a rejection that is no `Error` becomes the fallback. -/
def toError (options : Options Scope Key Error) (rejection : Option Error) : Error :=
  rejection.getD options.fallbackError

namespace Entry

def create (scope : Scope) : Entry Scope Data Error :=
  { scope := scope, state := emptyState, listeners := 0, inFlight := none, stale := false,
    journal := [] }

/-- Entries `evictColdEntries` skips. -/
def pinned (entry : Entry Scope Data Error) : Bool :=
  0 < entry.listeners || entry.inFlight.isSome

/-- The part of `fetch` that issues a request. -/
def beginFetch (request : RequestId) (background? : Option Bool)
    (entry : Entry Scope Data Error) : Entry Scope Data Error :=
  let hasData := entry.state.data.isSome
  let background := background?.getD hasData
  let state :=
    if !background || !hasData then ⟨entry.state.data, true, none⟩
    else if entry.state.error.isSome then ⟨entry.state.data, false, none⟩
    else entry.state
  { entry with
    state := state, stale := false, inFlight := some request
    journal := .issued request :: entry.journal }

def markStale (entry : Entry Scope Data Error) : Entry Scope Data Error :=
  { entry with stale := true, journal := .invalidated :: entry.journal }

def patch (updater : Updater Scope Data Error) (entry : Entry Scope Data Error) :
    Entry Scope Data Error :=
  { entry with
    state := updater.update entry.state entry.scope
    journal := .patched (updater.onData entry.scope) :: entry.journal }

def seed (data : Data) (entry : Entry Scope Data Error) : Entry Scope Data Error :=
  { entry with
    stale := false, state := ⟨some data, false, none⟩, journal := .seeded data :: entry.journal }

/-- The fulfilled branch of a request, for the entry that waits for it. -/
def succeed (request : RequestId) (response : Data) (entry : Entry Scope Data Error) :
    Entry Scope Data Error :=
  if entry.inFlight = some request then
    { entry with
      state := ⟨some response, false, none⟩, inFlight := none
      journal := .answered request response :: entry.journal }
  else entry

/-- The rejected branch of a request. -/
def fail (request : RequestId) (error : Error) (entry : Entry Scope Data Error) :
    Entry Scope Data Error :=
  if entry.inFlight = some request then
    { entry with
      state := ⟨entry.state.data, false, some error⟩, inFlight := none
      journal := .failed request :: entry.journal }
  else entry

end Entry

namespace Cache

variable [DecidableEq Key]

def empty : Cache Scope Key Data Error := ⟨.empty, 0⟩

/-- One step of the eviction loop: the coldest unpinned entries go while the cache
is over its cap. -/
def evictCold (limit : Nat) (entries : InsertionMap Key (Entry Scope Data Error)) (key : Key) :
    InsertionMap Key (Entry Scope Data Error) :=
  if entries.size ≤ limit then entries
  else
    match entries.get key with
    | some entry => if entry.pinned then entries else entries.delete key
    | none => entries

/-- `evictColdEntries`. -/
def evictColdEntries (limit : Nat) (entries : InsertionMap Key (Entry Scope Data Error)) :
    InsertionMap Key (Entry Scope Data Error) :=
  entries.keys.foldl (evictCold limit) entries

theorem evictCold_eq (limit : Nat) (entries : InsertionMap Key (Entry Scope Data Error))
    (key : Key) : evictCold limit entries key = entries.evictOne limit Entry.pinned key := by
  unfold evictCold InsertionMap.evictOne
  split_ifs
  · rfl
  · cases entries.get key <;> rfl

theorem evictColdEntries_eq (limit : Nat)
    (entries : InsertionMap Key (Entry Scope Data Error)) :
    evictColdEntries limit entries = entries.evict limit Entry.pinned := by
  exact congrArg (fun step => entries.keys.foldl step entries) (funext₂ (evictCold_eq limit))

/-- `ensureEntry`. When every other entry is pinned the new one is evicted at once,
and what its caller does to it concerns no entry of the cache. -/
def ensureEntry (options : Options Scope Key Error) (scope : Scope)
    (cache : Cache Scope Key Data Error) : Cache Scope Key Data Error :=
  match cache.entries.get (options.getKey scope) with
  | some entry =>
      let existing : Entry Scope Data Error := { entry with scope := scope }
      { cache with entries := cache.entries.insert (options.getKey scope) existing }
  | none =>
      let grown := cache.entries.insert (options.getKey scope) (.create scope)
      { cache with entries := evictColdEntries options.maxCachedScopes grown }

/-- A change of the entry under a key, if there is one. -/
def modify (key : Key) (change : Entry Scope Data Error → Entry Scope Data Error)
    (cache : Cache Scope Key Data Error) : Cache Scope Key Data Error :=
  match cache.entries.get key with
  | none => cache
  | some entry => { cache with entries := cache.entries.insert key (change entry) }

/-- `fetch`. -/
def fetch (options : Options Scope Key Error) (scope : Scope) (background : Option Bool)
    (cache : Cache Scope Key Data Error) : Cache Scope Key Data Error :=
  let key := options.getKey scope
  let ensured := cache.ensureEntry options scope
  let touched : Cache Scope Key Data Error := { ensured with entries := ensured.entries.touch key }
  match touched.entries.get key with
  | none => { touched with nextRequest := touched.nextRequest + 1 }
  | some entry =>
      if entry.inFlight.isSome then touched
      else
        { entries := touched.entries.insert key (entry.beginFetch touched.nextRequest background)
          nextRequest := touched.nextRequest + 1 }

/-- `fetchIfStale`. -/
def fetchIfStale (options : Options Scope Key Error) (scope : Scope)
    (cache : Cache Scope Key Data Error) : Cache Scope Key Data Error :=
  let ensured := cache.ensureEntry options scope
  match ensured.entries.get (options.getKey scope) with
  | some entry =>
      if entry.inFlight.isSome || (entry.state.data.isSome && !entry.stale) then ensured
      else ensured.fetch options scope none
  | none => ensured.fetch options scope none

/-- The body of the loop of `invalidateWhere`. -/
def invalidate (options : Options Scope Key Error) (predicate : Scope → Bool)
    (activeOnly : Bool) (background : Option Bool) (cache : Cache Scope Key Data Error)
    (key : Key) : Cache Scope Key Data Error :=
  match cache.entries.get key with
  | none => cache
  | some entry =>
      if !predicate entry.scope then cache
      else
        let marked := cache.modify key .markStale
        if activeOnly && entry.listeners == 0 then marked
        else marked.fetch options entry.scope (some (background.getD entry.state.data.isSome))

/-- `invalidateWhere`, over a snapshot of the keys. -/
def invalidateWhere (options : Options Scope Key Error) (predicate : Scope → Bool)
    (activeOnly : Bool) (background : Option Bool) (cache : Cache Scope Key Data Error) :
    Cache Scope Key Data Error :=
  cache.entries.keys.foldl (invalidate options predicate activeOnly background) cache

/-- `updateWhere`. -/
def updateWhere (predicate : Scope → Bool) (updater : Updater Scope Data Error)
    (cache : Cache Scope Key Data Error) : Cache Scope Key Data Error :=
  { cache with entries := cache.entries.mapValues fun entry =>
      if predicate entry.scope then entry.patch updater else entry }

def seed (options : Options Scope Key Error) (scope : Scope) (data : Data)
    (cache : Cache Scope Key Data Error) : Cache Scope Key Data Error :=
  (cache.ensureEntry options scope).modify (options.getKey scope) (.seed data)

/-- `useQuery` on mounting: the store subscription and the effect, which run in one
pass of effects. -/
def mount (options : Options Scope Key Error) (scope : Scope)
    (cache : Cache Scope Key Data Error) : Cache Scope Key Data Error :=
  let key := options.getKey scope
  let subscribed := (cache.ensureEntry options scope).modify key fun entry =>
    { entry with listeners := entry.listeners + 1 }
  match subscribed.entries.get key with
  | some entry =>
      if entry.state.data.isNone || entry.stale then
        subscribed.fetch options scope (some entry.state.data.isSome)
      else subscribed
  | none => subscribed.fetch options scope (some false)

/-- The subscription's cleanup. -/
def unmount (key : Key) (cache : Cache Scope Key Data Error) : Cache Scope Key Data Error :=
  cache.modify key fun entry => { entry with listeners := entry.listeners - 1 }

/-- A request settling. -/
def succeed (request : RequestId) (response : Data) (cache : Cache Scope Key Data Error) :
    Cache Scope Key Data Error :=
  { cache with entries := cache.entries.mapValues (.succeed request response) }

def fail (options : Options Scope Key Error) (request : RequestId) (rejection : Option Error)
    (cache : Cache Scope Key Data Error) : Cache Scope Key Data Error :=
  { cache with entries := cache.entries.mapValues (.fail request (toError options rejection)) }

end Cache

/-- What the page does to a cache. -/
inductive Action (Scope Key Data Error : Type)
  | mount (scope : Scope)
  | unmount (key : Key)
  | getState (scope : Scope)
  | fetch (scope : Scope) (background : Option Bool)
  | fetchIfStale (scope : Scope)
  | invalidateWhere (predicate : Scope → Bool) (activeOnly : Bool) (background : Option Bool)
  | updateWhere (predicate : Scope → Bool) (updater : Updater Scope Data Error)
  | seed (scope : Scope) (data : Data)
  | succeed (request : RequestId) (response : Data)
  | fail (request : RequestId) (rejection : Option Error)

variable [DecidableEq Key]

def step (options : Options Scope Key Error) (cache : Cache Scope Key Data Error) :
    Action Scope Key Data Error → Cache Scope Key Data Error
  | .mount scope => cache.mount options scope
  | .unmount key => cache.unmount key
  | .getState scope => cache.ensureEntry options scope
  | .fetch scope background => cache.fetch options scope background
  | .fetchIfStale scope => cache.fetchIfStale options scope
  | .invalidateWhere predicate activeOnly background =>
      cache.invalidateWhere options predicate activeOnly background
  | .updateWhere predicate updater => cache.updateWhere predicate updater
  | .seed scope data => cache.seed options scope data
  | .succeed request response => cache.succeed request response
  | .fail request rejection => cache.fail options request rejection

/-- One cache from its creation on. -/
def system (options : Options Scope Key Error) :
    TransitionSystem (Cache Scope Key Data Error) (Action Scope Key Data Error) where
  Initial := fun cache => cache = .empty
  step := fun cache action => some (step options cache action)

end FrontDashboard.Query
