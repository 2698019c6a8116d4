import FrontDashboard.Query.ScopedQuery
import Mathlib.Order.MinMax

/-! # Entries as objects

The map of a scoped query refers to entries, and so do the components and requests that
use them: an entry that is evicted goes on existing for those who hold it, but no one
else finds it. Here an entry is an object of its own. Each call of `ensureEntry` is
recorded with what it returned and what it made of the map.
-/

namespace FrontDashboard.Query.Eviction

variable {Scope Key : Type}

abbrev ObjectId := Nat
abbrev ListenerId := Nat

/-- `ScopedQueryEntry`, without the state that eviction does not look at. -/
structure ScopedQueryEntry (Scope Key : Type) where
  key : Key
  scope : Scope
  listeners : List ListenerId
  inFlight : Option RequestId

/-- Whether eviction skips the entry. -/
def ScopedQueryEntry.pinned (entry : ScopedQueryEntry Scope Key) : Bool :=
  !entry.listeners.isEmpty || entry.inFlight.isSome

abbrev Objects (Scope Key : Type) := ObjectId → Option (ScopedQueryEntry Scope Key)

/-- Whether an object is pinned. -/
def Objects.pinned (objects : Objects Scope Key) (object : ObjectId) : Bool :=
  (objects object).any ScopedQueryEntry.pinned

/-- A call of `ensureEntry`. -/
structure Call (Scope Key : Type) where
  key : Key
  before : InsertionMap Key ObjectId
  objects : Objects Scope Key
  returned : ObjectId
  after : InsertionMap Key ObjectId

/-- The call evicted no entry that is pinned, and if it created one left no more entries
than it may. -/
structure Call.Sparing (limit : Nat) (call : Call Scope Key) : Prop where
  spares : ∀ key object, call.before.get key = some object →
    call.objects.pinned object = true → call.after.get key = some object
  bounded : call.before.get call.key = none →
    call.after.size ≤ max limit (call.before.pinnedCount call.objects.pinned + 1)

/-- Besides, the entry it returned is in the map. -/
structure Call.Safe (limit : Nat) (call : Call Scope Key) : Prop extends
    Call.Sparing limit call where
  cached : call.after.get call.key = some call.returned

structure Queries (Scope Key : Type) where
  entries : InsertionMap Key ObjectId
  objects : Objects Scope Key
  nextObject : ObjectId
  nextRequest : RequestId
  calls : List (Call Scope Key)

namespace Queries

variable [DecidableEq Key]

def empty : Queries Scope Key := ⟨.empty, fun _ => none, 0, 0, []⟩

/-- A change of an object, whether it is in the map or not. -/
def modify (object : ObjectId)
    (change : ScopedQueryEntry Scope Key → ScopedQueryEntry Scope Key)
    (queries : Queries Scope Key) : Queries Scope Key :=
  { queries with
    objects := Function.update queries.objects object ((queries.objects object).map change) }

/-- The map after a new object is set in it. -/
def grown (limit : Nat) (key : Key) (queries : Queries Scope Key) : InsertionMap Key ObjectId :=
  (queries.entries.insert key queries.nextObject).evict limit queries.objects.pinned

/-- `ensureEntry`. A new object has no listener and no request, so it is not pinned. -/
def ensureEntry {Error : Type} (options : Options Scope Key Error) (scope : Scope)
    (queries : Queries Scope Key) : ObjectId × Queries Scope Key :=
  let key := options.getKey scope
  match queries.entries.get key with
  | some object =>
      let call : Call Scope Key :=
        ⟨key, queries.entries, queries.objects, object, queries.entries⟩
      (object, { queries.modify object (fun entry => { entry with scope := scope }) with
        calls := queries.calls ++ [call] })
  | none =>
      let object := queries.nextObject
      let entries := queries.grown options.maxCachedScopes key
      let call : Call Scope Key := ⟨key, queries.entries, queries.objects, object, entries⟩
      (object, { queries with
        entries := entries
        objects := Function.update queries.objects object (some ⟨key, scope, [], none⟩)
        nextObject := object + 1
        calls := queries.calls ++ [call] })

/-- `touch`. -/
def touch (object : ObjectId) (queries : Queries Scope Key) : Queries Scope Key :=
  match queries.objects object with
  | some entry =>
      if (queries.entries.get entry.key).isSome then
        { queries with entries := (queries.entries.delete entry.key).insert entry.key object }
      else queries
  | none => queries

/-- The subscription of `useQuery`. -/
def subscribe {Error : Type} (options : Options Scope Key Error) (scope : Scope)
    (listener : ListenerId) (queries : Queries Scope Key) : Queries Scope Key :=
  let (object, ensured) := queries.ensureEntry options scope
  ensured.modify object fun entry =>
    { entry with listeners := listener :: entry.listeners.erase listener }

/-- Its cleanup, of the entry it was made with. -/
def unsubscribe (object : ObjectId) (listener : ListenerId) (queries : Queries Scope Key) :
    Queries Scope Key :=
  queries.modify object fun entry => { entry with listeners := entry.listeners.erase listener }

/-- A request goes out for an object. -/
def issue (object : ObjectId) (queries : Queries Scope Key) : Queries Scope Key :=
  { queries.modify object (fun entry => { entry with inFlight := some queries.nextRequest }) with
    nextRequest := queries.nextRequest + 1 }

/-- `fetch`. -/
def fetch {Error : Type} (options : Options Scope Key Error) (scope : Scope)
    (queries : Queries Scope Key) : Queries Scope Key :=
  let (object, ensured) := queries.ensureEntry options scope
  let touched := ensured.touch object
  if (touched.objects object).any (fun entry => entry.inFlight.isSome) then touched
  else touched.issue object

/-- A request settles. -/
def settle (object : ObjectId) (request : RequestId) (queries : Queries Scope Key) :
    Queries Scope Key :=
  queries.modify object fun entry =>
    if entry.inFlight = some request then { entry with inFlight := none } else entry

end Queries

inductive Action (Scope : Type)
  /-- A read, of a component that renders or of `getState`. -/
  | ensure (scope : Scope)
  | subscribe (scope : Scope) (listener : ListenerId)
  | unsubscribe (object : ObjectId) (listener : ListenerId)
  | fetch (scope : Scope)
  | settle (object : ObjectId) (request : RequestId)

/-- The scope whose entry an action asks for. -/
def Action.scope : Action Scope → Option Scope
  | .ensure scope | .subscribe scope _ | .fetch scope => some scope
  | .unsubscribe _ _ | .settle _ _ => none

variable [DecidableEq Key] {Error : Type}

def step (options : Options Scope Key Error) (queries : Queries Scope Key) :
    Action Scope → Queries Scope Key
  | .ensure scope => (queries.ensureEntry options scope).2
  | .subscribe scope listener => queries.subscribe options scope listener
  | .unsubscribe object listener => queries.unsubscribe object listener
  | .fetch scope => queries.fetch options scope
  | .settle object request => queries.settle object request

def system (options : Options Scope Key Error) :
    TransitionSystem (Queries Scope Key) (Action Scope) where
  Initial := fun queries => queries = .empty
  step := fun queries action => some (step options queries action)

/-- There is an entry for the scope, or the pinned entries do not fill the cache. -/
def HasRoom (options : Options Scope Key Error) (queries : Queries Scope Key) (scope : Scope) :
    Prop :=
  (queries.entries.get (options.getKey scope)).isSome = true ∨
    queries.entries.pinnedCount queries.objects.pinned < options.maxCachedScopes

/-- An entry is asked for only where there is room for it. -/
def Roomy (options : Options Scope Key Error) (queries : Queries Scope Key)
    (action : Action Scope) : Prop :=
  ∀ scope ∈ action.scope, HasRoom options queries scope

instance (options : Options Scope Key Error) (queries : Queries Scope Key)
    (action : Action Scope) : Decidable (Roomy options queries action) :=
  inferInstanceAs (Decidable (∀ scope ∈ action.scope,
    (queries.entries.get (options.getKey scope)).isSome = true ∨
      queries.entries.pinnedCount queries.objects.pinned < options.maxCachedScopes))

/-! ## One call -/

/-- Object ids are given out in turn, and the map files an object under its own key. -/
structure WellFiled (queries : Queries Scope Key) : Prop where
  fresh : ∀ object, queries.nextObject ≤ object → queries.objects object = none
  keyed : ∀ key object, queries.entries.get key = some object →
    ∃ entry, queries.objects object = some entry ∧ entry.key = key

variable {options : Options Scope Key Error} {queries : Queries Scope Key} {scope : Scope}

omit [DecidableEq Key] in
/-- The next object is not pinned. -/
theorem WellFiled.unpinned (filed : WellFiled queries) :
    queries.objects.pinned queries.nextObject = false := by
  rw [Objects.pinned, filed.fresh _ le_rfl, Option.any_none]

/-- An entry that is found is returned, and nothing is evicted. -/
theorem ensureEntry_of_existing {object : ObjectId}
    (existing : queries.entries.get (options.getKey scope) = some object) :
    queries.ensureEntry options scope =
      (object, { queries.modify object (fun entry => { entry with scope := scope }) with
        calls := queries.calls ++ [⟨options.getKey scope, queries.entries, queries.objects, object,
          queries.entries⟩] }) := by
  rw [Queries.ensureEntry]
  simp only [existing]

/-- A scope without an entry gets a new one. -/
theorem ensureEntry_of_absent (absent : queries.entries.get (options.getKey scope) = none) :
    queries.ensureEntry options scope =
      (queries.nextObject,
        { queries with
          entries := queries.grown options.maxCachedScopes (options.getKey scope)
          objects := Function.update queries.objects queries.nextObject
            (some ⟨options.getKey scope, scope, [], none⟩)
          nextObject := queries.nextObject + 1
          calls := queries.calls ++ [⟨options.getKey scope, queries.entries, queries.objects,
            queries.nextObject, queries.grown options.maxCachedScopes (options.getKey scope)⟩]
              }) := by
  rw [Queries.ensureEntry]
  simp only [absent]

/-- The pinned entries stay, and a new one stays if they leave it room. -/
theorem grown_get_of_pinned {key other : Key} {object : ObjectId} {limit : Nat}
    (absent : queries.entries.get key = none) (present : queries.entries.get other = some object)
    (pinned : queries.objects.pinned object = true) :
    (queries.grown limit key).get other = some object := by
  have different : other ≠ key := by
    rintro rfl
    rw [absent] at present
    cases present
  exact InsertionMap.evict_get_of_pinned
    ((InsertionMap.insert_get_of_ne _ _ different).trans present) pinned

/-- A new entry leaves no more than the limit, or than are pinned. -/
theorem grown_size_le (key : Key) (limit : Nat) (queries : Queries Scope Key) :
    (queries.grown limit key).size ≤
      max limit (queries.entries.pinnedCount queries.objects.pinned + 1) :=
  InsertionMap.size_evict_le.trans (max_le_max le_rfl InsertionMap.pinnedCount_insert_le)

/-- What is returned is in the map exactly when there is room. -/
theorem ensureEntry_cached_iff (filed : WellFiled queries) (options : Options Scope Key Error)
    (scope : Scope) :
    (queries.ensureEntry options scope).2.entries.get (options.getKey scope) =
        some (queries.ensureEntry options scope).1 ↔ HasRoom options queries scope := by
  cases found : queries.entries.get (options.getKey scope) with
  | some object =>
      rw [ensureEntry_of_existing found]
      exact iff_of_true found (Or.inl (Option.isSome_of_eq_some found))
  | none =>
      rw [ensureEntry_of_absent found]
      refine (InsertionMap.evict_insert_get_self_iff found filed.unpinned).trans ?_
      refine ⟨Or.inr, fun room => room.resolve_left ?_⟩
      simp [found]

/-- **One call** spares what is pinned and keeps to the bound. -/
theorem ensureEntry_call (options : Options Scope Key Error) (queries : Queries Scope Key)
    (scope : Scope) :
    ∃ call, (queries.ensureEntry options scope).2.calls = queries.calls ++ [call] ∧
      call.Sparing options.maxCachedScopes ∧
      call.after.get call.key =
        (queries.ensureEntry options scope).2.entries.get (options.getKey scope) ∧
      call.returned = (queries.ensureEntry options scope).1 := by
  cases found : queries.entries.get (options.getKey scope) with
  | some object =>
      rw [ensureEntry_of_existing found]
      refine ⟨_, rfl, ⟨fun _ _ present _ => present, ?_⟩, rfl, rfl⟩
      intro absent
      cases found.symm.trans absent
  | none =>
      rw [ensureEntry_of_absent found]
      refine ⟨_, rfl, ⟨fun _ _ present pinned => ?_, fun _ => grown_size_le _ _ queries⟩, rfl, rfl⟩
      exact grown_get_of_pinned found present pinned

/-! ## Runs -/

omit [DecidableEq Key] in
/-- A change of one entry leaves the others. -/
theorem modify_objects (object : ObjectId)
    (change : ScopedQueryEntry Scope Key → ScopedQueryEntry Scope Key)
    (queries : Queries Scope Key) (other : ObjectId) :
    (queries.modify object change).objects other =
      if other = object then (queries.objects object).map change else queries.objects other := by
  simp only [Queries.modify, Function.update_apply]

omit [DecidableEq Key] in
/-- The empty cache is well filed. -/
theorem WellFiled.empty : WellFiled (.empty : Queries Scope Key) :=
  ⟨fun _ _ => rfl, nofun⟩

omit [DecidableEq Key] in
/-- A cache stays well filed when an entry changes. -/
theorem WellFiled.modify (filed : WellFiled queries) (object : ObjectId)
    (change : ScopedQueryEntry Scope Key → ScopedQueryEntry Scope Key)
    (sameKey : ∀ entry, (change entry).key = entry.key) :
    WellFiled (queries.modify object change) := by
  constructor
  · intro other later
    rw [modify_objects]
    split_ifs with same
    · subst same
      rw [filed.fresh other later, Option.map_none]
    · exact filed.fresh other later
  · intro key other present
    obtain ⟨entry, found, isKey⟩ := filed.keyed key other present
    rw [modify_objects]
    split_ifs with same
    · subst same
      exact ⟨change entry, by rw [found, Option.map_some], (sameKey entry).trans isKey⟩
    · exact ⟨entry, found, isKey⟩

theorem WellFiled.ensureEntry (filed : WellFiled queries) (options : Options Scope Key Error)
    (scope : Scope) :
    WellFiled (queries.ensureEntry options scope).2 := by
  cases found : queries.entries.get (options.getKey scope) with
  | some object =>
      rw [ensureEntry_of_existing found]
      have rescoped := filed.modify object (fun entry => { entry with scope := scope }) fun _ => rfl
      exact ⟨rescoped.fresh, rescoped.keyed⟩
  | none =>
      rw [ensureEntry_of_absent found]
      constructor
      · intro other later
        exact (Function.update_of_ne (Nat.ne_of_gt later) _ _).trans
          (filed.fresh other (Nat.le_of_succ_le later))
      · intro key other present
        rcases InsertionMap.get_of_insert (InsertionMap.get_of_evict present) with
          ⟨rfl, rfl⟩ | ⟨-, before⟩
        · exact ⟨_, Function.update_self _ _ _, rfl⟩
        · obtain ⟨entry, known, isKey⟩ := filed.keyed key other before
          refine ⟨entry, (Function.update_of_ne ?_ _ _).trans known, isKey⟩
          rintro rfl
          rw [filed.fresh _ le_rfl] at known
          cases known

theorem WellFiled.touch (filed : WellFiled queries) (object : ObjectId) :
    WellFiled (queries.touch object) := by
  rw [Queries.touch]
  split
  next entry known =>
    split_ifs
    · refine ⟨filed.fresh, fun key other present => ?_⟩
      rcases InsertionMap.get_of_insert present with ⟨rfl, rfl⟩ | ⟨-, before⟩
      · exact ⟨entry, known, rfl⟩
      · exact filed.keyed key other (InsertionMap.get_of_delete before)
    · exact filed
  next => exact filed

omit [DecidableEq Key] in
theorem WellFiled.issue (filed : WellFiled queries) (object : ObjectId) :
    WellFiled (queries.issue object) := by
  have issued := filed.modify object
    (fun entry => { entry with inFlight := some queries.nextRequest }) fun _ => rfl
  exact ⟨issued.fresh, issued.keyed⟩

theorem WellFiled.fetch (filed : WellFiled queries) (scope : Scope) :
    WellFiled (queries.fetch options scope) := by
  have touched := (filed.ensureEntry options scope).touch (queries.ensureEntry options scope).1
  rw [Queries.fetch]
  dsimp only
  split_ifs
  · exact touched
  · exact touched.issue _

theorem WellFiled.step (filed : WellFiled queries) (action : Action Scope) :
    WellFiled (step options queries action) := by
  cases action with
  | ensure scope => exact filed.ensureEntry options scope
  | subscribe scope listener => exact (filed.ensureEntry options scope).modify _ _ fun _ => rfl
  | unsubscribe object listener => exact filed.modify object _ fun _ => rfl
  | fetch scope => exact filed.fetch scope
  | settle object request =>
      refine filed.modify object _ fun entry => ?_
      split_ifs <;> rfl

/-- **Every state reached** files its objects well. -/
theorem wellFiled_of_reached {guard : Queries Scope Key → Action Scope → Prop}
    (reached : (system options).ReachedWithin guard queries) : WellFiled queries := by
  refine reached.invariant ?_ ?_
  · rintro _ rfl
    exact .empty
  · intro before action next filed _ moved
    cases moved
    exact filed.step action

/-- Using an entry leaves the entries and the calls. -/
theorem touch_objects (object : ObjectId) (queries : Queries Scope Key) :
    (queries.touch object).objects = queries.objects := by
  rw [Queries.touch]
  split
  next => split_ifs <;> rfl
  next => rfl

/-- Touching an object that is in the map changes the order only. -/
theorem touch_get {object : ObjectId} {entry : ScopedQueryEntry Scope Key}
    (known : queries.objects object = some entry)
    (filedHere : queries.entries.get entry.key = some object) (key : Key) :
    (queries.touch object).entries.get key = queries.entries.get key := by
  rw [Queries.touch, known]
  simp only [filedHere, Option.isSome_some, ↓reduceIte]
  by_cases same : key = entry.key
  · rw [same, InsertionMap.insert_get_self, filedHere]
  · rw [InsertionMap.insert_get_of_ne _ _ same, InsertionMap.delete_get_of_ne _ same]

theorem touch_calls (object : ObjectId) (queries : Queries Scope Key) :
    (queries.touch object).calls = queries.calls := by
  rw [Queries.touch]
  split
  next => split_ifs <;> rfl
  next => rfl

/-- A step makes the call that its action asks for, or none. -/
theorem step_calls (options : Options Scope Key Error) (queries : Queries Scope Key)
    (action : Action Scope) :
    (step options queries action).calls = action.scope.elim queries.calls fun scope =>
      (queries.ensureEntry options scope).2.calls := by
  cases action with
  | ensure scope => rfl
  | subscribe scope listener => rfl
  | unsubscribe object listener => rfl
  | fetch scope =>
      have touched := touch_calls (queries.ensureEntry options scope).1
        (queries.ensureEntry options scope).2
      change (queries.fetch options scope).calls = (queries.ensureEntry options scope).2.calls
      rw [Queries.fetch]
      dsimp only
      split_ifs
      · exact touched
      · exact touched
  | settle object request => rfl

/-- What holds of every call that a step makes holds of every call of a run. -/
theorem calls_of_reached {guard : Queries Scope Key → Action Scope → Prop}
    {property : Call Scope Key → Prop}
    (made : ∀ queries action scope, WellFiled queries → guard queries action →
      scope ∈ action.scope → ∃ call,
        (queries.ensureEntry options scope).2.calls = queries.calls ++ [call] ∧ property call)
    (reached : (system options).ReachedWithin guard queries) :
    ∀ call ∈ queries.calls, property call := by
  refine @TransitionSystem.ReachedWithin.invariant_of _ _ _ _ WellFiled
    (fun queries => ∀ call ∈ queries.calls, property call)
    (fun _ before => wellFiled_of_reached before) ?_ ?_ _ reached
  · rintro _ rfl
    nofun
  · intro before action next filed _ holds accepted moved call member
    cases moved
    change call ∈ (step options before action).calls at member
    rw [step_calls] at member
    cases asks : action.scope with
    | none =>
        rw [asks] at member
        exact holds call member
    | some scope =>
        obtain ⟨last, grown, holdsLast⟩ := made before action scope filed accepted asks
        rw [asks, Option.elim_some, grown, List.mem_append, List.mem_singleton] at member
        rcases member with earlier | rfl
        · exact holds call earlier
        · exact holdsLast

/-- **No call of any run** evicts an entry that is pinned or keeps more than it may. -/
theorem calls_sparing (reachable : (system options).Reachable queries) :
    ∀ call ∈ queries.calls, call.Sparing options.maxCachedScopes := by
  refine calls_of_reached (fun before action scope filed _ _ => ?_) reachable
  obtain ⟨call, made, sparing, -⟩ := ensureEntry_call options before scope
  exact ⟨call, made, sparing⟩

/-- **Every call is safe** in a run that asks for entries where there is room. -/
theorem calls_safe (reached : (system options).ReachedWithin (Roomy options) queries) :
    ∀ call ∈ queries.calls, call.Safe options.maxCachedScopes := by
  refine calls_of_reached (fun before action scope filed roomy asks => ?_) reached
  obtain ⟨call, made, sparing, after, returned⟩ := ensureEntry_call options before scope
  refine ⟨call, made, sparing, ?_⟩
  rw [after, returned]
  exact (ensureEntry_cached_iff filed options scope).mpr (roomy scope asks)

/-! ## Who holds an entry -/

/-- The entries that are used are the ones that are found. -/
def Held (queries : Queries Scope Key) : Prop :=
  ∀ object entry, queries.objects object = some entry → entry.pinned = true →
    queries.entries.get entry.key = some object

omit [DecidableEq Key] in
/-- An entry that is pinned after a listener left was pinned before. -/
theorem pinned_of_erase (entry : ScopedQueryEntry Scope Key) {listener : ListenerId}
    (pinned : ScopedQueryEntry.pinned
      { entry with listeners := entry.listeners.erase listener } = true) :
    entry.pinned = true := by
  rw [ScopedQueryEntry.pinned, Bool.or_eq_true, Bool.not_eq_true', List.isEmpty_eq_false_iff] at *
  refine pinned.imp_left fun left none => left ?_
  rw [none, List.erase_nil]

omit [DecidableEq Key] in
/-- What is held stays so when an entry changes that stays pinned. -/
theorem Held.modify (held : Held queries) (object : ObjectId)
    (change : ScopedQueryEntry Scope Key → ScopedQueryEntry Scope Key)
    (sameKey : ∀ entry, (change entry).key = entry.key)
    (pins : ∀ entry, queries.objects object = some entry → (change entry).pinned = true →
      entry.pinned = true ∨ queries.entries.get entry.key = some object) :
    Held (queries.modify object change) := by
  intro other entry known pinned
  rw [modify_objects] at known
  split_ifs at known with same
  · subst same
    obtain ⟨before, found, rfl⟩ := Option.map_eq_some_iff.mp known
    rw [sameKey]
    exact (pins before found pinned).elim (held other before found) id
  · exact held other entry known pinned

/-- What is held stays so when an entry is asked for where there is room. -/
theorem Held.ensureEntry (held : Held queries) (scope : Scope) :
    Held (queries.ensureEntry options scope).2 := by
  cases found : queries.entries.get (options.getKey scope) with
  | some object =>
      rw [ensureEntry_of_existing found]
      exact held.modify object (fun entry => { entry with scope := scope }) (fun _ => rfl)
        fun _ _ pinned => Or.inl pinned
  | none =>
      rw [ensureEntry_of_absent found]
      intro other entry known pinned
      change Function.update queries.objects _ _ other = some entry at known
      rw [Function.update_apply] at known
      split_ifs at known with same
      · cases known
        cases pinned
      · apply grown_get_of_pinned found (held other entry known pinned)
        rw [Objects.pinned, known, Option.any_some]
        exact pinned

theorem Held.touch (held : Held queries) {object : ObjectId}
    {entry : ScopedQueryEntry Scope Key} (known : queries.objects object = some entry)
    (filedHere : queries.entries.get entry.key = some object) : Held (queries.touch object) := by
  intro other used found pinned
  rw [touch_objects] at found
  rw [touch_get known filedHere]
  exact held other used found pinned

/-- Where there is room, the object that is returned is filed. -/
theorem ensureEntry_filed (filed : WellFiled queries) (scope : Scope)
    (room : HasRoom options queries scope) :
    ∃ entry, (queries.ensureEntry options scope).2.objects (queries.ensureEntry options scope).1 =
        some entry ∧
      (queries.ensureEntry options scope).2.entries.get entry.key =
        some (queries.ensureEntry options scope).1 := by
  have cached := (ensureEntry_cached_iff filed options scope).mpr room
  obtain ⟨entry, known, isKey⟩ := (filed.ensureEntry options scope).keyed _ _ cached
  exact ⟨entry, known, isKey ▸ cached⟩

/-- An entry that is listened to where there is room is held. -/
theorem Held.subscribe (held : Held queries) (filed : WellFiled queries) {scope : Scope}
    (room : HasRoom options queries scope) (listener : ListenerId) :
    Held (queries.subscribe options scope listener) := by
  obtain ⟨entry, known, filedHere⟩ := ensureEntry_filed filed scope room
  refine (held.ensureEntry scope).modify _ _ (fun _ => rfl) fun other found _ => Or.inr ?_
  cases known.symm.trans found
  exact filedHere

theorem Held.fetch (held : Held queries) (filed : WellFiled queries) {scope : Scope}
    (room : HasRoom options queries scope) : Held (queries.fetch options scope) := by
  obtain ⟨entry, known, filedHere⟩ := ensureEntry_filed filed scope room
  have touched := (held.ensureEntry scope).touch known filedHere
  rw [Queries.fetch]
  dsimp only
  split_ifs
  · exact touched
  · refine touched.modify _ _ (fun _ => rfl) fun other found _ => Or.inr ?_
    rw [touch_objects] at found
    cases known.symm.trans found
    exact (touch_get known filedHere _).trans filedHere

/-- **Every roomy step** keeps what is held. -/
theorem Held.step (held : Held queries) (filed : WellFiled queries) (action : Action Scope)
    (roomy : Roomy options queries action) : Held (step options queries action) := by
  cases action with
  | ensure scope => exact held.ensureEntry scope
  | subscribe scope listener => exact held.subscribe filed (roomy scope rfl) listener
  | unsubscribe object listener =>
      refine held.modify object _ (fun _ => rfl) fun entry _ pinned => Or.inl ?_
      exact pinned_of_erase entry pinned
  | fetch scope => exact held.fetch filed (roomy scope rfl)
  | settle object request =>
      refine held.modify object _ (fun entry => ?_) fun entry _ pinned => Or.inl ?_
      · split_ifs <;> rfl
      · split_ifs at pinned
        · rw [ScopedQueryEntry.pinned, Option.isSome_none, Bool.or_false] at pinned
          rw [ScopedQueryEntry.pinned, pinned, Bool.true_or]
        · exact pinned

/-- **No entry that is used is lost** in a run that asks for entries where there is room. -/
theorem held_of_reached (reached : (system options).ReachedWithin (Roomy options) queries) :
    Held queries := by
  refine TransitionSystem.ReachedWithin.invariant_of (fun _ before => wellFiled_of_reached before)
    ?_ ?_ reached
  · rintro _ rfl
    nofun
  · intro before action next filed _ held roomy moved
    cases moved
    exact held.step filed action roomy

/-- **Eviction is safe and bounded** in a run that asks for entries where there is room. -/
theorem eviction_safe (reached : (system options).ReachedWithin (Roomy options) queries) :
    Held queries ∧ ∀ call ∈ queries.calls, call.Safe options.maxCachedScopes :=
  ⟨held_of_reached reached, calls_safe reached⟩

/-- The cache of values has its entry under the same condition. -/
theorem cache_ensureEntry_iff {Data : Type} (options : Options Scope Key Error) (scope : Scope)
    (cache : Cache Scope Key Data Error) :
    ((cache.ensureEntry options scope).entries.get (options.getKey scope)).isSome = true ↔
      (cache.entries.get (options.getKey scope)).isSome = true ∨
        cache.entries.pinnedCount Entry.pinned < options.maxCachedScopes := by
  rw [Cache.ensureEntry]
  cases found : cache.entries.get (options.getKey scope) with
  | some entry => simp
  | none =>
      dsimp only
      rw [Cache.evictColdEntries_eq, ← InsertionMap.evict_insert_get_self_iff found
        (rfl : Entry.pinned (Entry.create scope) = false), Option.isSome_iff_exists]
      simp only [Option.isSome_none, Bool.false_eq_true, false_or]
      refine ⟨fun ⟨entry, left⟩ => ?_, fun left => ⟨_, left⟩⟩
      rcases InsertionMap.get_of_insert (InsertionMap.get_of_evict left) with
        ⟨-, rfl⟩ | ⟨different, -⟩
      · exact left
      · exact absurd rfl different

/-! ## Thirty-two mounted scopes and one more -/

/-- Scopes that are their own keys, and the cap that a query has by default. -/
def defaultOptions : Options Nat Nat Unit := ⟨id, (), 32⟩

/-- A component mounts for each of the first scopes. -/
def mounts (count : Nat) : List (Action Nat) :=
  (List.range count).map fun scope => .subscribe scope 0

theorem initial_empty : (system defaultOptions).Initial .empty := rfl

/-- Thirty-two scopes are mounted, and none is lost. -/
theorem eviction_safe_mounts : ∃ queries, (system defaultOptions).ReachedWithin
    (Roomy defaultOptions) queries ∧ queries.entries.size = 32 ∧ Held queries ∧
      ∀ call ∈ queries.calls, call.Safe 32 := by
  obtain ⟨queries, reached, full⟩ := TransitionSystem.exists_reachedWithin_of_run
    (Roomy defaultOptions) initial_empty (mounts 32) (fun queries => queries.entries.size == 32)
    (by decide +kernel)
  exact ⟨queries, reached, eq_of_beq full, eviction_safe reached⟩

/-- The entry that is asked for next is evicted before it is returned. -/
theorem evicts_the_newest : ¬ ∀ queries, (system defaultOptions).Reachable queries →
    ∀ call ∈ queries.calls, call.Safe 32 := by
  intro safe
  obtain ⟨queries, reachable, evicted⟩ := TransitionSystem.exists_reachable_of_run
    initial_empty (mounts 32 ++ [.ensure 32])
    (fun queries => queries.calls.any fun call => call.after.get call.key != some call.returned)
    (by decide +kernel)
  obtain ⟨call, member, lost⟩ := List.any_eq_true.mp evicted
  exact bne_iff_ne.mp lost (safe queries reachable call member).cached

end FrontDashboard.Query.Eviction
