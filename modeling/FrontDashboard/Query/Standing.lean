import FrontDashboard.Query.Coherence

/-! # Data that stands

Data of a cache entry stands when nothing the cache has begun will replace it: no
request is in flight, the entry shows no error, and it is not marked stale for a
later reader. What is known of all standing data is kept by every operation of
the cache under a condition on the data it writes.
-/

namespace FrontDashboard.Query

variable {Scope Key Data Error : Type}

/-- Nothing will replace the entry's data. -/
def Entry.Standing (entry : Entry Scope Data Error) : Prop :=
  entry.inFlight = none ∧ entry.state.error = none ∧ (entry.listeners = 0 → entry.stale = false)

/-- The entry's data is trusted if it stands; an entry without data that stands has
no reader. -/
def Entry.Trusted (trust : Data → Prop) (entry : Entry Scope Data Error) : Prop :=
  entry.Standing →
    (∀ data, entry.state.data = some data → trust data) ∧
      (entry.state.data = none → entry.listeners = 0)

/-- All standing data of the cache is trusted, but for the exempt keys. -/
def TrustedBut (options : Options Scope Key Error) (exempt : Key → Prop)
    (trust : Key → Data → Prop) (cache : Cache Scope Key Data Error) : Prop :=
  Everywhere (fun key entry => options.getKey entry.scope = key ∧
    (¬ exempt key → entry.Trusted (trust key))) cache

/-- All standing data of the cache is trusted. -/
def AllTrusted (options : Options Scope Key Error) (trust : Key → Data → Prop)
    (cache : Cache Scope Key Data Error) : Prop :=
  TrustedBut options (fun _ => False) trust cache

namespace Entry

theorem trusted_of_inFlight {trust : Data → Prop} {entry : Entry Scope Data Error}
    {request : RequestId} (waits : entry.inFlight = some request) : entry.Trusted trust := by
  intro standing
  rw [standing.1] at waits
  cases waits

theorem trusted_create (trust : Data → Prop) (scope : Scope) :
    (create scope : Entry Scope Data Error).Trusted trust := by
  intro _
  constructor
  · intro data loaded
    cases loaded
  · exact fun _ => rfl

end Entry

variable {options : Options Scope Key Error} {cache : Cache Scope Key Data Error}
  {exempt : Key → Prop} {trust trust' : Key → Data → Prop}

/-- Trust may be replaced by any other that the standing data deserve. -/
theorem AllTrusted.imp (all : AllTrusted options trust cache)
    (implies : ∀ key entry data, cache.entries.get key = some entry → entry.Standing →
      entry.state.data = some data → trust key data → trust' key data) :
    AllTrusted options trust' cache := by
  intro key entry present
  obtain ⟨keyed, trusted⟩ := all key entry present
  refine ⟨keyed, fun _ standing => ?_⟩
  obtain ⟨filled, unread⟩ := trusted id standing
  exact ⟨fun data loaded => implies key entry data present standing loaded (filled data loaded),
    unread⟩

/-- Two things that are known of standing data. -/
theorem AllTrusted.both (all : AllTrusted options trust cache)
    (all' : AllTrusted options trust' cache) :
    AllTrusted options (fun key data => trust key data ∧ trust' key data) cache := by
  apply all.imp
  intro key entry data present standing loaded trusted
  exact ⟨trusted, ((all' key entry present).2 id standing).1 data loaded⟩

variable [DecidableEq Key]

theorem TrustedBut.ensureEntry (all : TrustedBut options exempt trust cache) (scope : Scope) :
    TrustedBut options exempt trust (cache.ensureEntry options scope) := by
  apply Everywhere.ensureEntry all options scope
  · intro entry kept
    exact ⟨rfl, kept.2⟩
  · exact ⟨rfl, fun _ => Entry.trusted_create _ scope⟩

/-- Changing one entry may put its key among the exempt ones, or take it from
them. -/
theorem TrustedBut.modify {exempt' : Key → Prop} (all : TrustedBut options exempt trust cache)
    (key : Key) (change : Entry Scope Data Error → Entry Scope Data Error)
    (others : ∀ other, other ≠ key → exempt other → exempt' other)
    (changed : ∀ entry, cache.entries.get key = some entry →
      (¬ exempt key → entry.Trusted (trust key)) →
        (change entry).scope = entry.scope ∧
          (¬ exempt' key → (change entry).Trusted (trust key))) :
    TrustedBut options exempt' trust (cache.modify key change) := by
  intro other entry present
  rcases get_of_modify present with ⟨existing, found, rfl, rfl⟩ | ⟨differs, kept⟩
  · obtain ⟨keyed, trusted⟩ := all _ existing found
    obtain ⟨sameScope, trusted'⟩ := changed existing found trusted
    exact ⟨by rw [sameScope, keyed], trusted'⟩
  · obtain ⟨keyed, trusted⟩ := all other entry kept
    exact ⟨keyed, fun spared => trusted fun gone => spared (others other differs gone)⟩

/-- After a fetch the entry waits for a request. -/
theorem TrustedBut.fetch {scope : Scope}
    (all : TrustedBut options (fun key => key = options.getKey scope) trust cache)
    (background : Option Bool) :
    AllTrusted options trust (cache.fetch options scope background) := by
  have ensured := all.ensureEntry scope
  intro key entry present
  rcases get_of_fetch present with ⟨kept, differs | joined⟩ | ⟨before, request, found, rfl⟩
  · obtain ⟨keyed, trusted⟩ := ensured key entry kept
    exact ⟨keyed, fun _ => trusted differs⟩
  · obtain ⟨keyed, -⟩ := ensured key entry kept
    obtain ⟨request, waits⟩ := Option.isSome_iff_exists.mp joined
    exact ⟨keyed, fun _ => Entry.trusted_of_inFlight waits⟩
  · obtain ⟨keyed, -⟩ := ensured key before found
    exact ⟨keyed, fun _ => Entry.trusted_of_inFlight rfl⟩

/-- One invalidation leaves its entry waiting for a request, or stale without a
reader. -/
theorem AllTrusted.invalidate {key : Key} {predicate : Scope → Bool} {activeOnly : Bool}
    (all : AllTrusted options trust cache) (background : Option Bool)
    (others : ∀ other data, other ≠ key → trust other data → trust' other data)
    (spared : ∀ scope data, options.getKey scope = key → predicate scope = false →
      trust key data → trust' key data) :
    AllTrusted options trust' (cache.invalidate options predicate activeOnly background key) := by
  have elsewhere : TrustedBut options (fun other => other = key) trust' cache := by
    intro other entry present
    obtain ⟨keyed, trusted⟩ := all other entry present
    refine ⟨keyed, fun differs standing => ?_⟩
    obtain ⟨filled, unread⟩ := trusted id standing
    exact ⟨fun data loaded => others other data differs (filled data loaded), unread⟩
  unfold Cache.invalidate
  split
  next absent =>
    intro other entry present
    obtain ⟨keyed, trusted⟩ := elsewhere other entry present
    refine ⟨keyed, fun _ => trusted ?_⟩
    rintro rfl
    rw [absent] at present
    cases present
  next entry found =>
    obtain ⟨keyed, -⟩ := all key entry found
    split
    next unmatched =>
      apply all.imp
      intro other entry' data present standing loaded trusted
      by_cases same : other = key
      · subst same
        exact spared entry.scope data keyed (by simpa using unmatched) trusted
      · exact others other data same trusted
    next =>
      dsimp only
      split
      next unread =>
        apply TrustedBut.modify elsewhere
        · exact fun other differs same => absurd same differs
        · intro entry' present _
          rw [found] at present
          cases present
          refine ⟨rfl, fun _ standing => ?_⟩
          simp only [Bool.and_eq_true, beq_iff_eq] at unread
          exact absurd (standing.2.2 unread.2) (by simp [Entry.markStale])
      next =>
        rw [← keyed] at elsewhere
        apply TrustedBut.fetch
        apply TrustedBut.modify elsewhere
        · exact fun _ _ exempt => exempt
        · exact fun entry' _ _ => ⟨rfl, fun kept => absurd keyed.symm kept⟩

/-- **An invalidation asks nothing of the entries it selects.** -/
theorem AllTrusted.invalidateWhere {predicate : Scope → Bool} {activeOnly : Bool}
    (all : AllTrusted options trust cache) (background : Option Bool)
    (spared : ∀ scope data, predicate scope = false →
      trust (options.getKey scope) data → trust' (options.getKey scope) data) :
    AllTrusted options trust'
      (cache.invalidateWhere options predicate activeOnly background) := by
  have every : ∀ (keys : List Key) (cache : Cache Scope Key Data Error),
      AllTrusted options (fun key data =>
        (key ∈ keys → trust key data) ∧ (key ∉ keys → trust' key data)) cache →
      AllTrusted options trust'
        (keys.foldl (Cache.invalidate options predicate activeOnly background) cache) := by
    intro keys
    induction keys with
    | nil =>
        intro cache all
        exact all.imp fun _ _ _ _ _ _ trusted => trusted.2 List.not_mem_nil
    | cons key rest ih =>
        intro cache all
        apply ih
        apply all.invalidate
        · intro other data differs trusted
          simpa [differs] using trusted
        · rintro scope data rfl unmatched ⟨before, -⟩
          have trusted := before List.mem_cons_self
          exact ⟨fun _ => trusted, fun _ => spared scope data unmatched trusted⟩
  apply every
  apply all.imp
  intro key entry data present _ _ trusted
  exact ⟨fun _ => trusted, fun absent => absurd (InsertionMap.mem_keys_of_get present) absent⟩

/-- A mounting component finds its data loaded and not stale, or fetches it. -/
theorem AllTrusted.mount (all : AllTrusted options trust cache) (scope : Scope) :
    AllTrusted options trust (cache.mount options scope) := by
  have ensured : AllTrusted options trust (cache.ensureEntry options scope) :=
    TrustedBut.ensureEntry all scope
  have subscribed : TrustedBut options (fun key => key = options.getKey scope) trust
      ((cache.ensureEntry options scope).modify (options.getKey scope) fun entry =>
        { entry with listeners := entry.listeners + 1 }) := by
    apply TrustedBut.modify ensured
    · exact fun _ _ none => none.elim
    · exact fun entry _ _ => ⟨rfl, fun kept => absurd rfl kept⟩
  unfold Cache.mount
  dsimp only
  split
  next entry found =>
    split
    next => exact subscribed.fetch _
    next fresh =>
      simp only [Bool.or_eq_true, not_or, Bool.not_eq_true, Option.isNone_eq_false_iff] at fresh
      intro key other present
      obtain ⟨keyed, trusted⟩ := subscribed key other present
      refine ⟨keyed, fun _ => ?_⟩
      by_cases same : key = options.getKey scope
      · subst same
        rw [found] at present
        cases present
        rcases get_of_modify found with ⟨before, existing, -, rfl⟩ | ⟨differs, -⟩
        · intro standing
          obtain ⟨filled, -⟩ := (ensured _ before existing).2 id
            ⟨standing.1, standing.2.1, fun _ => fresh.2⟩
          refine ⟨filled, fun none => ?_⟩
          rw [none] at fresh
          exact absurd fresh.1 (by simp)
        · exact absurd rfl differs
      · exact trusted same
  next => exact subscribed.fetch _

theorem AllTrusted.unmount (all : AllTrusted options trust cache) (key : Key) :
    AllTrusted options trust (cache.unmount key) := by
  apply TrustedBut.modify all
  · exact fun _ _ none => none
  · intro entry _ trusted
    refine ⟨rfl, fun _ standing => ?_⟩
    have before : entry.Standing := by
      refine ⟨standing.1, standing.2.1, fun unread => standing.2.2 ?_⟩
      change entry.listeners - 1 = 0
      omega
    obtain ⟨filled, unread⟩ := trusted id before
    refine ⟨filled, fun none => ?_⟩
    have none' := unread none
    change entry.listeners - 1 = 0
    omega

omit [DecidableEq Key] in
/-- Patched data has to be trusted again. -/
theorem AllTrusted.updateWhere {predicate : Scope → Bool} {updater : Updater Scope Data Error}
    (all : AllTrusted options trust cache)
    (others : ∀ scope data, predicate scope = false →
      trust (options.getKey scope) data → trust' (options.getKey scope) data)
    (empty : ∀ scope, updater.onData scope none = none)
    (patched : ∀ key entry data result, cache.entries.get key = some entry → entry.Standing →
      predicate entry.scope = true → entry.state.data = some data →
        updater.onData entry.scope (some data) = some result →
          trust key data → trust' key result) :
    AllTrusted options trust' (cache.updateWhere predicate updater) := by
  intro key entry present
  unfold Cache.updateWhere at present
  rw [InsertionMap.mapValues_get, Option.map_eq_some_iff] at present
  obtain ⟨before, found, rfl⟩ := present
  obtain ⟨keyed, trusted⟩ := all key before found
  split
  next within =>
    refine ⟨keyed, fun _ standing => ?_⟩
    have unfailed : before.state.error = none := by
      rw [← Option.not_isSome_iff_eq_none]
      intro failed
      have still := updater.keeps_error before.state before.scope failed
      have clear : (updater.update before.state before.scope).error = none := standing.2.1
      rw [clear] at still
      cases still
    have stood : before.Standing := ⟨standing.1, unfailed, standing.2.2⟩
    obtain ⟨filled, unread⟩ := trusted id stood
    have onData := updater.update_data before.state before.scope
    constructor
    · intro result loaded
      change (updater.update before.state before.scope).data = some result at loaded
      rw [onData] at loaded
      cases was : before.state.data with
      | none =>
          rw [was, empty] at loaded
          cases loaded
      | some data =>
          rw [was] at loaded
          exact patched key before data result found stood within was loaded (filled data was)
    · intro lost
      change (updater.update before.state before.scope).data = none at lost
      cases was : before.state.data with
      | none => exact unread was
      | some data =>
          rcases updater.empties_with_error before.state before.scope (by rw [was]; rfl) with
            kept | failed
          · rw [lost] at kept
            cases kept
          · have clear : (updater.update before.state before.scope).error = none := standing.2.1
            rw [clear] at failed
            cases failed
  next outside =>
    refine ⟨keyed, fun _ standing => ?_⟩
    obtain ⟨filled, unread⟩ := trusted id standing
    refine ⟨fun data loaded => ?_, unread⟩
    have kept := others before.scope data (by simpa using outside)
    rw [keyed] at kept
    exact kept (filled data loaded)

/-- A response has to be trusted if the entry will stand with it. -/
theorem AllTrusted.succeed {key : Key} {request : RequestId} {response : Data}
    (all : AllTrusted options trust cache)
    (answered : ∀ entry, cache.entries.get key = some entry →
      (entry.listeners = 0 → entry.stale = false) → trust key response) :
    AllTrusted options trust (cache.modify key (.succeed request response)) := by
  apply TrustedBut.modify all
  · exact fun _ _ none => none
  · intro entry present trusted
    unfold Entry.succeed
    split
    next =>
      refine ⟨rfl, fun _ standing => ⟨fun data loaded => ?_, fun none => ?_⟩⟩
      · cases loaded
        exact answered entry present standing.2.2
      · cases none
    next => exact ⟨rfl, trusted⟩

/-- A response to the request an entry waits for replaces whatever was there. -/
theorem AllTrusted.succeed_asked {key : Key} {request : RequestId} {response : Data}
    (all : AllTrusted options trust cache)
    (others : ∀ other data, other ≠ key → trust other data → trust' other data)
    (waits : ∀ entry, cache.entries.get key = some entry → entry.inFlight = some request)
    (answered : ∀ entry, cache.entries.get key = some entry →
      (entry.listeners = 0 → entry.stale = false) → trust' key response) :
    AllTrusted options trust' (cache.modify key (.succeed request response)) := by
  have elsewhere : TrustedBut options (fun other => other = key) trust' cache := by
    intro other entry present
    obtain ⟨keyed, trusted⟩ := all other entry present
    refine ⟨keyed, fun differs standing => ?_⟩
    obtain ⟨filled, unread⟩ := trusted id standing
    exact ⟨fun data loaded => others other data differs (filled data loaded), unread⟩
  apply TrustedBut.modify elsewhere
  · exact fun other differs same => absurd same differs
  · intro entry present _
    unfold Entry.succeed
    rw [if_pos (waits entry present)]
    refine ⟨rfl, fun _ standing => ⟨fun data loaded => ?_, fun none => ?_⟩⟩
    · cases loaded
      exact answered entry present standing.2.2
    · cases none

theorem AllTrusted.fail {key : Key} (all : AllTrusted options trust cache)
    (request : RequestId) (error : Error) :
    AllTrusted options trust (cache.modify key (.fail request error)) := by
  apply TrustedBut.modify all
  · exact fun _ _ none => none
  · intro entry _ trusted
    unfold Entry.fail
    split
    next =>
      refine ⟨rfl, fun _ standing => ?_⟩
      cases standing.2.1
    next => exact ⟨rfl, trusted⟩

omit [DecidableEq Key] in
theorem allTrusted_empty (options : Options Scope Key Error) (trust : Key → Data → Prop) :
    AllTrusted options trust (.empty : Cache Scope Key Data Error) := by
  intro key entry present
  cases present

end FrontDashboard.Query
