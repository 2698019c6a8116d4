import FrontDashboard.Library.InsertionMap
import Mathlib.Data.List.Perm.Subperm
import Mathlib.Order.Nat

/-! # Evicting what nothing uses

A map over its limit gives up its least recent values that are not pinned, until it is
within the limit or only pinned values are left. A value that has just been inserted is
last in the order, and is given up only where the pinned ones fill the map.
-/

namespace InsertionMap

variable {Key Value : Type*} [DecidableEq Key]

/-- One step of the eviction. -/
def evictOne (limit : Nat) (pinned : Value → Bool) (map : InsertionMap Key Value) (key : Key) :
    InsertionMap Key Value :=
  if map.size ≤ limit then map
  else
    match map.get key with
    | some value => if pinned value then map else map.delete key
    | none => map

/-- The least recent values that are not pinned go, while the map is over its limit. -/
def evict (limit : Nat) (pinned : Value → Bool) (map : InsertionMap Key Value) :
    InsertionMap Key Value :=
  map.keys.foldl (evictOne limit pinned) map

/-- How many values are pinned. -/
def pinnedCount (pinned : Value → Bool) (map : InsertionMap Key Value) : Nat :=
  (map.keysWhere fun _ => pinned).length

variable {limit : Nat} {pinned : Value → Bool} {map : InsertionMap Key Value} {key other : Key}
  {value : Value} {keys : List Key}

/-- A step deletes its key or nothing, and then the value is not pinned. -/
theorem evictOne_cases (limit : Nat) (pinned : Value → Bool) (map : InsertionMap Key Value)
    (key : Key) :
    (map.evictOne limit pinned key = map ∧
      (limit < map.size → ∀ value, map.get key = some value → pinned value = true)) ∨
    (map.evictOne limit pinned key = map.delete key ∧ limit < map.size ∧
      ∃ value, map.get key = some value ∧ pinned value = false) := by
  unfold evictOne
  split_ifs with within
  · exact Or.inl ⟨rfl, fun beyond => absurd within (Nat.not_le.mpr beyond)⟩
  · split
    next value present =>
      by_cases isPinned : pinned value = true
      · rw [if_pos isPinned]
        refine Or.inl ⟨rfl, fun _ other same => ?_⟩
        cases present.symm.trans same
        exact isPinned
      · rw [if_neg isPinned]
        exact Or.inr ⟨rfl, Nat.lt_of_not_le within, value, present, by simpa using isPinned⟩
    next absent =>
      refine Or.inl ⟨rfl, fun _ value present => ?_⟩
      rw [absent] at present
      cases present

/-- What is left was there. -/
theorem get_of_foldl_evictOne (present : (keys.foldl (evictOne limit pinned) map).get other =
    some value) : map.get other = some value := by
  induction keys generalizing map with
  | nil => exact present
  | cons key rest ih =>
      have after := ih present
      rcases evictOne_cases limit pinned map key with ⟨same, -⟩ | ⟨deleted, -⟩
      · rwa [same] at after
      · rw [deleted] at after
        exact get_of_delete after

theorem foldl_evictOne_get_of_not_mem (absent : other ∉ keys) :
    (keys.foldl (evictOne limit pinned) map).get other = map.get other := by
  induction keys generalizing map with
  | nil => rfl
  | cons key rest ih =>
      rw [List.mem_cons, not_or] at absent
      rw [List.foldl_cons, ih absent.2]
      rcases evictOne_cases limit pinned map key with ⟨same, -⟩ | ⟨deleted, -⟩
      · rw [same]
      · rw [deleted, delete_get_of_ne map absent.1]

/-- **Pinned values stay.** -/
theorem foldl_evictOne_get_of_pinned (present : map.get other = some value)
    (isPinned : pinned value = true) :
    (keys.foldl (evictOne limit pinned) map).get other = some value := by
  induction keys generalizing map with
  | nil => exact present
  | cons key rest ih =>
      apply ih
      rcases evictOne_cases limit pinned map key with ⟨same, -⟩ |
        ⟨deleted, -, unpinned, found, free⟩
      · rwa [same]
      · have different : other ≠ key := by
          rintro rfl
          rw [present] at found
          cases found
          rw [isPinned] at free
          cases free
        rw [deleted, delete_get_of_ne map different, present]

theorem foldl_evictOne_size_le :
    (keys.foldl (evictOne limit pinned) map).size ≤ map.size := by
  induction keys generalizing map with
  | nil => exact le_rfl
  | cons key rest ih =>
      refine ih.trans ?_
      rcases evictOne_cases limit pinned map key with ⟨same, -⟩ | ⟨deleted, -⟩
      · rw [same]
      · rw [deleted]
        exact List.length_erase_le

/-- **The loop gets within the limit**, or leaves only pinned values of those it saw. -/
theorem foldl_evictOne_size (map : InsertionMap Key Value) (nodup : keys.Nodup) :
    (keys.foldl (evictOne limit pinned) map).size ≤ limit ∨
      ∀ key ∈ keys, ∀ value, (keys.foldl (evictOne limit pinned) map).get key = some value →
        pinned value = true := by
  induction keys generalizing map with
  | nil => exact Or.inr nofun
  | cons key rest ih =>
      obtain ⟨fresh, restNodup⟩ := List.nodup_cons.mp nodup
      rw [List.foldl_cons]
      rcases ih (map.evictOne limit pinned key) restNodup with within | onlyPinned
      · exact Or.inl within
      · by_cases beyond : limit < ((rest.foldl (evictOne limit pinned)
            (map.evictOne limit pinned key))).size
        · refine Or.inr fun other member value present => ?_
          rcases List.mem_cons.mp member with rfl | later
          · rw [foldl_evictOne_get_of_not_mem fresh] at present
            rcases evictOne_cases limit pinned map other with ⟨same, stays⟩ | ⟨deleted, -⟩
            · rw [same] at present beyond
              exact stays (beyond.trans_le foldl_evictOne_size_le) value present
            · rw [deleted, delete_get_self] at present
              cases present
          · exact onlyPinned other later value present
        · exact Or.inl (Nat.le_of_not_lt beyond)

theorem get_of_evict (present : (map.evict limit pinned).get other = some value) :
    map.get other = some value :=
  get_of_foldl_evictOne present

theorem evict_get_of_pinned (present : map.get other = some value)
    (isPinned : pinned value = true) :
    (map.evict limit pinned).get other = some value :=
  foldl_evictOne_get_of_pinned present isPinned

/-- **What is over the limit is pinned.** -/
theorem size_evict_le : (map.evict limit pinned).size ≤ max limit (map.pinnedCount pinned) := by
  rcases foldl_evictOne_size map map.nodup with within | onlyPinned
  · exact within.trans (le_max_left _ _)
  · refine le_trans ?_ (le_max_right _ _)
    have among : (map.evict limit pinned).keys ⊆ map.keysWhere fun _ => pinned := by
      intro key member
      obtain ⟨value, present⟩ := Option.isSome_iff_exists.mp
        (((map.evict limit pinned).mem_keys key).mp member)
      have before := get_of_evict present
      exact mem_keysWhere.mpr ⟨value, before, onlyPinned key (mem_keys_of_get before) value present⟩
    exact ((map.evict limit pinned).nodup.subperm among).length_le

/-- Pinned values of a map with one more key. -/
theorem pinnedCount_insert_le :
    (map.insert key value).pinnedCount pinned ≤ map.pinnedCount pinned + 1 := by
  have among : ((map.insert key value).keysWhere fun _ => pinned) ⊆
      key :: map.keysWhere fun _ => pinned := by
    intro other member
    obtain ⟨found, present, pins⟩ := mem_keysWhere.mp member
    rcases get_of_insert present with ⟨rfl, -⟩ | ⟨-, before⟩
    · exact List.mem_cons_self
    · exact List.mem_cons_of_mem key (mem_keysWhere.mpr ⟨found, before, pins⟩)
  exact (((map.insert key value).nodup.filter _).subperm among).length_le

section Newest

variable (absent : map.get key = none) (unpinned : pinned value = false)

include absent

theorem keys_insert_of_absent : (map.insert key value).keys = map.keys ++ [key] := by
  have fresh : key ∉ map.keys := by
    rw [map.mem_keys, absent]
    nofun
  exact if_neg fresh

/-- What the loop leaves before it comes to the newest value: all that are pinned, and the
newest. -/
theorem pinnedCount_lt_size :
    map.pinnedCount pinned <
      (map.keys.foldl (evictOne limit pinned) (map.insert key value)).size := by
  have fresh : key ∉ map.keysWhere fun _ => pinned := by
    intro member
    obtain ⟨other, present, -⟩ := mem_keysWhere.mp member
    rw [absent] at present
    cases present
  have notAmong : key ∉ map.keys := by
    rw [map.mem_keys, absent]
    nofun
  have nodup : (key :: map.keysWhere fun _ => pinned).Nodup :=
    List.nodup_cons.mpr ⟨fresh, map.nodup.filter _⟩
  refine (nodup.subperm fun other member => ?_).length_le
  rcases List.mem_cons.mp member with rfl | isPinned
  · apply mem_keys_of_get
    exact (foldl_evictOne_get_of_not_mem notAmong).trans (insert_get_self map other value)
  · obtain ⟨found, present, pins⟩ := mem_keysWhere.mp isPinned
    have different : other ≠ key := by
      rintro rfl
      exact fresh isPinned
    apply mem_keys_of_get
    exact foldl_evictOne_get_of_pinned ((insert_get_of_ne map value different).trans present) pins

theorem size_le_pinnedCount
    (onlyPinned : ∀ other ∈ map.keys, ∀ found,
      (map.keys.foldl (evictOne limit pinned) (map.insert key value)).get other = some found →
        pinned found = true) :
    (map.keys.foldl (evictOne limit pinned) (map.insert key value)).size ≤
      map.pinnedCount pinned + 1 := by
  set left := map.keys.foldl (evictOne limit pinned) (map.insert key value)
  have among : left.keys ⊆ key :: map.keysWhere fun _ => pinned := by
    intro other member
    obtain ⟨found, present⟩ := Option.isSome_iff_exists.mp ((left.mem_keys other).mp member)
    rcases get_of_insert (get_of_foldl_evictOne present) with ⟨rfl, -⟩ | ⟨-, before⟩
    · exact List.mem_cons_self
    · exact List.mem_cons_of_mem key (mem_keysWhere.mpr
        ⟨found, before, onlyPinned other (mem_keys_of_get before) found present⟩)
  exact (left.nodup.subperm among).length_le

include unpinned

/-- **The newest value** stays exactly when the pinned ones do not fill the map. -/
theorem evict_insert_get_self_iff :
    ((map.insert key value).evict limit pinned).get key = some value ↔
      map.pinnedCount pinned < limit := by
  have notAmong : key ∉ map.keys := by
    rw [map.mem_keys, absent]
    nofun
  have before : (map.keys.foldl (evictOne limit pinned) (map.insert key value)).get key =
      some value :=
    (foldl_evictOne_get_of_not_mem notAmong).trans (insert_get_self map key value)
  rw [evict, keys_insert_of_absent absent, List.foldl_append, List.foldl_cons, List.foldl_nil]
  rcases evictOne_cases limit pinned
      (map.keys.foldl (evictOne limit pinned) (map.insert key value)) key with
    ⟨same, stays⟩ | ⟨deleted, beyond, -⟩
  · have within := Nat.le_of_not_lt fun beyond =>
      Bool.false_ne_true (unpinned.symm.trans (stays beyond value before))
    rw [same]
    exact iff_of_true before ((pinnedCount_lt_size absent).trans_le within)
  · rw [deleted, delete_get_self]
    refine iff_of_false nofun fun room => ?_
    rcases foldl_evictOne_size (map.insert key value) map.nodup with within | onlyPinned
    · exact absurd beyond (Nat.not_lt.mpr within)
    · exact absurd (beyond.trans_le (size_le_pinnedCount absent onlyPinned))
        (Nat.not_lt.mpr (Nat.succ_le_of_lt room))

end Newest

end InsertionMap
