import Mathlib.Data.List.Nodup
import Mathlib.Logic.Function.Basic

/-! # Maps that remember insertion order

A finite map together with its keys in the order in which they were inserted.
Setting a present key keeps its place; deleting it and setting it again moves it
to the end. This is the map of ECMAScript, and the least recently inserted keys
come first in `keys`.
-/

/-- A finite map with its keys in insertion order. -/
structure InsertionMap (Key Value : Type*) where
  get : Key → Option Value
  keys : List Key
  nodup : keys.Nodup
  mem_keys : ∀ key, key ∈ keys ↔ (get key).isSome = true

namespace InsertionMap

variable {Key Value : Type*}

/-- The map with no keys. -/
def empty : InsertionMap Key Value where
  get := fun _ => none
  keys := []
  nodup := List.nodup_nil
  mem_keys := by simp

def size (map : InsertionMap Key Value) : Nat := map.keys.length

/-- A key that is held is among the keys. -/
theorem mem_keys_of_get {map : InsertionMap Key Value} {key : Key} {value : Value}
    (present : map.get key = some value) : key ∈ map.keys := by
  rw [map.mem_keys, present]
  rfl

/-- The values in the order of their keys. -/
def values (map : InsertionMap Key Value) : List Value := map.keys.filterMap map.get

/-- The values are those held. -/
theorem mem_values {map : InsertionMap Key Value} {value : Value} :
    value ∈ map.values ↔ ∃ key, map.get key = some value := by
  rw [values, List.mem_filterMap]
  constructor
  · rintro ⟨key, -, present⟩
    exact ⟨key, present⟩
  · rintro ⟨key, present⟩
    exact ⟨key, mem_keys_of_get present, present⟩

/-- Every value changed in place. -/
def mapValues (map : InsertionMap Key Value) (change : Value → Value) :
    InsertionMap Key Value where
  get := fun key => (map.get key).map change
  keys := map.keys
  nodup := map.nodup
  mem_keys := by
    intro key
    rw [map.mem_keys, Option.isSome_map]

/-- Changing every value changes what each key holds. -/
@[simp] theorem mapValues_get (map : InsertionMap Key Value) (change : Value → Value)
    (key : Key) : (map.mapValues change).get key = (map.get key).map change := rfl

/-- The map without the values that fail a test. -/
def filterValues (map : InsertionMap Key Value) (keep : Value → Bool) :
    InsertionMap Key Value where
  get := fun key => (map.get key).filter keep
  keys := map.keys.filter fun key => (map.get key).any keep
  nodup := map.nodup.filter _
  mem_keys := by
    intro key
    rw [List.mem_filter, map.mem_keys]
    cases map.get key with
    | none => simp
    | some value => by_cases kept : keep value = true <;> simp [kept]

/-- A filter keeps what passes it. -/
theorem filterValues_get (map : InsertionMap Key Value) (keep : Value → Bool) (key : Key) :
    (map.filterValues keep).get key = (map.get key).filter keep := rfl

/-- The values kept are those that pass. -/
theorem mem_values_filterValues {map : InsertionMap Key Value} {keep : Value → Bool}
    {value : Value} :
    value ∈ (map.filterValues keep).values ↔ value ∈ map.values ∧ keep value = true := by
  simp only [mem_values, filterValues_get, Option.filter_eq_some_iff]
  constructor
  · rintro ⟨key, present, kept⟩
    exact ⟨⟨key, present⟩, kept⟩
  · rintro ⟨⟨key, present⟩, kept⟩
    exact ⟨key, present, kept⟩

/-- Every value changed in place, each by its key. -/
def mapEntries (map : InsertionMap Key Value) (change : Key → Value → Value) :
    InsertionMap Key Value where
  get := fun key => (map.get key).map (change key)
  keys := map.keys
  nodup := map.nodup
  mem_keys := by
    intro key
    rw [map.mem_keys, Option.isSome_map]

@[simp] theorem mapEntries_get (map : InsertionMap Key Value) (change : Key → Value → Value)
    (key : Key) : (map.mapEntries change).get key = (map.get key).map (change key) := rfl

/-- The map without the entries that fail a test. -/
def filterEntries (map : InsertionMap Key Value) (keep : Key → Value → Bool) :
    InsertionMap Key Value where
  get := fun key => (map.get key).filter (keep key)
  keys := map.keys.filter fun key => (map.get key).any (keep key)
  nodup := map.nodup.filter _
  mem_keys := by
    intro key
    rw [List.mem_filter, map.mem_keys]
    cases map.get key with
    | none => simp
    | some value => by_cases kept : keep key value = true <;> simp [kept]

@[simp] theorem filterEntries_get (map : InsertionMap Key Value) (keep : Key → Value → Bool)
    (key : Key) : (map.filterEntries keep).get key = (map.get key).filter (keep key) := rfl

/-- The keys of the entries that pass a test, in their order. -/
def keysWhere (map : InsertionMap Key Value) (test : Key → Value → Bool) : List Key :=
  map.keys.filter fun key => (map.get key).any (test key)

/-- The keys whose entries pass a test. -/
theorem mem_keysWhere {map : InsertionMap Key Value} {test : Key → Value → Bool} {key : Key} :
    key ∈ map.keysWhere test ↔ ∃ value, map.get key = some value ∧ test key value = true := by
  rw [keysWhere, List.mem_filter, Option.any_eq_true]
  constructor
  · exact And.right
  · rintro ⟨value, present, passes⟩
    exact ⟨mem_keys_of_get present, value, present, passes⟩

variable [DecidableEq Key]

/-- The map without a key. -/
def delete (map : InsertionMap Key Value) (key : Key) : InsertionMap Key Value where
  get := Function.update map.get key none
  keys := map.keys.erase key
  nodup := map.nodup.erase key
  mem_keys := by
    intro candidate
    rw [map.nodup.mem_erase_iff]
    by_cases same : candidate = key
    · subst same
      simp
    · simp [same, map.mem_keys]

/-- A deleted key holds nothing. -/
@[simp] theorem delete_get_self (map : InsertionMap Key Value) (key : Key) :
    (map.delete key).get key = none := by
  simp only [delete, Function.update_self]

/-- A deletion leaves what the others hold. -/
theorem delete_get_of_ne (map : InsertionMap Key Value) {key other : Key}
    (different : other ≠ key) : (map.delete key).get other = map.get other := by
  simp only [delete, Function.update_of_ne different]

/-- What is still held is another key's. -/
theorem ne_of_delete_get {map : InsertionMap Key Value} {key other : Key} {value : Value}
    (present : (map.delete key).get other = some value) : other ≠ key := by
  rintro rfl
  simp at present

/-- What is left after a deletion was there before. -/
theorem get_of_delete {map : InsertionMap Key Value} {key other : Key} {value : Value}
    (present : (map.delete key).get other = some value) : map.get other = some value := by
  rw [delete_get_of_ne map (ne_of_delete_get present)] at present
  exact present

/-- The map with a key set to a value. -/
def insert (map : InsertionMap Key Value) (key : Key) (value : Value) :
    InsertionMap Key Value where
  get := Function.update map.get key (some value)
  keys := if key ∈ map.keys then map.keys else map.keys ++ [key]
  nodup := by
    split
    · exact map.nodup
    next absent =>
      rw [List.nodup_append_comm]
      exact List.nodup_cons.mpr ⟨absent, map.nodup⟩
  mem_keys := by
    intro candidate
    by_cases same : candidate = key
    · subst same
      by_cases present : candidate ∈ map.keys <;> simp [present]
    · by_cases present : key ∈ map.keys <;> simp [same, present, map.mem_keys candidate]

/-- An inserted key holds its value. -/
@[simp] theorem insert_get_self (map : InsertionMap Key Value) (key : Key) (value : Value) :
    (map.insert key value).get key = some value := by
  simp only [insert, Function.update_self]

/-- An insertion leaves what the others hold. -/
theorem insert_get_of_ne (map : InsertionMap Key Value) {key other : Key} (value : Value)
    (different : other ≠ key) : (map.insert key value).get other = map.get other := by
  simp only [insert, Function.update_of_ne different]

/-- A value in the map after a key is set is the new one or was there before. -/
theorem get_of_insert {map : InsertionMap Key Value} {key other : Key} {value found : Value}
    (present : (map.insert key value).get other = some found) :
    other = key ∧ found = value ∨ other ≠ key ∧ map.get other = some found := by
  by_cases same : other = key
  · subst same
    rw [insert_get_self] at present
    exact .inl ⟨rfl, (Option.some.inj present).symm⟩
  · rw [insert_get_of_ne map value same] at present
    exact .inr ⟨same, present⟩

/-- The map with a list of values set, each under its own key. -/
def insertAll (keyOf : Value → Key) (map : InsertionMap Key Value) (values : List Value) :
    InsertionMap Key Value :=
  values.foldl (fun map value => map.insert (keyOf value) value) map

/-- A key none of the values has keeps what it had. -/
theorem insertAll_get_of_absent {keyOf : Value → Key} {map : InsertionMap Key Value}
    {values : List Value} {key : Key} (absent : ∀ value ∈ values, keyOf value ≠ key) :
    (insertAll keyOf map values).get key = map.get key := by
  induction values generalizing map with
  | nil => rfl
  | cons value rest ih =>
      have later : (insertAll keyOf (map.insert (keyOf value) value) rest).get key =
          (map.insert (keyOf value) value).get key :=
        ih fun other member => absent other (List.mem_cons_of_mem _ member)
      rw [insertAll, List.foldl_cons]
      exact later.trans (insert_get_of_ne map value (absent value List.mem_cons_self).symm)

/-- A value that shares its key with no other is found under it. -/
theorem insertAll_get_of_mem {keyOf : Value → Key} {map : InsertionMap Key Value}
    {values : List Value}
    (unique : ∀ first ∈ values, ∀ second ∈ values, keyOf first = keyOf second → first = second)
    {value : Value} (member : value ∈ values) :
    (insertAll keyOf map values).get (keyOf value) = some value := by
  induction values generalizing map with
  | nil => cases member
  | cons head rest ih =>
      have uniqueRest : ∀ first ∈ rest, ∀ second ∈ rest,
          keyOf first = keyOf second → first = second :=
        fun first inFirst second inSecond =>
          unique first (List.mem_cons_of_mem _ inFirst) second (List.mem_cons_of_mem _ inSecond)
      rw [insertAll, List.foldl_cons]
      by_cases later : value ∈ rest
      · exact ih uniqueRest later
      · have same : value = head := (List.mem_cons.mp member).resolve_right later
        subst same
        have absent : ∀ other ∈ rest, keyOf other ≠ keyOf value := by
          intro other inRest equal
          rw [unique other (List.mem_cons_of_mem _ inRest) value List.mem_cons_self equal] at inRest
          exact later inRest
        exact (insertAll_get_of_absent absent).trans (insert_get_self map _ value)

/-- What is found is one of the values or was there before. -/
theorem get_of_insertAll {keyOf : Value → Key} {map : InsertionMap Key Value} {values : List Value}
    {key : Key} {value : Value} (present : (insertAll keyOf map values).get key = some value) :
    value ∈ values ∨ map.get key = some value := by
  induction values generalizing map with
  | nil => exact .inr present
  | cons head rest ih =>
      rcases ih present with later | before
      · exact .inl (List.mem_cons_of_mem head later)
      · rcases get_of_insert before with ⟨-, rfl⟩ | ⟨-, earlier⟩
        · exact .inl List.mem_cons_self
        · exact .inr earlier

/-- Each value is kept under its own key. -/
def Keyed (keyOf : Value → Key) (map : InsertionMap Key Value) : Prop :=
  ∀ key value, map.get key = some value → keyOf value = key

/-- Inserting a value under its own key keeps the map keyed. -/
theorem Keyed.insert {keyOf : Value → Key} {map : InsertionMap Key Value}
    (keyed : map.Keyed keyOf) (value : Value) : (map.insert (keyOf value) value).Keyed keyOf := by
  intro key found present
  rcases get_of_insert present with ⟨rfl, rfl⟩ | ⟨-, before⟩
  · rfl
  · exact keyed key found before

/-- Inserting several values keeps the map keyed. -/
theorem Keyed.insertAll {keyOf : Value → Key} {map : InsertionMap Key Value}
    (keyed : map.Keyed keyOf) (values : List Value) : (insertAll keyOf map values).Keyed keyOf := by
  induction values generalizing map with
  | nil => exact keyed
  | cons value rest ih => exact ih (keyed.insert value)

omit [DecidableEq Key] in
/-- A filter keeps the map keyed. -/
theorem Keyed.filterValues {keyOf : Value → Key} {map : InsertionMap Key Value}
    (keyed : map.Keyed keyOf) (keep : Value → Bool) : (map.filterValues keep).Keyed keyOf := by
  intro key value present
  rw [filterValues_get, Option.filter_eq_some_iff] at present
  exact keyed key value present.1

/-- The map with a present key moved to the end. -/
def touch (map : InsertionMap Key Value) (key : Key) : InsertionMap Key Value :=
  match map.get key with
  | none => map
  | some value => (map.delete key).insert key value

/-- Touching a key changes the order alone. -/
@[simp] theorem touch_get (map : InsertionMap Key Value) (key other : Key) :
    (map.touch key).get other = map.get other := by
  unfold touch
  split
  next => rfl
  next value present =>
    by_cases same : other = key
    · subst same
      rw [insert_get_self, present]
    · rw [insert_get_of_ne _ value same, delete_get_of_ne map same]

end InsertionMap
