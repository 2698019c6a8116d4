import FrontDashboard.Library.Uuid
import Mathlib.Data.List.Nodup

/-! # The preferences document

The `preferences` column of a user holds a free-form JSON object. The home dashboard and
the favorite dashboards are two of its keys, their values the texts of dashboard ids.
-/

namespace FrontDashboard.Preferences

inductive Json
  | null
  | boolean (value : Bool)
  | number (value : Int)
  | text (value : String)
  | array (items : List Json)
  | object (entries : List (String × Json))

/-- A Python dict with its entries in order. -/
abbrev Document := List (String × Json)

namespace Document

def get (key : String) (document : Document) : Option Json := document.lookup key

/-- The value replaces the key's own, or comes last. -/
def set (key : String) (value : Json) (document : Document) : Document :=
  if (document.lookup key).isSome then
    document.map fun entry => if entry.1 = key then (entry.1, value) else entry
  else document ++ [(key, value)]

theorem get_map_of_ne {key other : String} {value : Json} (different : other ≠ key)
    (document : Document) :
    get other (document.map fun entry => if entry.1 = key then (entry.1, value) else entry) =
      get other document := by
  unfold get
  induction document with
  | nil => rfl
  | cons entry rest ih =>
      obtain ⟨name, stored⟩ := entry
      by_cases same : name = key
      · subst same
        have elsewhere : (other == name) = false := by simpa using different
        simp [List.lookup_cons, elsewhere, ih]
      · simp [List.lookup_cons, same, ih]

theorem get_map_self {key : String} {value : Json} {document : Document}
    (present : (document.lookup key).isSome = true) :
    get key (document.map fun entry => if entry.1 = key then (entry.1, value) else entry) =
      some value := by
  unfold get
  induction document with
  | nil => simp at present
  | cons entry rest ih =>
      obtain ⟨name, stored⟩ := entry
      by_cases same : name = key
      · subst same
        simp
      · have elsewhere : (key == name) = false := by simpa using Ne.symm same
        rw [List.lookup_cons, elsewhere] at present
        simp [List.lookup_cons, same, elsewhere, ih present]

@[simp] theorem get_set_self (key : String) (value : Json) (document : Document) :
    get key (document.set key value) = some value := by
  unfold set
  split
  next present => exact get_map_self present
  next absent =>
    have missing : document.lookup key = none := Option.not_isSome_iff_eq_none.mp absent
    simp [get, List.lookup_append, missing]

theorem get_set_of_ne {key other : String} (different : other ≠ key) (value : Json)
    (document : Document) : get other (document.set key value) = get other document := by
  unfold set
  split
  · exact get_map_of_ne different document
  · have elsewhere : (other == key) = false := by simpa using different
    simp [get, List.lookup_append, List.lookup_cons, elsewhere]

end Document

def homeKey : String := "home_dashboard_id"

def favoritesKey : String := "favorite_dashboard_ids"

theorem home_ne_favorites : homeKey ≠ favoritesKey := by decide

/-- The list that a value is, or nothing. -/
def Json.items : Option Json → List Json
  | some (.array items) => items
  | _ => []

/-- The ids that can be read from a list of values, in canonical text, each once. -/
def readFavorites : List String → List Json → List String
  | seen, [] => seen
  | seen, .text value :: rest =>
      match Uuid.read value with
      | none => readFavorites seen rest
      | some id =>
          if id.text ∈ seen then readFavorites seen rest else readFavorites (seen ++ [id.text]) rest
  | seen, _ :: rest => readFavorites seen rest

/-- `favorite_dashboard_id_strings_from_preferences`. -/
def favoriteDashboardIdStrings (document : Document) : List String :=
  readFavorites [] (Json.items (document.get favoritesKey))

/-- The home dashboard of the document is the given one. -/
def isHome (id : Uuid) (document : Document) : Bool :=
  match document.get homeKey with
  | some (.text value) => value == id.text
  | _ => false

/-- The document without its home dashboard, where that is the given one. -/
def withoutHome (id : Uuid) (document : Document) : Document :=
  if isHome id document then document.set homeKey .null else document

/-- `remove_dashboard_from_preferences`. -/
def removeDashboard (document : Document) (id : Uuid) : Document :=
  let normalized := withoutHome id document
  let favorites := (favoriteDashboardIdStrings normalized).filter fun value => value ≠ id.text
  if favorites ≠ [] ∨ (normalized.get favoritesKey).isSome then
    normalized.set favoritesKey (.array (favorites.map .text))
  else normalized

/-! ## Tidy documents -/

/-- The home dashboard and the favorites are canonical texts of ids that are named, no
favorite twice. -/
structure Tidy (named : Uuid → Prop) (document : Document) : Prop where
  home : ∀ value ∈ document.get homeKey, value = .null ∨ ∃ id, value = .text id.text ∧ named id
  favorites : ∀ value ∈ document.get favoritesKey, ∃ ids : List Uuid,
    value = .array (ids.map fun id => .text id.text) ∧ ids.Nodup ∧ ∀ id ∈ ids, named id

variable {named : Uuid → Prop} {document : Document}

theorem tidy_nil : Tidy named [] := ⟨nofun, nofun⟩

theorem Tidy.mono {more : Uuid → Prop} (tidy : Tidy named document)
    (implies : ∀ id, named id → more id) : Tidy more document where
  home := by
    intro value stored
    rcases tidy.home value stored with none_ | ⟨id, text, known⟩
    · exact .inl none_
    · exact .inr ⟨id, text, implies id known⟩
  favorites := by
    intro value stored
    obtain ⟨ids, list, nodup, known⟩ := tidy.favorites value stored
    exact ⟨ids, list, nodup, fun id member => implies id (known id member)⟩

/-- Another key is of no concern. -/
theorem Tidy.setHome (tidy : Tidy named document) {value : Json}
    (fits : value = .null ∨ ∃ id, value = .text id.text ∧ named id) :
    Tidy named (document.set homeKey value) where
  home := by
    rw [Document.get_set_self]
    intro stored same
    rw [← Option.some.inj same]
    exact fits
  favorites := by
    rw [Document.get_set_of_ne home_ne_favorites.symm]
    exact tidy.favorites

theorem Tidy.setFavorites (tidy : Tidy named document) {ids : List Uuid} (nodup : ids.Nodup)
    (known : ∀ id ∈ ids, named id) :
    Tidy named (document.set favoritesKey (.array (ids.map fun id => .text id.text))) where
  home := by
    rw [Document.get_set_of_ne home_ne_favorites]
    exact tidy.home
  favorites := by
    rw [Document.get_set_self]
    intro stored same
    rw [← Option.some.inj same]
    exact ⟨ids, rfl, nodup, known⟩

/-- Of canonical texts, reading keeps those that were not seen. -/
theorem readFavorites_texts {seen ids : List Uuid} (distinct : (seen ++ ids).Nodup) :
    readFavorites (seen.map Uuid.text) (ids.map fun id => .text id.text) =
      (seen ++ ids).map Uuid.text := by
  induction ids generalizing seen with
  | nil => simp [readFavorites]
  | cons id rest ih =>
      have fresh : id ∉ seen := by
        intro member
        exact List.disjoint_of_nodup_append distinct member List.mem_cons_self
      have absent : id.text ∉ seen.map Uuid.text := by
        intro member
        obtain ⟨other, among, same⟩ := List.mem_map.mp member
        exact fresh (Uuid.text_injective same ▸ among)
      have regrouped : seen ++ id :: rest = (seen ++ [id]) ++ rest := by simp
      rw [regrouped] at distinct ⊢
      rw [← ih distinct]
      simp [readFavorites, Uuid.read_text, absent]

/-- The favorites of a tidy document are read as they stand. -/
theorem Tidy.favoriteDashboardIdStrings_eq (tidy : Tidy named document) :
    ∃ ids : List Uuid, favoriteDashboardIdStrings document = ids.map Uuid.text ∧ ids.Nodup ∧
      ∀ id ∈ ids, named id := by
  unfold favoriteDashboardIdStrings
  cases stored : document.get favoritesKey with
  | none => exact ⟨[], rfl, List.nodup_nil, List.forall_mem_nil _⟩
  | some value =>
      obtain ⟨ids, rfl, nodup, known⟩ := tidy.favorites value stored
      refine ⟨ids, ?_, nodup, known⟩
      exact @readFavorites_texts [] ids nodup

theorem get_favorites_withoutHome (gone : Uuid) (document : Document) :
    (withoutHome gone document).get favoritesKey = document.get favoritesKey := by
  unfold withoutHome
  split
  · exact Document.get_set_of_ne home_ne_favorites.symm _ _
  · rfl

theorem Tidy.home_withoutHome (tidy : Tidy named document) (gone : Uuid) :
    ∀ value ∈ (withoutHome gone document).get homeKey,
      value = .null ∨ ∃ id, value = .text id.text ∧ named id ∧ id ≠ gone := by
  unfold withoutHome
  split
  next =>
    rw [Document.get_set_self]
    intro value stored
    exact .inl (Option.some.inj stored).symm
  next elsewhere =>
    intro value stored
    rcases tidy.home value stored with none_ | ⟨id, rfl, known⟩
    · exact .inl none_
    · refine .inr ⟨id, rfl, known, ?_⟩
      intro same
      subst same
      simp [isHome, Option.mem_def.mp stored] at elsewhere

/-- **Removing a dashboard** leaves a document that names it no more. -/
theorem Tidy.removeDashboard (tidy : Tidy named document) (gone : Uuid) :
    Tidy (fun id => named id ∧ id ≠ gone) (removeDashboard document gone) := by
  have same : favoriteDashboardIdStrings (Preferences.withoutHome gone document) =
      favoriteDashboardIdStrings document := by
    unfold favoriteDashboardIdStrings
    rw [get_favorites_withoutHome]
  obtain ⟨ids, read, nodup, known⟩ := tidy.favoriteDashboardIdStrings_eq
  have kept : (ids.map Uuid.text).filter (fun value => value ≠ gone.text) =
      (ids.filter fun id => id ≠ gone).map Uuid.text := by
    rw [List.filter_map]
    congr 1
    apply List.filter_congr
    intro id _
    simp [Uuid.text_injective.eq_iff]
  unfold Preferences.removeDashboard
  dsimp only
  rw [same, read, kept]
  split
  next =>
    constructor
    · rw [Document.get_set_of_ne home_ne_favorites]
      exact tidy.home_withoutHome gone
    · rw [Document.get_set_self]
      intro value stored
      refine ⟨ids.filter fun id => id ≠ gone, ?_, nodup.filter _, ?_⟩
      · rw [← Option.some.inj stored, List.map_map]
        rfl
      · intro id member
        obtain ⟨among, different⟩ := List.mem_filter.mp member
        exact ⟨known id among, of_decide_eq_true different⟩
  next nothing =>
    refine ⟨tidy.home_withoutHome gone, ?_⟩
    intro value stored
    exact absurd (.inr (Option.isSome_of_mem stored)) nothing

end FrontDashboard.Preferences
