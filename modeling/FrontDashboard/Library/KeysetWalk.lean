import FrontDashboard.Library.Keyset

/-! # Walks through the pages of a keyset

A walk takes in one page after the other, each asked for with the cursor of the page
before. A row that keeps its place is on exactly one of the pages.
-/

namespace Keyset

/-- The pages of a walk, and the cursor of the last of them. -/
structure Walk (Page Cursor : Type*) where
  pages : List Page
  cursor : Option Cursor
  first : pages = [] → cursor = none

namespace Walk

variable {Page Cursor Place : Type*}

def begin : Walk Page Cursor := ⟨[], none, fun _ => rfl⟩

def take (walk : Walk Page Cursor) (page : Page) (cursor : Option Cursor) : Walk Page Cursor :=
  ⟨walk.pages ++ [page], cursor, fun empty => by simp at empty⟩

def Ended (walk : Walk Page Cursor) : Prop := walk.pages ≠ [] ∧ walk.cursor = none

instance (walk : Walk Page Cursor) : Decidable walk.Ended :=
  inferInstanceAs (Decidable (walk.pages ≠ [] ∧ walk.cursor = none))

variable (placeOf : Cursor → Place)

def stand (walk : Walk Page Cursor) : Stand Place :=
  if walk.pages = [] then Stand.asked none else Stand.left (walk.cursor.map placeOf)

variable {placeOf} {walk : Walk Page Cursor}

theorem stand_take (page : Page) (cursor : Option Cursor) :
    (walk.take page cursor).stand placeOf = Stand.left (cursor.map placeOf) :=
  if_neg (by simp [take])

/-- What is asked for begins where the walk stands. -/
theorem asked_eq_stand (further : ¬ walk.Ended) :
    Stand.asked (walk.cursor.map placeOf) = walk.stand placeOf := by
  by_cases empty : walk.pages = []
  · rw [stand, if_pos empty, walk.first empty]
    rfl
  · obtain ⟨cursor, goes⟩ := Option.ne_none_iff_exists'.mp fun none => further ⟨empty, none⟩
    rw [stand, if_neg empty, goes]
    rfl

theorem stand_of_ended (ended : walk.Ended) : walk.stand placeOf = ⊥ := by
  rw [stand, if_neg ended.1, ended.2]
  rfl

end Walk

section Once

variable {Row Key Place : Type*} [LinearOrder Place] [DecidableEq Key]
variable {place : Row → Place} {key : Row → Key} {size : Nat} {cursor : Option Place}
variable {rows : List Row} {row : Row} {shown : List Key}

/-- The row was shown once and is behind, or was not and is ahead. -/
def Once (place : Row → Place) (key : Row → Key) (shown : List Key) (stand : Stand Place)
    (row : Row) : Prop :=
  shown.count (key row) = 1 ∧ ¬ Ahead place stand row ∨
    shown.count (key row) = 0 ∧ Ahead place stand row

theorem once_begin (row : Row) : Once place key [] (Stand.asked none) row :=
  .inr ⟨List.count_nil, ahead_asked.mpr rfl⟩

omit [DecidableEq Key] in
/-- Of the rows with the key of a listed row, a page holds that row only. -/
theorem mem_page_of_key (distinct : (rows.map key).Nodup) (present : row ∈ rows)
    (shows : key row ∈ (page size (found place size cursor rows)).map key) :
    row ∈ page size (found place size cursor rows) := by
  obtain ⟨other, onPage, same⟩ := List.mem_map.mp shows
  have listed := (mem_rows_of_mem_found (mem_found_of_mem_page onPage)).1
  rwa [List.inj_on_of_nodup_map distinct listed present same] at onPage

/-- **A page** shows the row if it is ahead and leaves it behind then. -/
theorem once_take (positive : 0 < size) (distinct : (rows.map key).Nodup)
    (places : (rows.map place).Nodup) (present : row ∈ rows)
    (once : Once place key shown (Stand.asked cursor) row) :
    Once place key (shown ++ (page size (found place size cursor rows)).map key)
      (Stand.left (next place size (found place size cursor rows))) row := by
  have single := @page_nodup _ _ _ place size cursor rows _ key distinct
  rw [Once, List.count_append]
  rcases once with ⟨shownOnce, behind⟩ | ⟨notShown, ahead⟩
  · have absent : key row ∉ (page size (found place size cursor rows)).map key := by
      intro shows
      have onPage := mem_page_of_key distinct present shows
      exact behind (mem_rows_of_mem_found (mem_found_of_mem_page onPage)).2
    refine .inl ⟨by rw [shownOnce, List.count_eq_zero.mpr absent], ?_⟩
    intro ahead
    exact behind (lt_trans ahead left_lt_asked)
  · rcases mem_page_or_ahead positive places present ahead with onPage | later
    · have shows := List.count_eq_one_of_mem single (List.mem_map_of_mem onPage)
      exact .inl ⟨by rw [notShown, shows], not_ahead_of_mem_page onPage⟩
    · have absent : key row ∉ (page size (found place size cursor rows)).map key := by
        intro shows
        exact not_ahead_of_mem_page (mem_page_of_key distinct present shows) later
      exact .inr ⟨by rw [notShown, List.count_eq_zero.mpr absent], later⟩

/-- A row of the same key and place stands for the row. -/
theorem Once.congr {stand : Stand Place} {other : Row} (once : Once place key shown stand row)
    (sameKey : key other = key row) (samePlace : place other = place row) :
    Once place key shown stand other := by
  rw [Once, Ahead, sameKey, samePlace]
  exact once

/-- Nothing is ahead of a walk that has ended. -/
theorem count_of_bot (once : Once place key shown ⊥ row) : shown.count (key row) = 1 := by
  rcases once with ⟨shownOnce, _⟩ | ⟨_, ahead⟩
  · exact shownOnce
  · exact absurd ahead not_lt_bot

end Once

/-! ## The pages that are answered -/

section Answers

variable {Row Key Place Page Cursor : Type*} [LinearOrder Place]

/-- The keys on a page and the cursor with it are those of a page of the rows. -/
structure Answers (place : Row → Place) (key : Row → Key) (size : Nat) (rows : List Row)
    (cursor : Option Place) (keys : List Key) (next : Option Place) : Prop where
  keys : keys = (page size (found place size cursor rows)).map key
  next : next = Keyset.next place size (found place size cursor rows)

variable {place : Row → Place} {key : Row → Key} {placeOf : Cursor → Place} {size : Nat}
variable {rows : List Row} {keys shown : List Key} {walk : Walk Page Cursor}
  {cursor : Option Cursor}

/-- **A walk** that takes in a page goes down. -/
theorem Answers.stand_lt (further : ¬ walk.Ended) (page : Page)
    (answers : Answers place key size rows (walk.cursor.map placeOf) keys (cursor.map placeOf)) :
    (walk.take page cursor).stand placeOf < walk.stand placeOf := by
  rw [Walk.stand_take, answers.next, ← Walk.asked_eq_stand further]
  exact left_lt_asked

theorem Answers.once [DecidableEq Key] {row : Row} (further : ¬ walk.Ended) (page : Page)
    (answers : Answers place key size rows (walk.cursor.map placeOf) keys (cursor.map placeOf))
    (positive : 0 < size) (distinct : (rows.map key).Nodup) (places : (rows.map place).Nodup)
    (present : row ∈ rows) (once : Once place key shown (walk.stand placeOf) row) :
    Once place key (shown ++ keys) ((walk.take page cursor).stand placeOf) row := by
  rw [← Walk.asked_eq_stand further] at once
  rw [Walk.stand_take, answers.next, answers.keys]
  exact once_take positive distinct places present once

omit [LinearOrder Place] in
/-- Rows whose places tell their keys have a place each. -/
theorem places_of_keys (distinct : (rows.map key).Nodup)
    (tells : ∀ first second, place first = place second → key first = key second) :
    (rows.map place).Nodup := by
  apply List.pairwise_map.mpr
  exact (List.pairwise_map.mp distinct).imp fun apart same => apart (tells _ _ same)

end Answers

end Keyset
