import Mathlib.Data.List.Basic

/-! # Views that are derived row by row

A view has an entry for each row of a source from which one is derived. It is kept as a list,
as a set: how it goes along when rows leave the source, enter it or change.
-/

namespace DerivedView

variable {Source Entry : Type*}

/-- The entries are those derived from the rows. -/
def Shows (derive : Source → Option Entry) (sources : Source → Prop) (entries : List Entry) :
    Prop :=
  ∀ entry, entry ∈ entries ↔ ∃ source, sources source ∧ derive source = some entry

namespace Shows

variable {derive : Source → Option Entry} {sources next : Source → Prop} {entries : List Entry}

/-- Rows from which nothing is derived do not matter. -/
theorem congr (shows : Shows derive sources entries)
    (same : ∀ source entry, derive source = some entry → (next source ↔ sources source)) :
    Shows derive next entries := by
  intro entry
  rw [shows entry]
  refine exists_congr fun source => and_congr_left fun derived => ?_
  exact (same source entry derived).symm

/-- Rows that leave, with their entries. -/
theorem filter (shows : Shows derive sources entries) (keeps : Entry → Bool)
    (remain : ∀ source entry, derive source = some entry →
      (next source ↔ sources source ∧ keeps entry = true)) :
    Shows derive next (entries.filter keeps) := by
  intro entry
  rw [List.mem_filter, shows entry]
  constructor
  · rintro ⟨⟨source, member, derived⟩, kept⟩
    exact ⟨source, (remain source entry derived).mpr ⟨member, kept⟩, derived⟩
  · rintro ⟨source, member, derived⟩
    obtain ⟨old, kept⟩ := (remain source entry derived).mp member
    exact ⟨⟨source, old, derived⟩, kept⟩

/-- A row that enters. -/
theorem append (shows : Shows derive sources entries) (entered : Source)
    (grown : ∀ source, next source ↔ sources source ∨ source = entered) :
    Shows derive next (entries ++ (derive entered).toList) := by
  intro entry
  rw [List.mem_append, Option.mem_toList, shows entry]
  constructor
  · rintro (⟨source, member, derived⟩ | derived)
    · exact ⟨source, (grown source).mpr (.inl member), derived⟩
    · exact ⟨entered, (grown entered).mpr (.inr rfl), derived⟩
  · rintro ⟨source, member, derived⟩
    rcases (grown source).mp member with old | rfl
    · exact .inl ⟨source, old, derived⟩
    · exact .inr derived

/-- Rows that change, with entries that change as they do. -/
theorem map (shows : Shows derive sources entries) (change : Source → Source)
    (relabel : Entry → Entry)
    (changed : ∀ source, next source ↔ ∃ old, sources old ∧ change old = source)
    (commutes : ∀ source, derive (change source) = (derive source).map relabel) :
    Shows derive next (entries.map relabel) := by
  intro entry
  rw [List.mem_map]
  constructor
  · rintro ⟨before, member, rfl⟩
    obtain ⟨source, present, derived⟩ := (shows before).mp member
    refine ⟨change source, (changed _).mpr ⟨source, present, rfl⟩, ?_⟩
    rw [commutes, derived, Option.map_some]
  · rintro ⟨source, present, derived⟩
    obtain ⟨old, member, rfl⟩ := (changed source).mp present
    rw [commutes] at derived
    obtain ⟨before, derivedBefore, rfl⟩ := Option.map_eq_some_iff.mp derived
    exact ⟨before, (shows before).mpr ⟨old, member, derivedBefore⟩, rfl⟩

end Shows

end DerivedView
