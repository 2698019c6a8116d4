import Mathlib.Algebra.Ring.Nat
import FrontDashboard.Library.Gregorian
import Mathlib.Order.Fin.Basic

/-! # Timestamps and their ISO text

A timestamp is a number of microseconds since the calendar began, in UTC. Its text has
a fixed width but for the fraction, which is left out when it is zero.
-/

/-- The microseconds of the years 1 to 9999. -/
abbrev Timestamp := Fin (3652059 * 86400000000)

namespace Timestamp

instance : NeZero (3652059 * 86400000000) := ⟨by decide⟩

open Gregorian

/-! ## Decimal fields -/

/-- The last digits of a number, as many as the width. -/
def decimal : Nat → Nat → List Char
  | 0, _ => []
  | width + 1, value => decimal width (value / 10) ++ [Nat.digitChar (value % 10)]

def digit? (char : Char) : Option Nat :=
  if char.isDigit then some (char.toNat - '0'.toNat) else none

def readDecimal (chars : List Char) : Option Nat :=
  chars.foldlM (fun value char => (digit? char).map (10 * value + ·)) 0

variable {α : Type*}

/-- Reads a field of so many digits and goes on after it. -/
def readField (width : Nat) (next : Nat → List Char → Option α) (chars : List Char) : Option α :=
  if width ≤ chars.length then
    (readDecimal (chars.take width)).bind fun value => next value (chars.drop width)
  else none

def readChar (char : Char) (next : List Char → Option α) : List Char → Option α
  | [] => none
  | first :: rest => if first = char then next rest else none

/-- Reads the microseconds if they are there. -/
def readFraction (next : Nat → List Char → Option α) : List Char → Option α
  | '.' :: rest => readField 6 next rest
  | rest => next 0 rest

theorem readChar_cons (char : Char) (next : List Char → Option α) (rest : List Char) :
    readChar char next (char :: rest) = next rest :=
  if_pos rfl

theorem digit?_digitChar {digit : Nat} (small : digit < 10) :
    digit? (Nat.digitChar digit) = some digit := by
  revert digit
  decide

theorem length_decimal (width value : Nat) : (decimal width value).length = width := by
  induction width generalizing value with
  | zero => rfl
  | succ width ih => rw [decimal, List.length_append, ih, List.length_singleton]

theorem readDecimal_decimal (width value : Nat) :
    readDecimal (decimal width value) = some (value % 10 ^ width) := by
  induction width generalizing value with
  | zero => rw [Nat.pow_zero, Nat.mod_one]; rfl
  | succ width ih =>
      have front := ih (value / 10)
      rw [readDecimal] at front
      rw [readDecimal, decimal, List.foldlM_append, front]
      have digit : value % 10 < 10 := Nat.mod_lt _ (by decide)
      have split : 10 * (value / 10 % 10 ^ width) + value % 10 = value % 10 ^ (width + 1) := by
        rw [Nat.pow_succ', Nat.mod_mul]
        omega
      simp [digit?_digitChar digit, split]

/-- A number that fits a field is read from it. -/
theorem readField_decimal {width value : Nat} (fits : value < 10 ^ width)
    (next : Nat → List Char → Option α) (rest : List Char) :
    readField width next (decimal width value ++ rest) = next value rest := by
  have length := length_decimal width value
  rw [readField, if_pos (by rw [List.length_append, length]; exact Nat.le_add_right _ _),
    List.take_left' length, List.drop_left' length, readDecimal_decimal, Nat.mod_eq_of_lt fits,
    Option.bind_some]

/-! ## The text -/

def ofMicroseconds (value : Nat) : Option Timestamp :=
  if range : value < 3652059 * 86400000000 then some ⟨value, range⟩ else none

def ofFields (year month day hour minute second microsecond : Nat) : Nat :=
  (((toOrdinal year month day - 1) * 24 + hour) * 60 + minute) * 60000000 +
    second * 1000000 + microsecond

def formatted (date : Date) (hour minute second microsecond : Nat) : List Char :=
  decimal 4 date.year ++ '-' :: (decimal 2 date.month ++ '-' :: (decimal 2 date.day ++ 'T' ::
    (decimal 2 hour ++ ':' :: (decimal 2 minute ++ ':' :: (decimal 2 second ++
      ((if microsecond = 0 then [] else '.' :: decimal 6 microsecond) ++
        ['+', '0', '0', ':', '0', '0']))))))

def isoformat (timestamp : Timestamp) : List Char :=
  formatted (ofOrdinal (timestamp.val / 86400000000 + 1)) (timestamp.val / 3600000000 % 24)
    (timestamp.val / 60000000 % 60) (timestamp.val / 1000000 % 60) (timestamp.val % 1000000)

/-- The timestamp of a text that `isoformat` writes. The other forms that Python reads are
written nowhere and not read here. -/
def fromisoformat : List Char → Option Timestamp :=
  readField 4 fun year => readChar '-' <| readField 2 fun month => readChar '-' <|
    readField 2 fun day => readChar 'T' <| readField 2 fun hour => readChar ':' <|
      readField 2 fun minute => readChar ':' <| readField 2 fun second =>
        readFraction fun microsecond chars =>
          if chars = ['+', '0', '0', ':', '0', '0'] ∧ 1 ≤ year ∧ 1 ≤ month ∧ month ≤ 12 ∧
              1 ≤ day ∧ day ≤ daysInMonth year month ∧ hour < 24 ∧ minute < 60 ∧ second < 60 then
            ofMicroseconds (ofFields year month day hour minute second microsecond)
          else none

theorem readFraction_written {microsecond : Nat} (small : microsecond < 10 ^ 6)
    (next : Nat → List Char → Option α) {offset : List Char} (signed : '.' ∉ offset) :
    readFraction next ((if microsecond = 0 then [] else '.' :: decimal 6 microsecond) ++ offset) =
      next microsecond offset := by
  by_cases whole : microsecond = 0
  · rw [if_pos whole, whole, List.nil_append]
    cases offset with
    | nil => rfl
    | cons first rest =>
        have sign : first ≠ '.' := fun same => signed (by simp [same])
        simp [readFraction, sign]
  · rw [if_neg whole, List.cons_append, readFraction, readField_decimal small]

/-- Days of the calendar lie in a year of four digits. -/
theorem year_lt {ordinal : Nat} (positive : 1 ≤ ordinal) (last : ordinal ≤ 3652059) :
    (ofOrdinal ordinal).year < 10 ^ 4 := by
  obtain ⟨valid, same⟩ := toOrdinal_ofOrdinal positive
  by_contra later
  have before : daysBeforeYear 10000 ≤ daysBeforeYear (ofOrdinal ordinal).year :=
    daysBeforeYear_mono (Nat.le_of_not_lt later)
  have total : daysBeforeYear 10000 = 3652059 := by decide
  have day := valid.days.1
  rw [toOrdinal] at same
  omega

/-- The fields of a time of a day are read as they were written. -/
theorem fromisoformat_formatted {date : Date} {hour minute second microsecond : Nat}
    (valid : Valid date.year date.month date.day) (year : date.year < 10 ^ 4)
    (hours : hour < 24) (minutes : minute < 60) (seconds : second < 60)
    (microseconds : microsecond < 10 ^ 6) :
    fromisoformat (formatted date hour minute second microsecond) =
      ofMicroseconds (ofFields date.year date.month date.day hour minute second microsecond) := by
  have month : date.month < 10 ^ 2 := Nat.lt_of_le_of_lt valid.months.2 (by decide)
  have day : date.day < 10 ^ 2 :=
    Nat.lt_of_le_of_lt (Nat.le_trans valid.days.2 (daysInMonth_le _ _)) (by decide)
  rw [fromisoformat, formatted, readField_decimal year, readChar_cons, readField_decimal month,
    readChar_cons, readField_decimal day, readChar_cons,
    readField_decimal (Nat.lt_trans hours (by decide)), readChar_cons,
    readField_decimal (Nat.lt_trans minutes (by decide)), readChar_cons,
    readField_decimal (Nat.lt_trans seconds (by decide)),
    readFraction_written microseconds _ (by decide)]
  exact if_pos ⟨rfl, valid.years, valid.months.1, valid.months.2, valid.days.1, valid.days.2,
    hours, minutes, seconds⟩

/-- **A text is read back** as the timestamp it is the text of. -/
theorem fromisoformat_isoformat (timestamp : Timestamp) :
    fromisoformat (isoformat timestamp) = some timestamp := by
  obtain ⟨value, range⟩ := timestamp
  have ordinal : value / 86400000000 + 1 ≤ 3652059 := by omega
  obtain ⟨valid, same⟩ := toOrdinal_ofOrdinal (Nat.le_add_left 1 (value / 86400000000))
  have whole : ofFields (ofOrdinal (value / 86400000000 + 1)).year
      (ofOrdinal (value / 86400000000 + 1)).month (ofOrdinal (value / 86400000000 + 1)).day
      (value / 3600000000 % 24) (value / 60000000 % 60) (value / 1000000 % 60)
      (value % 1000000) = value := by
    rw [ofFields, same]
    omega
  rw [isoformat, fromisoformat_formatted valid (year_lt (Nat.le_add_left 1 _) ordinal)
    (Nat.mod_lt _ (by decide)) (Nat.mod_lt _ (by decide)) (Nat.mod_lt _ (by decide))
    (show value % 1000000 < 10 ^ 6 from Nat.mod_lt _ (by decide)), whole,
    ofMicroseconds, dif_pos range]

end Timestamp
