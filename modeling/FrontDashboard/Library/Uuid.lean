import Mathlib.Algebra.Ring.Nat
import Mathlib.Data.Fin.Basic

/-! # UUIDs and their text

A UUID is 32 hexadecimal digits. Its canonical text is lower case, with hyphens;
reading also accepts upper case, braces, a URN prefix and other hyphens, or none, and the
32 characters that are left may be any hexadecimal integer.
-/

@[ext] structure Uuid where
  digits : List (Fin 16)
  length_eq : digits.length = 32
  deriving DecidableEq

namespace Uuid

instance : NeZero 16 := ⟨by decide⟩

def alphabet : List Char :=
  ['0', '1', '2', '3', '4', '5', '6', '7', '8', '9', 'a', 'b', 'c', 'd', 'e', 'f']

def hexChar (digit : Fin 16) : Char := alphabet.getD digit '0'

def hexDigit (char : Char) : Option (Fin 16) :=
  let index := alphabet.idxOf char.toLower
  if small : index < 16 then some ⟨index, small⟩ else none

/-- Digits in groups of 8, 4, 4, 4 and 12. -/
def hyphenated (chars : List Char) : List Char :=
  chars.take 8 ++ '-' :: ((chars.drop 8).take 4 ++ '-' :: ((chars.drop 12).take 4 ++
    '-' :: ((chars.drop 16).take 4 ++ '-' :: chars.drop 20)))

/-- The canonical text. -/
def text (uuid : Uuid) : String := String.ofList (hyphenated (uuid.digits.map hexChar))

/-- The text without the occurrences of a pattern, from left to right. `skip` counts the
characters that remain of an occurrence. -/
def without (pattern : List Char) : Nat → List Char → List Char
  | _, [] => []
  | skip + 1, _ :: rest => without pattern skip rest
  | 0, char :: rest =>
      if pattern.isPrefixOf (char :: rest) then without pattern (pattern.length - 1) rest
      else char :: without pattern 0 rest

def isBrace (char : Char) : Bool := char = '\x7b' || char = '\x7d'

/-- The text without what is dropped at its ends. -/
def strip (dropped : Char → Bool) (chars : List Char) : List Char :=
  ((chars.dropWhile dropped).reverse.dropWhile dropped).reverse

def isSpace (char : Char) : Bool := char = ' ' || (9 ≤ char.toNat && char.toNat ≤ 13)

/-- The digits of a text, in which single underscores may stand `between` digits. -/
def digitRun : Bool → List Char → Option (List (Fin 16))
  | between, [] => if between then some [] else none
  | between, char :: rest =>
      if char = '_' then if between then digitRun false rest else none
      else (hexDigit char).bind fun digit => (digitRun true rest).map (digit :: ·)

/-- `int(text, 16)` of a text without a minus sign: spaces around it, a plus sign, the prefix
of the base and underscores are accepted. Digits and spaces are those of ASCII. -/
def integer (chars : List Char) : Option (List (Fin 16)) :=
  let trimmed := strip isSpace chars
  let unsigned := if trimmed.head? = some '+' then trimmed.tail else trimmed
  if (unsigned.take 2).map Char.toLower = ['0', 'x'] then
    if unsigned.drop 2 = [] then none else digitRun true (unsigned.drop 2)
  else digitRun false unsigned

/-- The UUID of an integer, with zeros in front. -/
def ofDigits (digits : List (Fin 16)) : Uuid :=
  ⟨(List.replicate 32 0 ++ digits).drop digits.length, by
    rw [List.length_drop, List.length_append, List.length_replicate, Nat.add_sub_cancel]⟩

/-- The UUID of a text, which is 32 characters but for prefix, braces and hyphens. -/
def read (source : String) : Option Uuid :=
  let bare := without ['u', 'u', 'i', 'd', ':'] 0 (without ['u', 'r', 'n', ':'] 0 source.toList)
  let chars := (strip isBrace bare).filter fun char => char ≠ '-'
  if chars.length = 32 then (integer chars).map ofDigits else none

theorem hexDigit_hexChar (digit : Fin 16) : hexDigit (hexChar digit) = some digit := by
  revert digit
  decide

/-- A digit is no letter of a prefix, no brace, no hyphen and no space. -/
theorem hexChar_plain (digit : Fin 16) :
    hexChar digit ≠ 'u' ∧ isBrace (hexChar digit) = false ∧ hexChar digit ≠ '-' ∧
      isSpace (hexChar digit) = false ∧ hexChar digit ≠ '+' ∧ hexChar digit ≠ '_' ∧
      (hexChar digit).toLower ≠ 'x' := by
  revert digit
  decide

/-- Nothing is removed from a text that lacks the first letter of the pattern. -/
theorem without_eq_self {first : Char} {pattern chars : List Char} (lacks : first ∉ chars) :
    without (first :: pattern) 0 chars = chars := by
  induction chars with
  | nil => rfl
  | cons char rest ih =>
      have different : first ≠ char := fun same => lacks (by simp [same])
      have elsewhere : first ∉ rest := fun member => lacks (List.mem_cons_of_mem _ member)
      simp [without, different, ih elsewhere]

theorem strip_eq_self {dropped : Char → Bool} {chars : List Char}
    (plain : ∀ char ∈ chars, dropped char = false) : strip dropped chars = chars := by
  have kept {part : List Char} (within : ∀ char ∈ part, char ∈ chars) :
      part.dropWhile dropped = part := by
    cases part with
    | nil => rfl
    | cons char rest => simp [plain char (within char List.mem_cons_self)]
  rw [strip, kept fun _ => id, kept (by simp), List.reverse_reverse]

theorem mem_hyphenated {chars : List Char} {char : Char} (member : char ∈ hyphenated chars) :
    char = '-' ∨ char ∈ chars := by
  simp only [hyphenated, List.mem_append, List.mem_cons] at member
  rcases member with front | rfl | front | rfl | front | rfl | front | rfl | back
  · exact .inr (List.mem_of_mem_take front)
  · exact .inl rfl
  · exact .inr (List.mem_of_mem_drop (List.mem_of_mem_take front))
  · exact .inl rfl
  · exact .inr (List.mem_of_mem_drop (List.mem_of_mem_take front))
  · exact .inl rfl
  · exact .inr (List.mem_of_mem_drop (List.mem_of_mem_take front))
  · exact .inl rfl
  · exact .inr (List.mem_of_mem_drop back)

/-- Without its hyphens the text is the digits. -/
theorem filter_hyphenated {chars : List Char} (plain : ∀ char ∈ chars, char ≠ '-') :
    (hyphenated chars).filter (fun char => char ≠ '-') = chars := by
  have kept : ∀ part : List Char, (∀ char ∈ part, char ∈ chars) →
      part.filter (fun char => char ≠ '-') = part := by
    intro part within
    rw [List.filter_eq_self]
    intro char member
    simpa using plain char (within char member)
  have first := kept (chars.take 8) fun _ => List.mem_of_mem_take
  have second := kept ((chars.drop 8).take 4) fun _ member =>
    List.mem_of_mem_drop (List.mem_of_mem_take member)
  have third := kept ((chars.drop 12).take 4) fun _ member =>
    List.mem_of_mem_drop (List.mem_of_mem_take member)
  have fourth := kept ((chars.drop 16).take 4) fun _ member =>
    List.mem_of_mem_drop (List.mem_of_mem_take member)
  have fifth := kept (chars.drop 20) fun _ => List.mem_of_mem_drop
  rw [hyphenated, List.filter_append, List.filter_cons_of_neg (by simp), List.filter_append,
    List.filter_cons_of_neg (by simp), List.filter_append, List.filter_cons_of_neg (by simp),
    List.filter_append, List.filter_cons_of_neg (by simp), first, second, third, fourth, fifth]
  rw [show chars.drop 20 = (chars.drop 16).drop 4 by simp, List.take_append_drop,
    show chars.drop 16 = (chars.drop 12).drop 4 by simp, List.take_append_drop,
    show chars.drop 12 = (chars.drop 8).drop 4 by simp, List.take_append_drop,
    List.take_append_drop]

theorem digitRun_map_hexChar (digits : List (Fin 16)) :
    digitRun true (digits.map hexChar) = some digits := by
  induction digits with
  | nil => rfl
  | cons digit rest ih =>
      rw [List.map_cons, digitRun, if_neg (hexChar_plain digit).2.2.2.2.2.1, hexDigit_hexChar, ih]
      rfl

/-- The digits of an integer are read back. -/
theorem integer_map_hexChar {digits : List (Fin 16)} (some_digit : digits ≠ []) :
    integer (digits.map hexChar) = some digits := by
  have spaceless : strip isSpace (digits.map hexChar) = digits.map hexChar :=
    strip_eq_self (List.forall_mem_map.mpr fun digit _ => (hexChar_plain digit).2.2.2.1)
  obtain ⟨digit, rest, rfl⟩ := List.exists_cons_of_ne_nil some_digit
  have unsigned : ((digit :: rest).map hexChar).head? ≠ some '+' := fun signed =>
    (hexChar_plain digit).2.2.2.2.1 (Option.some.inj signed)
  have noPrefix : (((digit :: rest).map hexChar).take 2).map Char.toLower ≠ ['0', 'x'] := by
    cases rest with
    | nil => simp
    | cons second rest =>
        intro same
        exact (hexChar_plain second).2.2.2.2.2.2 (List.cons.inj (List.cons.inj same).2).1
  rw [integer, spaceless, if_neg unsigned, if_neg noPrefix, List.map_cons, digitRun,
    if_neg (hexChar_plain digit).2.2.2.2.2.1, hexDigit_hexChar, digitRun_map_hexChar]
  rfl

theorem ofDigits_digits (uuid : Uuid) : ofDigits uuid.digits = uuid := by
  ext1
  simp [ofDigits, uuid.length_eq]

/-- **A text is read back** as the UUID it is the text of. -/
theorem read_text (uuid : Uuid) : read uuid.text = some uuid := by
  have letters : ∀ char ∈ hyphenated (uuid.digits.map hexChar),
      char ≠ 'u' ∧ isBrace char = false := by
    intro char member
    rcases mem_hyphenated member with rfl | member
    · decide
    · obtain ⟨digit, _, rfl⟩ := List.mem_map.mp member
      exact ⟨(hexChar_plain digit).1, (hexChar_plain digit).2.1⟩
  have lacks : 'u' ∉ hyphenated (uuid.digits.map hexChar) := fun member =>
    (letters 'u' member).1 rfl
  have hyphens : ∀ char ∈ uuid.digits.map hexChar, char ≠ '-' :=
    List.forall_mem_map.mpr fun digit _ => (hexChar_plain digit).2.2.1
  have nonempty : uuid.digits ≠ [] := by
    intro empty
    have length := uuid.length_eq
    rw [empty] at length
    cases length
  simp only [read, text, String.toList_ofList, without_eq_self lacks,
    strip_eq_self fun char member => (letters char member).2, filter_hyphenated hyphens,
    List.length_map, uuid.length_eq, integer_map_hexChar nonempty, Option.map_some,
    ofDigits_digits, if_true]

/-- The value of the digits, which orders UUIDs as their bytes do. -/
def number (uuid : Uuid) : Nat :=
  uuid.digits.foldl (fun value digit => 16 * value + digit.val) 0

theorem foldl_digits_injective {first second : List (Fin 16)}
    (length : first.length = second.length) {value other : Nat}
    (same : first.foldl (fun value digit => 16 * value + digit.val) value =
      second.foldl (fun value digit => 16 * value + digit.val) other) :
    value = other ∧ first = second := by
  induction first generalizing second value other with
  | nil =>
      rw [List.length_nil, eq_comm, List.length_eq_zero_iff] at length
      subst length
      exact ⟨same, rfl⟩
  | cons digit rest ih =>
      cases second with
      | nil => cases length
      | cons digit' rest' =>
          obtain ⟨values, rests⟩ := ih (Nat.succ.inj length) same
          dsimp only at values
          have digits : digit.val = digit'.val := by omega
          exact ⟨by omega, by rw [Fin.ext digits, rests]⟩

theorem number_injective : Function.Injective number := by
  intro first second same
  have lengths := first.length_eq.trans second.length_eq.symm
  exact Uuid.ext (foldl_digits_injective lengths same).2

theorem text_injective : Function.Injective text := by
  intro first second same
  have read_first := read_text first
  rw [same, read_text] at read_first
  exact (Option.some.inj read_first).symm

end Uuid
