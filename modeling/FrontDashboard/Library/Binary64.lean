import Mathlib.Data.Int.Log
import Mathlib.Data.Rat.Floor
import Mathlib.Tactic.Linarith
import Mathlib.Tactic.NormNum

/-! # Rounding to binary64

A rational is rounded to the nearest multiple of its unit in the last place, a tie to the
even one, and there is no result where that is past the largest number of the format.
-/

namespace Binary64

/-- The nearest integer, and of two the even one. -/
def roundHalfEven (q : ℚ) : Int :=
  let below := ⌊q⌋
  let rest := q - below
  if rest < 1 / 2 then below
  else if 1 / 2 < rest then below + 1
  else if below % 2 = 0 then below
  else below + 1

/-- The unit in the last place: 53 bits of precision, down to the subnormal numbers. -/
def ulp (q : ℚ) : ℚ := 2 ^ max (Int.log 2 |q| - 52) (-1074)

/-- The number of the format, or none when it would be infinite. -/
def round (q : ℚ) : Option ℚ :=
  let rounded := roundHalfEven (q / ulp q) * ulp q
  if |rounded| < 2 ^ 1024 then some rounded else none

theorem roundHalfEven_error (q : ℚ) : |(roundHalfEven q : ℚ) - q| ≤ 1 / 2 := by
  have below := Int.floor_le q
  have above := Int.lt_floor_add_one q
  have next : ((⌊q⌋ + 1 : Int) : ℚ) = ⌊q⌋ + 1 := by push_cast; rfl
  rw [abs_le]
  unfold roundHalfEven
  dsimp only
  split_ifs with less more even
  · constructor <;> linarith
  · rw [next]
    constructor <;> linarith
  · constructor <;> linarith
  · rw [next]
    constructor <;> linarith

theorem ulp_pos (q : ℚ) : 0 < ulp q := zpow_pos (by norm_num) _

theorem ulp_le (q : ℚ) : ulp q ≤ max |q| 1 := by
  unfold ulp
  rcases le_total (Int.log 2 |q| - 52) (-1074) with subnormal | normal
  · rw [max_eq_right subnormal]
    apply le_max_of_le_right
    exact zpow_le_one_of_nonpos₀ (by norm_num) (by norm_num)
  · rw [max_eq_left normal]
    by_cases zero : q = 0
    · subst zero
      apply le_max_of_le_right
      simp only [abs_zero, Int.log_zero_right]
      exact zpow_le_one_of_nonpos₀ (by norm_num) (by norm_num)
    · apply le_max_of_le_left
      have power : (2 : ℚ) ^ Int.log 2 |q| ≤ |q| := by
        exact_mod_cast Int.zpow_log_le_self Nat.one_lt_two (abs_pos.mpr zero)
      refine le_trans ?_ power
      exact zpow_le_zpow_right₀ (by norm_num) (by omega)

/-- **A moderate rational** has a number, at most half as far again from zero. -/
theorem round_of_abs_lt {q : ℚ} (moderate : |q| < 2 ^ 1023) :
    ∃ rounded, round q = some rounded ∧ |rounded| ≤ |q| + max |q| 1 / 2 := by
  have positive := ulp_pos q
  have atMost := ulp_le q
  have apart : |(roundHalfEven (q / ulp q) : ℚ) * ulp q - q| ≤ ulp q / 2 := by
    have error := mul_le_mul_of_nonneg_right (roundHalfEven_error (q / ulp q)) positive.le
    rw [← abs_of_pos positive, ← abs_mul, abs_of_pos positive, sub_mul,
      div_mul_cancel₀ q positive.ne'] at error
    linarith
  have size : |(roundHalfEven (q / ulp q) : ℚ) * ulp q| ≤ |q| + max |q| 1 / 2 := by
    have triangle := abs_add_le ((roundHalfEven (q / ulp q) : ℚ) * ulp q - q) q
    rw [sub_add_cancel] at triangle
    linarith
  have one : (1 : ℚ) ≤ 2 ^ 1023 := one_le_pow₀ (by norm_num)
  have bound : max |q| 1 ≤ 2 ^ 1023 := max_le moderate.le one
  refine ⟨_, if_pos ?_, size⟩
  rw [show (2 : ℚ) ^ 1024 = 2 ^ 1023 * 2 from pow_succ 2 1023]
  generalize (2 : ℚ) ^ 1023 = limit at *
  linarith

end Binary64
