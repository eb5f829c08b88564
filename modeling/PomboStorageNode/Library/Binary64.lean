import Mathlib.Data.Rat.Floor
import Mathlib.Algebra.Order.Field.Rat
import Mathlib.Algebra.Order.Field.Power
import Mathlib.Tactic.Linarith
import Mathlib.Tactic.FieldSimp

/-!
# Rounding to binary floating point numbers

`round value` is the number with 53 significant binary digits that is nearest to a rational, and of
two nearest ones the even one. The range of the exponent is not limited. Integers of at most 53
digits are not rounded (`round_intCast`), and rounding keeps the order of values that are farther
apart than its errors (`round_lt_round`).
-/

set_option autoImplicit false

namespace PomboStorageNode.Library.Binary64

/-- The number of significant digits. -/
def precision : ℕ := 53

/-- The integer nearest to a rational; of two nearest ones the even one. -/
def roundHalfEven (value : ℚ) : ℤ :=
  let below := ⌊value⌋
  let rest := value - below
  if rest < 1 / 2 then below
  else if 1 / 2 < rest then below + 1
  else if below % 2 = 0 then below else below + 1

/-- Two to a power. -/
def twoPow : ℤ → ℚ
  | .ofNat n => (2 ^ n : ℕ)
  | .negSucc n => 1 / (2 ^ (n + 1) : ℕ)

/-- The exponent of the first binary digit of a rational that is not zero. -/
def exponent (value : ℚ) : ℤ :=
  let estimate := (Nat.log2 value.num.natAbs : ℤ) - Nat.log2 value.den
  if twoPow estimate ≤ |value| then estimate else estimate - 1

/-- The nearest number with 53 significant digits. -/
def round (value : ℚ) : ℚ :=
  if value = 0 then 0
  else
    let ulp := twoPow (exponent value - (precision - 1))
    roundHalfEven (value / ulp) * ulp

example : round (2 ^ 53 + 1) = 2 ^ 53 := by decide +kernel

example : round (2 ^ 120 - 1) = 2 ^ 120 := by decide +kernel

example : round (1 / 5) = 3602879701896397 / 2 ^ 54 := by decide +kernel

/-! ### Errors -/

theorem twoPow_eq (power : ℤ) : twoPow power = (2 : ℚ) ^ power := by
  cases power with
  | ofNat n => simp [twoPow]
  | negSucc n => simp [twoPow]

theorem roundHalfEven_intCast (value : ℤ) : roundHalfEven value = value := by
  simp [roundHalfEven]

theorem abs_roundHalfEven_sub_le (value : ℚ) : |(roundHalfEven value : ℚ) - value| ≤ 1 / 2 := by
  have hfloor := Int.floor_le value
  have hceil := Int.lt_floor_add_one value
  unfold roundHalfEven
  dsimp only
  rw [abs_le]
  split_ifs <;> push_cast <;> constructor <;> linarith

/-- The first binary digit of a rational. -/
theorem twoPow_exponent_le {value : ℚ} (hne : value ≠ 0) : twoPow (exponent value) ≤ |value| := by
  unfold exponent
  dsimp only
  split_ifs with hestimate
  · exact hestimate
  have hnum : (2 : ℚ) ^ Nat.log2 value.num.natAbs ≤ value.num.natAbs := by
    exact_mod_cast Nat.log2_self_le (Int.natAbs_ne_zero.mpr (Rat.num_ne_zero.mpr hne))
  have hden : (value.den : ℚ) < 2 ^ (Nat.log2 value.den + 1) := by
    exact_mod_cast Nat.lt_log2_self
  have habs : |value| = value.num.natAbs / value.den := by
    rw [← Rat.num_div_den |value|, Rat.num_abs_eq_abs_num, Rat.den_abs_eq_den]
    simp
  rw [twoPow_eq, habs, le_div_iff₀ (by exact_mod_cast value.den_pos)]
  calc (2 : ℚ) ^ ((Nat.log2 value.num.natAbs : ℤ) - Nat.log2 value.den - 1) * value.den
      ≤ (2 : ℚ) ^ ((Nat.log2 value.num.natAbs : ℤ) - Nat.log2 value.den - 1) *
          2 ^ (Nat.log2 value.den + 1) := by gcongr
    _ = 2 ^ Nat.log2 value.num.natAbs := by
      rw [← zpow_natCast, ← zpow_natCast, ← zpow_add₀ (by norm_num)]
      congr 1
      push_cast
      ring
    _ ≤ value.num.natAbs := hnum

/-- The error of rounding, relative to the value. -/
theorem abs_round_sub_le (value : ℚ) : |round value - value| ≤ |value| / 2 ^ 53 := by
  unfold round
  split_ifs with hzero
  · simp [hzero]
  have hulp : (0 : ℚ) < twoPow (exponent value - (precision - 1)) := by
    rw [twoPow_eq]
    positivity
  have hdigits : twoPow (exponent value - (precision - 1)) * 2 ^ 52 ≤ |value| := by
    refine le_trans (le_of_eq ?_) (twoPow_exponent_le hzero)
    rw [twoPow_eq, twoPow_eq, ← zpow_natCast, ← zpow_add₀ (by norm_num), precision]
    congr 1
    push_cast
    ring
  dsimp only
  generalize twoPow (exponent value - (precision - 1)) = ulp at hulp hdigits ⊢
  have herror := abs_roundHalfEven_sub_le (value / ulp)
  calc |(roundHalfEven (value / ulp) : ℚ) * ulp - value|
      = |(roundHalfEven (value / ulp) : ℚ) - value / ulp| * ulp := by
        rw [← abs_of_pos hulp, ← abs_mul, abs_of_pos hulp, sub_mul, div_mul_cancel₀ _ hulp.ne']
    _ ≤ 1 / 2 * ulp := by gcongr
    _ ≤ |value| / 2 ^ 53 := by
        rw [le_div_iff₀ (by norm_num)]
        linarith

/-- Integers of at most 53 digits are not rounded. -/
theorem round_intCast {value : ℤ} (hsmall : |value| < 2 ^ 53) : round value = value := by
  unfold round
  split_ifs with hzero
  · exact hzero.symm
  have hexponent := twoPow_exponent_le hzero
  rw [twoPow_eq] at hexponent
  have hlt : (2 : ℚ) ^ exponent (value : ℚ) < 2 ^ (53 : ℤ) := by
    refine hexponent.trans_lt ?_
    exact_mod_cast hsmall
  have hle : exponent (value : ℚ) < 53 := (zpow_lt_zpow_iff_right₀ (by norm_num)).mp hlt
  obtain ⟨digits, hdigits⟩ : ∃ digits : ℕ, exponent (value : ℚ) - (precision - 1) = -digits :=
    ⟨(52 - exponent (value : ℚ)).toNat, by rw [precision]; push_cast; omega⟩
  dsimp only
  rw [twoPow_eq, hdigits, zpow_neg, zpow_natCast, div_inv_eq_mul]
  have hshifted : roundHalfEven ((value : ℚ) * 2 ^ digits) = value * 2 ^ digits := by
    exact_mod_cast roundHalfEven_intCast (value * 2 ^ digits)
  rw [hshifted]
  push_cast
  field_simp

/-- Rounding keeps the order of values that are farther apart than its errors. -/
theorem round_lt_round {first second : ℚ}
    (hgap : (|first| + |second|) / 2 ^ 53 < second - first) : round first < round second := by
  have hfirst := abs_le.mp (abs_round_sub_le first)
  have hsecond := abs_le.mp (abs_round_sub_le second)
  rw [add_div] at hgap
  linarith [hfirst.2, hsecond.1]

end PomboStorageNode.Library.Binary64
