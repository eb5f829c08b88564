import Mathlib.Algebra.Order.BigOperators.Group.List
import Mathlib.Algebra.Order.Ring.Int
import Mathlib.Tactic.Linarith
import Mathlib.Tactic.Ring

/-!
# Proportional shares of an integer amount

An amount is split in proportion to weights, and every share is rounded towards zero. The quotients
and the remainders of all shares add up to the amount (`sum_tdiv_mul_add_sum_tmod`), and a remainder
has the sign of the amount and is less than the sum of the weights. So the shares of an amount that is
not negative do not exceed it, and those of a negative amount exceed it by less than their number.
-/

set_option autoImplicit false

namespace PomboStorageNode.Library

/-- The shares of an amount, rounded towards zero. -/
def shares (amount : ℤ) (weights : List ℤ) : List ℤ :=
  weights.map fun weight ↦ (amount * weight).tdiv weights.sum

namespace shares

theorem sum_tdiv_mul_add_sum_tmod (amount divisor : ℤ) (weights : List ℤ) :
    divisor * (weights.map fun weight ↦ (amount * weight).tdiv divisor).sum +
      (weights.map fun weight ↦ (amount * weight).tmod divisor).sum = amount * weights.sum := by
  induction weights with
  | nil => simp
  | cons weight weights ih =>
    rw [List.map_cons, List.map_cons, List.sum_cons, List.sum_cons, List.sum_cons]
    have hdivision := Int.mul_tdiv_add_tmod (amount * weight) divisor
    linarith

/-- The remainders of an amount that is not negative are not negative. -/
theorem sum_tmod_nonneg {amount divisor : ℤ} {weights : List ℤ} (hamount : 0 ≤ amount)
    (hweights : ∀ weight ∈ weights, 0 ≤ weight) :
    0 ≤ (weights.map fun weight ↦ (amount * weight).tmod divisor).sum := by
  apply List.sum_nonneg
  intro remainder hmem
  obtain ⟨weight, hweight, rfl⟩ := List.mem_map.mp hmem
  exact Int.tmod_nonneg divisor (mul_nonneg hamount (hweights weight hweight))

/-- The remainders of all shares are greater than minus the divisor times their number. -/
theorem neg_lt_sum_tmod {amount divisor : ℤ} {weights : List ℤ} (hdivisor : 0 < divisor)
    (hne : weights ≠ []) : -(divisor * weights.length) <
      (weights.map fun weight ↦ (amount * weight).tmod divisor).sum := by
  induction weights with
  | nil => exact absurd rfl hne
  | cons weight weights ih =>
    have hhead := Int.lt_tmod_of_pos (amount * weight) hdivisor
    rw [List.map_cons, List.sum_cons, List.length_cons, Nat.cast_succ, mul_add, mul_one]
    by_cases hnil : weights = []
    · rw [hnil, List.map_nil, List.sum_nil, List.length_nil, Nat.cast_zero, mul_zero]
      linarith
    · have htail := ih hnil
      linarith

/-- The shares of an amount that is not negative do not exceed it. -/
theorem sum_le {amount : ℤ} {weights : List ℤ} (hamount : 0 ≤ amount)
    (hweights : ∀ weight ∈ weights, 0 ≤ weight) : (shares amount weights).sum ≤ amount := by
  have hdivision := sum_tdiv_mul_add_sum_tmod amount weights.sum weights
  have hremainders := @sum_tmod_nonneg amount weights.sum weights hamount hweights
  rcases (List.sum_nonneg hweights).lt_or_eq with hpos | hzero
  · apply le_of_mul_le_mul_left _ hpos
    show weights.sum * (weights.map fun weight ↦ (amount * weight).tdiv weights.sum).sum ≤ _
    linarith
  · rw [shares, ← hzero]
    simpa using hamount

/-- The shares of any amount exceed it by less than their number. -/
theorem sum_lt {amount : ℤ} {weights : List ℤ} (hne : weights ≠ []) (hpos : 0 < weights.sum) :
    (shares amount weights).sum < amount + weights.length := by
  have hdivision := sum_tdiv_mul_add_sum_tmod amount weights.sum weights
  have hremainders := @neg_lt_sum_tmod amount weights.sum weights hpos hne
  apply lt_of_mul_lt_mul_left _ hpos.le
  show weights.sum * (weights.map fun weight ↦ (amount * weight).tdiv weights.sum).sum < _
  linarith [mul_add weights.sum amount weights.length]

end shares

end PomboStorageNode.Library
