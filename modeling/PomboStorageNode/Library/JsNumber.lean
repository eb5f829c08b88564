import Mathlib.Data.Rat.Defs
import Mathlib.Algebra.Order.Ring.Unbundled.Rat
import Mathlib.Algebra.Order.Group.Unbundled.Abs

/-!
# Numbers of the host language

A number is a rational, one of the two infinities, or `NaN`. Subtraction, absolute value and
comparison follow the host language, where every comparison with `NaN` is false; differences of
finite numbers are exact. `lt_abs_sub_eq_false_iff` says what a number that passes a distance check
can be.
-/

set_option autoImplicit false

namespace PomboStorageNode.Library

/-- A number. -/
inductive JsNumber
  | nan
  | negativeInfinity
  | positiveInfinity
  | finite (value : ℚ)
  deriving DecidableEq

namespace JsNumber

/-- The difference of two numbers. -/
def sub : JsNumber → JsNumber → JsNumber
  | nan, _ => nan
  | _, nan => nan
  | finite first, finite second => finite (first - second)
  | finite _, positiveInfinity => negativeInfinity
  | finite _, negativeInfinity => positiveInfinity
  | positiveInfinity, positiveInfinity => nan
  | positiveInfinity, _ => positiveInfinity
  | negativeInfinity, negativeInfinity => nan
  | negativeInfinity, _ => negativeInfinity

/-- `Math.abs`. -/
def abs : JsNumber → JsNumber
  | nan => nan
  | negativeInfinity => positiveInfinity
  | positiveInfinity => positiveInfinity
  | finite value => finite |value|

/-- The comparison `first < second`. -/
def lt : JsNumber → JsNumber → Bool
  | nan, _ => false
  | _, nan => false
  | finite first, finite second => first < second
  | finite _, positiveInfinity => true
  | finite _, negativeInfinity => false
  | negativeInfinity, negativeInfinity => false
  | negativeInfinity, _ => true
  | positiveInfinity, _ => false

/-- A number whose distance from a finite one is not above a finite bound is `NaN`, or finite and
within the bound. -/
theorem lt_abs_sub_eq_false_iff {bound center : ℚ} {number : JsNumber} :
    lt (finite bound) (abs (sub (finite center) number)) = false ↔
      number = nan ∨ ∃ value, number = finite value ∧ |center - value| ≤ bound := by
  cases number with
  | nan => simp [sub, abs, lt]
  | negativeInfinity => simp [sub, abs, lt]
  | positiveInfinity => simp [sub, abs, lt]
  | finite value => simp [sub, abs, lt]

end JsNumber

end PomboStorageNode.Library
