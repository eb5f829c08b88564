import Mathlib.Algebra.Order.BigOperators.Group.List
import Mathlib.Algebra.Order.Group.MinMax
import Mathlib.Data.List.MinMax
import Mathlib.Data.List.Perm.Subperm
import Mathlib.Tactic.Abel

/-!
# The greatest values of a list

A list is cut into an upper and a lower part, so that no value of the lower part is greater than one
of the upper part. The upper part has the greatest sum among all selections of its size
(`IsCut.sum_le`). When a lower part of the same size has the same sum, and something is left, the
list has only one value (`IsCut.eq_of_sum_eq`). Both are seen by comparing with a value at the cut:
what is above it counts for the upper part, and what is below it for the lower one.
-/

set_option autoImplicit false

namespace PomboStorageNode.Library

variable {Value : Type*} [AddCommGroup Value] [LinearOrder Value] [IsOrderedAddMonoid Value]

/-- The values are cut into an upper and a lower part. -/
structure IsCut (values upper lower : List Value) : Prop where
  perm : (upper ++ lower).Perm values
  le : ∀ low ∈ lower, ∀ high ∈ upper, low ≤ high

/-! ### What is above or below a level -/

/-- The sum of the positive amounts. -/
def positiveSum (amounts : List Value) : Value := (amounts.map fun amount ↦ max amount 0).sum

theorem positiveSum_nonneg (amounts : List Value) : 0 ≤ positiveSum amounts := by
  apply List.sum_nonneg
  intro positive hmem
  obtain ⟨amount, _, rfl⟩ := List.mem_map.mp hmem
  exact le_max_right _ _

theorem positiveSum_eq_zero_iff {amounts : List Value} :
    positiveSum amounts = 0 ↔ ∀ amount ∈ amounts, amount ≤ 0 := by
  induction amounts with
  | nil => simp [positiveSum]
  | cons amount amounts ih =>
    have hcons : positiveSum (amount :: amounts) = max amount 0 + positiveSum amounts := rfl
    rw [hcons, add_eq_zero_iff_of_nonneg (le_max_right _ _) (positiveSum_nonneg amounts), ih,
      List.forall_mem_cons, max_eq_right_iff]

/-- What is above a level. -/
def excess (level : Value) (values : List Value) : Value :=
  positiveSum (values.map fun value ↦ value - level)

/-- What is missing to a level. -/
def deficit (level : Value) (values : List Value) : Value :=
  positiveSum (values.map fun value ↦ level - value)

variable {values upper lower : List Value} {level : Value}

omit [IsOrderedAddMonoid Value] in
theorem excess_append (level : Value) (first second : List Value) :
    excess level (first ++ second) = excess level first + excess level second := by
  simp only [excess, positiveSum, List.map_append, List.sum_append]

omit [IsOrderedAddMonoid Value] in
theorem deficit_append (level : Value) (first second : List Value) :
    deficit level (first ++ second) = deficit level first + deficit level second := by
  simp only [deficit, positiveSum, List.map_append, List.sum_append]

omit [IsOrderedAddMonoid Value] in
theorem excess_perm {first second : List Value} (hperm : first.Perm second) :
    excess level first = excess level second :=
  ((hperm.map _).map _).sum_eq

omit [IsOrderedAddMonoid Value] in
theorem deficit_perm {first second : List Value} (hperm : first.Perm second) :
    deficit level first = deficit level second :=
  ((hperm.map _).map _).sum_eq

theorem excess_nonneg (level : Value) (values : List Value) : 0 ≤ excess level values :=
  positiveSum_nonneg _

theorem deficit_nonneg (level : Value) (values : List Value) : 0 ≤ deficit level values :=
  positiveSum_nonneg _

theorem excess_eq_zero_iff : excess level values = 0 ↔ ∀ value ∈ values, value ≤ level := by
  rw [excess, positiveSum_eq_zero_iff, List.forall_mem_map]
  simp only [sub_nonpos]

theorem deficit_eq_zero_iff : deficit level values = 0 ↔ ∀ value ∈ values, level ≤ value := by
  rw [deficit, positiveSum_eq_zero_iff, List.forall_mem_map]
  simp only [sub_nonpos]

theorem sum_add_deficit (level : Value) (values : List Value) :
    values.sum + deficit level values = values.length • level + excess level values := by
  induction values with
  | nil => simp [excess, deficit, positiveSum]
  | cons value values ih =>
    have hvalue : value + max (level - value) 0 = level + max (value - level) 0 := by
      rcases le_total value level with hle | hle
      · rw [max_eq_left (sub_nonneg.mpr hle), max_eq_right (sub_nonpos.mpr hle)]
        abel
      · rw [max_eq_right (sub_nonpos.mpr hle), max_eq_left (sub_nonneg.mpr hle)]
        abel
    calc (value :: values).sum + deficit level (value :: values)
        = (value + max (level - value) 0) + (values.sum + deficit level values) := by
          simp only [deficit, positiveSum, List.map_cons, List.sum_cons]
          abel
      _ = (level + max (value - level) 0) + (values.length • level + excess level values) := by
          rw [hvalue, ih]
      _ = (value :: values).length • level + excess level (value :: values) := by
          simp only [excess, positiveSum, List.map_cons, List.sum_cons, List.length_cons,
            succ_nsmul]
          abel

/-! ### Cuts -/

namespace IsCut

omit [IsOrderedAddMonoid Value] [AddCommGroup Value] in
/-- A value at the cut. -/
theorem exists_level (h : IsCut values upper lower) (hne : upper ≠ []) :
    ∃ level, (∀ high ∈ upper, level ≤ high) ∧ ∀ low ∈ lower, low ≤ level := by
  have hpos : 0 < upper.length := List.length_pos_iff.mpr hne
  refine ⟨upper.minimum_of_length_pos hpos, ?_, ?_⟩
  · exact fun high hhigh ↦ List.minimum_of_length_pos_le_of_mem hhigh hpos
  · exact fun low hlow ↦ h.le low hlow _ (List.minimum_of_length_pos_mem hpos)

/-- No selection of the size of the upper part has a greater sum. -/
theorem sum_le (h : IsCut values upper lower) {selected : List Value}
    (hselected : selected.Subperm values) (hlength : selected.length = upper.length) :
    selected.sum ≤ upper.sum := by
  rcases eq_or_ne upper [] with rfl | hne
  · rw [List.length_eq_zero_iff.mp hlength]
  obtain ⟨level, hhigh, hlow⟩ := h.exists_level hne
  obtain ⟨taken, htaken, hsublist⟩ := hselected
  obtain ⟨rest, hrest⟩ := hsublist.exists_perm_append
  replace hrest := hrest.trans (htaken.append_right rest)
  have hexcess : excess level selected ≤ excess level upper := by
    calc excess level selected
        ≤ excess level selected + excess level rest :=
          le_add_of_nonneg_right (excess_nonneg level rest)
      _ = excess level (upper ++ lower) := by
          rw [← excess_append, excess_perm (hrest.symm.trans h.perm.symm)]
      _ = excess level upper := by
          rw [excess_append, excess_eq_zero_iff.mpr hlow, add_zero]
  calc selected.sum
      ≤ selected.sum + deficit level selected :=
        le_add_of_nonneg_right (deficit_nonneg level selected)
    _ = upper.length • level + excess level selected := by rw [sum_add_deficit, hlength]
    _ ≤ upper.length • level + excess level upper := by gcongr
    _ = upper.sum := by
        rw [← sum_add_deficit, deficit_eq_zero_iff.mpr hhigh, add_zero]

/-- An upper part with the sum of the lower part of the same size: there is only one value. -/
theorem eq_of_sum_eq {greatest rest least others : List Value} (hupper : IsCut values greatest rest)
    (hlower : IsCut values others least) (hlength : least.length = greatest.length)
    (hsum : least.sum = greatest.sum) (hgreatest : greatest ≠ []) (hrest : rest ≠ []) :
    ∀ first ∈ values, ∀ second ∈ values, first = second := by
  have hothers : others ≠ [] := by
    have htotal := (hupper.perm.trans hlower.perm.symm).length_eq
    rw [List.length_append, List.length_append] at htotal
    have hpositive := List.length_pos_iff.mpr hrest
    apply List.length_pos_iff.mp
    omega
  obtain ⟨level, hhigh, hlow⟩ := hlower.exists_level hothers
  have hleast : least.sum + deficit level least = greatest.length • level := by
    rw [sum_add_deficit, excess_eq_zero_iff.mpr hlow, add_zero, hlength]
  have hdeficits : deficit level least = deficit level greatest + deficit level rest := by
    rw [← deficit_append, deficit_perm (hupper.perm.trans hlower.perm.symm), deficit_append,
      deficit_eq_zero_iff.mpr hhigh, zero_add]
  have hzero : deficit level rest + excess level greatest = 0 := by
    have hsums := sum_add_deficit level greatest
    rw [← hleast, hdeficits, ← hsum, add_assoc, add_right_inj, add_assoc, left_eq_add] at hsums
    exact hsums
  rw [add_eq_zero_iff_of_nonneg (deficit_nonneg _ _) (excess_nonneg _ _), deficit_eq_zero_iff,
    excess_eq_zero_iff] at hzero
  have hlevel : ∀ value ∈ greatest ++ rest, value = level := by
    intro value hvalue
    rcases List.mem_append.mp hvalue with hmem | hmem
    · obtain ⟨low, hlowmem⟩ := List.exists_mem_of_ne_nil rest hrest
      refine (hzero.2 value hmem).antisymm ?_
      exact (hzero.1 low hlowmem).trans (hupper.le low hlowmem value hmem)
    · obtain ⟨high, hhighmem⟩ := List.exists_mem_of_ne_nil greatest hgreatest
      refine le_antisymm ?_ (hzero.1 value hmem)
      exact (hupper.le value hmem high hhighmem).trans (hzero.2 high hhighmem)
  intro first hfirst second hsecond
  rw [hlevel first (hupper.perm.mem_iff.mpr hfirst),
    hlevel second (hupper.perm.mem_iff.mpr hsecond)]

end IsCut

end PomboStorageNode.Library
