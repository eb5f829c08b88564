import Mathlib.Data.List.Count
import Mathlib.Data.List.Perm.Basic
import Mathlib.Data.List.Nodup

/-!
# Unions of selections

A result assembled from several selections over one list without repetitions is, up to order, one
selection exactly when every element satisfies as many of the clauses as it should: one if it is
wanted and none otherwise (`flatMap_filter_perm_iff`). The equivalence serves in both directions,
to show that a split covers a range and to show that it does not.
-/

set_option autoImplicit false

namespace PomboStorageNode.Library.Selection

variable {Element : Type*} [DecidableEq Element]

/-- An element occurs in a union of selections once for each clause it satisfies, times its
occurrences in the list. -/
theorem count_flatMap_filter (clauses : List (Element → Bool)) (elements : List Element)
    (element : Element) : (clauses.flatMap fun clause ↦ elements.filter clause).count element =
      (clauses.countP fun clause ↦ clause element) * elements.count element := by
  induction clauses with
  | nil => simp
  | cons clause clauses ih =>
    rw [List.flatMap_cons, List.count_append, ih, List.countP_cons, Nat.add_mul, Nat.add_comm]
    congr 1
    by_cases hclause : clause element = true
    · rw [List.count_filter hclause, if_pos hclause, Nat.one_mul]
    · rw [if_neg hclause, Nat.zero_mul, List.count_eq_zero]
      exact fun hmem ↦ hclause (List.mem_filter.mp hmem).2

/-- A union of selections is one selection, up to order, exactly when every element satisfies one
clause if it is wanted and none if it is not.
Assumes: the list has no repetitions. -/
theorem flatMap_filter_perm_iff {elements : List Element} (hnodup : elements.Nodup)
    (clauses : List (Element → Bool)) (wanted : Element → Bool) :
    (clauses.flatMap fun clause ↦ elements.filter clause).Perm (elements.filter wanted) ↔
      ∀ element ∈ elements,
        (clauses.countP fun clause ↦ clause element) = if wanted element then 1 else 0 := by
  have hwanted : ∀ element, (elements.filter wanted).count element =
      (if wanted element then 1 else 0) * elements.count element := by
    intro element
    have hsingle := count_flatMap_filter [wanted] elements element
    simpa [List.countP_cons] using hsingle
  rw [List.perm_iff_count]
  constructor
  · intro hcount element hmem
    have helement := hcount element
    rw [count_flatMap_filter, hwanted, List.count_eq_one_of_mem hnodup hmem] at helement
    simpa using helement
  · intro hclauses element
    rw [count_flatMap_filter, hwanted]
    by_cases hmem : element ∈ elements
    · rw [hclauses element hmem]
    · rw [List.count_eq_zero_of_not_mem hmem, Nat.mul_zero, Nat.mul_zero]

end PomboStorageNode.Library.Selection
