import Mathlib.Data.List.InsertIdx
import Mathlib.Data.List.Sort
import Mathlib.Data.Nat.Basic

/-!
# Binary search for the end of an initial segment

`lowerBound` halves an interval of indices until it is empty. Where the predicate holds on an
initial segment of the interval and nowhere after it, the result is the end of that segment:
`lowerBound_spec`. `sortedIndex` is the search for the place of an item in an ascending list, the
lowest one that keeps the list ascending (`sortedIndex_spec`), and inserting an item at such a place
is an ordered insertion (`insertIdx_eq_orderedInsert`).
-/

set_option autoImplicit false

namespace PomboStorageNode.Library.BinarySearch

/-- The search between two indices. -/
def lowerBound (below : ℕ → Bool) (first last : ℕ) : ℕ :=
  if first < last then
    if below ((first + last) / 2) then lowerBound below ((first + last) / 2 + 1) last
    else lowerBound below first ((first + last) / 2)
  else last
termination_by last - first
decreasing_by all_goals omega

/-- The result separates the indices below from the others. Assumes: the interval is not reversed,
and an index in front of one that is below is below, too. -/
theorem lowerBound_spec (below : ℕ → Bool) {first last : ℕ} (hle : first ≤ last)
    (hsegment : ∀ low high, low ≤ high → high < last → below high = true → below low = true) :
    first ≤ lowerBound below first last ∧ lowerBound below first last ≤ last ∧
      (∀ index, first ≤ index → index < lowerBound below first last → below index = true) ∧
      ∀ index, lowerBound below first last ≤ index → index < last → below index = false := by
  induction first, last using lowerBound.induct below with
  | case1 first last hlt hbelow ih =>
    rw [lowerBound, if_pos hlt, if_pos hbelow]
    obtain ⟨hfirst, hlast, hinside, houtside⟩ := ih (by omega) hsegment
    refine ⟨by omega, hlast, fun index hindex hbound ↦ ?_, houtside⟩
    by_cases hmiddle : index ≤ (first + last) / 2
    · exact hsegment index _ hmiddle (by omega) hbelow
    · exact hinside index (by omega) hbound
  | case2 first last hlt hbelow ih =>
    rw [lowerBound, if_pos hlt, if_neg hbelow]
    obtain ⟨hfirst, hlast, hinside, houtside⟩ :=
      ih (by omega) fun low high hlow hhigh ↦ hsegment low high hlow (by omega)
    refine ⟨hfirst, by omega, hinside, fun index hindex hbound ↦ ?_⟩
    by_cases hmiddle : index < (first + last) / 2
    · exact houtside index hindex hmiddle
    · rw [Bool.eq_false_iff]
      exact fun hindexBelow ↦ hbelow (hsegment _ index (by omega) hbound hindexBelow)
  | case3 first last hlt =>
    rw [lowerBound, if_neg hlt]
    exact ⟨by omega, le_rfl, fun index hindex hbound ↦ by omega,
      fun index hindex hbound ↦ by omega⟩

/-! ### Places in a list -/

variable {Item Key : Type*} [LinearOrder Key]

/-- The lowest index of an ascending list at which an item can be inserted. -/
def sortedIndex (key : Item → Key) (items : List Item) (item : Item) : ℕ :=
  lowerBound (fun index ↦ items[index]?.any (key · < key item)) 0 items.length

theorem sortedIndex_spec {key : Item → Key} {items : List Item} {item : Item}
    (hsorted : items.Pairwise fun first second ↦ key first ≤ key second) :
    sortedIndex key items item ≤ items.length ∧
      (∀ other ∈ items.take (sortedIndex key items item), key other < key item) ∧
      ∀ other ∈ items.drop (sortedIndex key items item), key item ≤ key other := by
  have hsegment (low high : ℕ) (hle : low ≤ high) (hlt : high < items.length)
      (hbelow : items[high]?.any (key · < key item) = true) :
      items[low]?.any (key · < key item) = true := by
    rw [List.getElem?_eq_getElem hlt, Option.any_some, decide_eq_true_eq] at hbelow
    rw [List.getElem?_eq_getElem (Nat.lt_of_le_of_lt hle hlt), Option.any_some, decide_eq_true_eq]
    rcases Nat.eq_or_lt_of_le hle with rfl | hlow
    · exact hbelow
    · exact (List.pairwise_iff_getElem.mp hsorted low high _ hlt hlow).trans_lt hbelow
  obtain ⟨-, hlast, hinside, houtside⟩ := lowerBound_spec _ (Nat.zero_le items.length) hsegment
  change sortedIndex key items item ≤ items.length at hlast
  refine ⟨hlast, fun other hother ↦ ?_, fun other hother ↦ ?_⟩
  · obtain ⟨index, hindex, rfl⟩ := List.mem_take_iff_getElem.mp hother
    have hbelow :=
      hinside index (Nat.zero_le _) (Nat.lt_of_lt_of_le hindex (Nat.min_le_left _ _))
    rw [List.getElem?_eq_getElem (by omega), Option.any_some, decide_eq_true_eq] at hbelow
    exact hbelow
  · obtain ⟨index, hindex, rfl⟩ := List.mem_drop_iff_getElem.mp hother
    have hbelow := houtside (sortedIndex key items item + index) (Nat.le_add_right _ _) (by omega)
    rw [List.getElem?_eq_getElem (by omega), Option.any_some, decide_eq_false_iff_not,
      not_lt] at hbelow
    exact hbelow

/-- Inserting an item between the lesser items and the others is an ordered insertion. -/
theorem insertIdx_eq_orderedInsert {key : Item → Key} {items : List Item} {item : Item}
    {index : ℕ} (hindex : index ≤ items.length)
    (hbefore : ∀ other ∈ items.take index, key other < key item)
    (hafter : ∀ other ∈ items.drop index, key item ≤ key other) :
    items.insertIdx index item = items.orderedInsert (key · ≤ key ·) item := by
  induction items generalizing index with
  | nil =>
    obtain rfl := Nat.le_zero.mp hindex
    rfl
  | cons first items ih =>
    cases index with
    | zero =>
      rw [List.insertIdx_zero, List.orderedInsert_cons, if_pos (hafter first List.mem_cons_self)]
    | succ index =>
      have hfirst : ¬ key item ≤ key first := not_le.mpr (hbefore first List.mem_cons_self)
      rw [List.insertIdx_succ_cons, List.orderedInsert_cons, if_neg hfirst,
        ih (Nat.le_of_succ_le_succ hindex)
          (fun other hother ↦ hbefore other (List.mem_cons_of_mem _ hother)) hafter]

end PomboStorageNode.Library.BinarySearch
