import PomboStorageNode.Library.BinarySearch
import Mathlib.Order.Basic
import Mathlib.Data.List.Pairwise
import Mathlib.Order.Lattice

/-!
# The heap of the utilities

`Heap.ts` keeps its items in an array, finds the place of a new one by binary search and takes the
first one off. The comparison is a function that returns a number; `Ranks` says that it compares a
key of the items. Where the keys of the array ascend strictly, `contains` finds an item by its key
(`contains_iff`) and `push` of an item that is not contained keeps the keys strictly ascending
(`pairwise_push`).
-/

set_option autoImplicit false

namespace PomboStorageNode.Utils

open Library.BinarySearch

/-- `Heap`. -/
structure Heap (Item : Type*) where
  items : List Item
  deriving DecidableEq

namespace Heap

variable {Item Key : Type*}

/-- `isEmpty`. -/
def isEmpty (heap : Heap Item) : Bool := heap.items.length = 0

/-- `getItemIndex`. -/
def getItemIndex (compare : Item → Item → ℤ) (heap : Heap Item) (item : Item) : ℕ :=
  if heap.isEmpty then 0
  else lowerBound (fun middle ↦ heap.items[middle]?.any fun other ↦ compare other item < 0) 0
    heap.items.length

/-- `push`. -/
def push (compare : Item → Item → ℤ) (heap : Heap Item) (item : Item) : Heap Item :=
  let index := heap.getItemIndex compare item
  ⟨heap.items.take index ++ item :: heap.items.drop index⟩

/-- `pop`: the heap after it. -/
def pop (heap : Heap Item) : Heap Item := ⟨heap.items.tail⟩

/-- `peek`. -/
def peek (heap : Heap Item) : Option Item := heap.items.head?

/-- `contains`. -/
def contains (compare : Item → Item → ℤ) (heap : Heap Item) (item : Item) : Bool :=
  if heap.isEmpty then false
  else
    let index := heap.getItemIndex compare item
    if index ≠ heap.items.length then
      heap.items[index]?.any fun other ↦ compare other item = 0
    else false

/-! ### Sorted heaps -/

/-- The comparison compares the keys of the items. -/
structure Ranks [LinearOrder Key] (compare : Item → Item → ℤ) (key : Item → Key) : Prop where
  neg_iff : ∀ first second, compare first second < 0 ↔ key first < key second
  zero_iff : ∀ first second, compare first second = 0 ↔ key first = key second

/-- The keys of the items ascend strictly. -/
def Sorted [LinearOrder Key] (key : Item → Key) (heap : Heap Item) : Prop :=
  heap.items.Pairwise fun first second ↦ key first < key second

variable [LinearOrder Key] {compare : Item → Item → ℤ} {key : Item → Key} {heap : Heap Item}

/-- The index separates the items with a smaller key from the others. -/
theorem getItemIndex_spec (hranks : Ranks compare key) (hsorted : heap.Sorted key) (item : Item) :
    heap.getItemIndex compare item ≤ heap.items.length ∧
      (∀ other ∈ heap.items.take (heap.getItemIndex compare item), key other < key item) ∧
      ∀ other ∈ heap.items.drop (heap.getItemIndex compare item), key item ≤ key other := by
  by_cases hempty : heap.isEmpty = true
  · have hitems : heap.items = [] := List.length_eq_zero_iff.mp (of_decide_eq_true hempty)
    simp [getItemIndex, hempty, hitems]
  · rw [getItemIndex, if_neg hempty]
    obtain ⟨-, hlast, hinside, houtside⟩ := lowerBound_spec
      (fun middle ↦ heap.items[middle]?.any fun other ↦ compare other item < 0)
      (Nat.zero_le heap.items.length) (by
        intro low high hlow hhigh hbelow
        rw [List.getElem?_eq_getElem hhigh, Option.any_some, decide_eq_true_eq,
          hranks.neg_iff] at hbelow
        rw [List.getElem?_eq_getElem (hlow.trans_lt hhigh), Option.any_some, decide_eq_true_eq,
          hranks.neg_iff]
        rcases hlow.lt_or_eq with hlt | rfl
        · exact (List.pairwise_iff_getElem.mp hsorted low high _ hhigh hlt).trans hbelow
        · exact hbelow)
    refine ⟨hlast, fun other hother ↦ ?_, fun other hother ↦ ?_⟩
    · obtain ⟨index, hindex, rfl⟩ := List.mem_take_iff_getElem.mp hother
      have hbelow := hinside index (Nat.zero_le index) (by omega)
      rw [List.getElem?_eq_getElem (by omega), Option.any_some, decide_eq_true_eq,
        hranks.neg_iff] at hbelow
      exact hbelow
    · obtain ⟨index, hindex, rfl⟩ := List.mem_drop_iff_getElem.mp hother
      have hnot := houtside _ (Nat.le_add_left _ index) (by omega)
      rw [List.getElem?_eq_getElem (by omega), Option.any_some, decide_eq_false_iff_not,
        hranks.neg_iff, not_lt] at hnot
      simpa only [Nat.add_comm] using hnot

/-- The members after `push`. -/
theorem mem_push {item other : Item} :
    other ∈ (heap.push compare item).items ↔ other = item ∨ other ∈ heap.items := by
  have hparts : other ∈ heap.items ↔
      other ∈ heap.items.take (heap.getItemIndex compare item) ∨
        other ∈ heap.items.drop (heap.getItemIndex compare item) := by
    rw [← List.mem_append, List.take_append_drop]
  rw [push, List.mem_append, List.mem_cons, hparts]
  exact or_left_comm

/-- `contains` looks for an item with the same key. -/
theorem contains_iff (hranks : Ranks compare key) (hsorted : heap.Sorted key) {item : Item} :
    heap.contains compare item = true ↔ ∃ other ∈ heap.items, key other = key item := by
  obtain ⟨hlast, hbelow, habove⟩ := getItemIndex_spec hranks hsorted item
  by_cases hempty : heap.isEmpty = true
  · have hitems : heap.items = [] := List.length_eq_zero_iff.mp (of_decide_eq_true hempty)
    rw [contains, if_pos hempty]
    simp [hitems]
  rw [contains, if_neg hempty]
  have hsplit := List.take_append_drop (heap.getItemIndex compare item) heap.items
  cases hrest : heap.items.drop (heap.getItemIndex compare item) with
  | nil =>
    have hindex : heap.getItemIndex compare item = heap.items.length :=
      le_antisymm hlast (List.drop_eq_nil_iff.mp hrest)
    simp only [hindex, ne_eq, not_true_eq_false, if_false, Bool.false_eq_true, false_iff,
      not_exists, not_and]
    intro other hother
    rw [hindex, List.take_length] at hbelow
    exact (hbelow other hother).ne
  | cons first rest =>
    have hlt : heap.getItemIndex compare item < heap.items.length := by
      by_contra hge
      rw [List.drop_eq_nil_iff.mpr (by omega)] at hrest
      cases hrest
    have hfirst : heap.items[heap.getItemIndex compare item]? = some first := by
      rw [← Nat.add_zero (heap.getItemIndex compare item), ← List.getElem?_drop, hrest]
      rfl
    simp only [ne_eq, hlt.ne, not_false_eq_true, if_true, hfirst, Option.any_some,
      decide_eq_true_eq, hranks.zero_iff]
    constructor
    · intro heq
      refine ⟨first, ?_, heq⟩
      rw [← hsplit, hrest]
      exact List.mem_append_right _ List.mem_cons_self
    · rintro ⟨other, hother, heq⟩
      rw [← hsplit, List.mem_append, hrest, List.mem_cons] at hother
      rcases hother with hfront | rfl | hback
      · exact absurd heq (hbelow other hfront).ne
      · exact heq
      · -- A later item with the same key would be above the first one, which is not below it.
        have hdrop : (heap.items.drop (heap.getItemIndex compare item)).Pairwise
            fun first second ↦ key first < key second := hsorted.drop
        rw [hrest] at hdrop
        have hlater := List.rel_of_pairwise_cons hdrop hback
        have hle := habove first (hrest ▸ List.mem_cons_self)
        rw [heq] at hlater
        exact absurd hlater hle.not_gt

/-- Pushing an item that is not contained keeps the heap sorted. -/
theorem sorted_push (hranks : Ranks compare key) (hsorted : heap.Sorted key) {item : Item}
    (hnew : heap.contains compare item = false) : (heap.push compare item).Sorted key := by
  obtain ⟨-, hbelow, habove⟩ := getItemIndex_spec hranks hsorted item
  have hdistinct : ∀ other ∈ heap.items, key other ≠ key item := by
    intro other hother heq
    rw [(contains_iff hranks hsorted).mpr ⟨other, hother, heq⟩] at hnew
    cases hnew
  have hafter : ∀ other ∈ heap.items.drop (heap.getItemIndex compare item),
      key item < key other := fun other hother ↦
    lt_of_le_of_ne (habove other hother) (hdistinct other (List.mem_of_mem_drop hother)).symm
  unfold Sorted push
  refine List.pairwise_append.mpr ⟨hsorted.take, List.pairwise_cons.mpr ⟨hafter, hsorted.drop⟩, ?_⟩
  intro first hfirst second hsecond
  rcases List.mem_cons.mp hsecond with rfl | hback
  · exact hbelow first hfirst
  · exact (hbelow first hfirst).trans (hafter second hback)

end Heap

end PomboStorageNode.Utils
