import Mathlib.Data.List.Pairwise
import Mathlib.Order.Lattice
import Mathlib.Tactic.Tauto

/-!
# Lists of half-open intervals

An interval is a pair of bounds, of which the upper one belongs to it and the lower one does not.
`Ascending` lists have intervals that are not empty, each of which ends before the next one begins
or where it begins, so that no two of them overlap. `carve` is what is left of an interval when a
smaller one is taken out of it: nothing, one interval or two. Replacing an interval of an ascending
list by what is left of it keeps the list ascending (`Ascending.carve`) and takes exactly the
smaller interval out of what the list covers (`covers_carve`).
-/

set_option autoImplicit false

namespace PomboStorageNode.Library.Intervals

variable {Point : Type*} [LinearOrder Point]

/-- The point is in the interval. -/
def Within (interval : Point × Point) (point : Point) : Prop :=
  interval.1 < point ∧ point ≤ interval.2

/-- The point is in one of the intervals. -/
def Covers (intervals : List (Point × Point)) (point : Point) : Prop :=
  ∃ interval ∈ intervals, Within interval point

/-- Intervals in ascending order, none of them empty and no two of them overlapping. -/
structure Ascending (intervals : List (Point × Point)) : Prop where
  nonempty : ∀ interval ∈ intervals, interval.1 < interval.2
  apart : intervals.Pairwise fun earlier later ↦ earlier.2 ≤ later.1

/-- What is left of an interval without a smaller one. -/
def carve (interval : Point × Point) (low high : Point) : List (Point × Point) :=
  (if low = interval.1 then [] else [(interval.1, low)]) ++
    if high = interval.2 then [] else [(high, interval.2)]

variable {front back : List (Point × Point)} {interval part : Point × Point}
  {low high point : Point}

theorem mem_carve : part ∈ carve interval low high ↔
    (low ≠ interval.1 ∧ part = (interval.1, low)) ∨
      (high ≠ interval.2 ∧ part = (high, interval.2)) := by
  unfold carve
  split_ifs with hlow hhigh hhigh <;> simp [hlow, hhigh]

theorem length_carve_le (interval : Point × Point) (low high : Point) :
    (carve interval low high).length ≤ 2 := by
  unfold carve
  split_ifs <;> simp

/-- The upper part stays when the smaller interval does not reach the end. -/
theorem exists_carve_eq_append (low : Point) (hhigh : high ≠ interval.2) :
    ∃ start, carve interval low high = start ++ [(high, interval.2)] := by
  rw [carve, if_neg hhigh]
  exact ⟨_, rfl⟩

theorem covers_append (first second : List (Point × Point)) (point : Point) :
    Covers (first ++ second) point ↔ Covers first point ∨ Covers second point := by
  simp only [Covers, List.mem_append, or_and_right, exists_or]

theorem covers_cons (first : Point × Point) (rest : List (Point × Point)) (point : Point) :
    Covers (first :: rest) point ↔ Within first point ∨ Covers rest point := by
  simp only [Covers, List.mem_cons, exists_eq_or_imp]

/-- What is left of one interval. Assumes: the smaller interval lies in it. -/
theorem covers_carve_self (hlow : interval.1 ≤ low) (hlt : low < high)
    (hhigh : high ≤ interval.2) :
    Covers (carve interval low high) point ↔
      Within interval point ∧ ¬(low < point ∧ point ≤ high) := by
  constructor
  · rintro ⟨part, hpart, hin⟩
    rcases mem_carve.mp hpart with ⟨-, rfl⟩ | ⟨-, rfl⟩
    · exact ⟨⟨hin.1, hin.2.trans (hlt.le.trans hhigh)⟩, fun hout ↦ hin.2.not_gt hout.1⟩
    · exact ⟨⟨hlow.trans_lt (hlt.trans hin.1), hin.2⟩, fun hout ↦ hout.2.not_gt hin.1⟩
  · rintro ⟨hin, hout⟩
    rcases le_or_gt point low with hbelow | habove
    · have hne : low ≠ interval.1 := fun heq ↦ (hin.1.trans_le hbelow).ne' heq
      exact ⟨(interval.1, low), mem_carve.mpr (Or.inl ⟨hne, rfl⟩), hin.1, hbelow⟩
    · have hbeyond : high < point := not_le.mp fun hle ↦ hout ⟨habove, hle⟩
      have hne : high ≠ interval.2 := fun heq ↦ (hbeyond.trans_le hin.2).ne heq
      exact ⟨(high, interval.2), mem_carve.mpr (Or.inr ⟨hne, rfl⟩), hbeyond, hin.2⟩

/-- A list without some of its first intervals is ascending. -/
theorem Ascending.sublist {intervals part : List (Point × Point)}
    (hascending : Ascending intervals) (hsublist : part.Sublist intervals) : Ascending part :=
  ⟨fun interval hmem ↦ hascending.nonempty interval (hsublist.subset hmem),
    hascending.apart.sublist hsublist⟩

/-- A point of an interval is in no other one. -/
theorem Ascending.within_unique (hascending : Ascending (front ++ interval :: back))
    (hin : Within interval point) : ¬ Covers front point ∧ ¬ Covers back point := by
  obtain ⟨-, hback, hfront⟩ := List.pairwise_append.mp hascending.apart
  refine ⟨?_, ?_⟩
  · rintro ⟨other, hother, hwithin⟩
    have hle := hfront other hother interval List.mem_cons_self
    exact (hwithin.2.trans hle).not_gt hin.1
  · rintro ⟨other, hother, hwithin⟩
    have hle := List.rel_of_pairwise_cons hback hother
    exact (hin.2.trans hle).not_gt hwithin.1

/-- Taking a smaller interval out of one of the intervals takes it out of what the list covers.
Assumes: the list is ascending and the smaller interval lies in the interval. -/
theorem covers_carve (hascending : Ascending (front ++ interval :: back))
    (hlow : interval.1 ≤ low) (hlt : low < high) (hhigh : high ≤ interval.2) :
    Covers (front ++ carve interval low high ++ back) point ↔
      Covers (front ++ interval :: back) point ∧ ¬(low < point ∧ point ≤ high) := by
  rw [covers_append, covers_append, covers_append, covers_cons,
    covers_carve_self hlow hlt hhigh]
  have hapart : low < point ∧ point ≤ high → ¬ Covers front point ∧ ¬ Covers back point :=
    fun hout ↦ hascending.within_unique ⟨hlow.trans_lt hout.1, hout.2.trans hhigh⟩
  tauto

/-- Taking a smaller interval out of one of the intervals keeps the list ascending. -/
theorem Ascending.carve (hascending : Ascending (front ++ interval :: back))
    (hlow : interval.1 ≤ low) (hlt : low < high) (hhigh : high ≤ interval.2) :
    Ascending (front ++ Intervals.carve interval low high ++ back) := by
  obtain ⟨hfront, hrest, hacross⟩ := List.pairwise_append.mp hascending.apart
  have hparts : ∀ part ∈ Intervals.carve interval low high,
      interval.1 ≤ part.1 ∧ part.2 ≤ interval.2 ∧ part.1 < part.2 := by
    intro part hpart
    rcases mem_carve.mp hpart with ⟨hne, rfl⟩ | ⟨hne, rfl⟩
    · exact ⟨le_rfl, hlt.le.trans hhigh, lt_of_le_of_ne hlow hne.symm⟩
    · exact ⟨hlow.trans hlt.le, le_rfl, lt_of_le_of_ne hhigh hne⟩
  refine ⟨fun other hother ↦ ?_, ?_⟩
  · rw [List.mem_append, List.mem_append] at hother
    rcases hother with (hleft | hpart) | hright
    · exact hascending.nonempty other (List.mem_append_left _ hleft)
    · exact (hparts other hpart).2.2
    · exact hascending.nonempty other (List.mem_append_right _ (List.mem_cons_of_mem _ hright))
  · rw [List.pairwise_append, List.pairwise_append]
    refine ⟨⟨hfront, ?_, fun left hleft part hpart ↦ ?_⟩, (List.pairwise_cons.mp hrest).2,
      fun left hleft right hright ↦ ?_⟩
    · unfold Intervals.carve
      split_ifs <;> simp [hlt.le]
    · exact (hacross left hleft interval List.mem_cons_self).trans (hparts part hpart).1
    · rcases List.mem_append.mp hleft with hold | hpart
      · exact hacross left hold right (List.mem_cons_of_mem _ hright)
      · exact (hparts left hpart).2.1.trans (List.rel_of_pairwise_cons hrest hright)

end PomboStorageNode.Library.Intervals
