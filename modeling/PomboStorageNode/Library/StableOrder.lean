import Mathlib.Data.List.Sort

/-!
# The first items of a list in another order

`Before` says that an item comes before another one in a list. The first items of a list are still the
first ones in another order when nothing else comes before one of them there (`take_perm_of_before`).
Insertion sort is stable, so it does not matter whether items are left out before or after it
(`filter_insertionSort`).

A choice that prefers what it chose before takes the first of `preferred`: the items that are kept, in
the order of the list, and behind them all others in sorted order. When it is made again, and nothing is
kept but what was chosen or kept before, it chooses the same items (`take_preferred_perm`).
-/

set_option autoImplicit false

namespace PomboStorageNode.Library

variable {Item : Type*}

/-- An item comes before another one in a list. -/
def Before (items : List Item) (earlier later : Item) : Prop :=
  [earlier, later].Sublist items

theorem Before.mono {items others : List Item} {earlier later : Item}
    (hbefore : Before items earlier later) (hsub : items.Sublist others) :
    Before others earlier later :=
  List.Sublist.trans hbefore hsub

theorem Before.mem {items : List Item} {earlier later : Item}
    (hbefore : Before items earlier later) : earlier ∈ items :=
  List.Sublist.subset hbefore List.mem_cons_self

theorem before_append_iff {items others : List Item} {earlier later : Item} :
    Before (items ++ others) earlier later ↔ Before items earlier later ∨
      Before others earlier later ∨ (earlier ∈ items ∧ later ∈ others) := by
  unfold Before
  constructor
  · intro hsub
    obtain ⟨first, second, hsplit, hfirst, hsecond⟩ := List.sublist_append_iff.mp hsub
    rcases List.append_eq_cons_iff.mp hsplit.symm with ⟨rfl, hnil⟩ | ⟨rest, rfl, hrest⟩
    · rw [hnil] at hsecond
      exact Or.inr (Or.inl hsecond)
    · rcases List.append_eq_cons_iff.mp hrest.symm with ⟨rfl, hnil⟩ | ⟨last, rfl, hlast⟩
      · rw [hnil] at hsecond
        exact Or.inr (Or.inr ⟨List.singleton_sublist.mp hfirst, List.singleton_sublist.mp hsecond⟩)
      · rw [(List.append_eq_nil_iff.mp hlast.symm).1] at hfirst
        exact Or.inl hfirst
  · rintro (hsub | hsub | ⟨hearlier, hlater⟩)
    · exact hsub.trans (List.sublist_append_left items others)
    · exact hsub.trans (List.sublist_append_right items others)
    · exact (List.singleton_sublist.mpr hearlier).append (List.singleton_sublist.mpr hlater)

theorem before_filter_iff {items : List Item} {keep : Item → Bool} {earlier later : Item} :
    Before (items.filter keep) earlier later ↔
      Before items earlier later ∧ keep earlier = true ∧ keep later = true := by
  constructor
  · intro hbefore
    have hkeep {item : Item} (hmem : item ∈ [earlier, later]) : keep item = true :=
      (List.mem_filter.mp (List.Sublist.subset hbefore hmem)).2
    exact ⟨hbefore.mono List.filter_sublist, hkeep (by simp), hkeep (by simp)⟩
  · rintro ⟨hbefore, hearlier, hlater⟩
    have hfilter := List.Sublist.filter keep hbefore
    rwa [List.filter_cons_of_pos hearlier, List.filter_cons_of_pos hlater, List.filter_nil] at hfilter

/-- What comes before one of the first items is one of them. -/
theorem Before.mem_take {items : List Item} {earlier later : Item} {count : ℕ}
    (hbefore : Before items earlier later) (hnodup : items.Nodup)
    (hmem : later ∈ items.take count) : earlier ∈ items.take count := by
  rw [← List.take_append_drop count items] at hbefore hnodup
  rcases before_append_iff.mp hbefore with hfirst | hrest | ⟨hfirst, -⟩
  · exact hfirst.mem
  · have hlater : later ∈ items.drop count :=
      List.Sublist.subset hrest (List.mem_cons_of_mem _ List.mem_cons_self)
    exact absurd rfl ((List.nodup_append.mp hnodup).2.2 later hmem later hlater)
  · exact hfirst

/-- An item is one of the first ones when everything before it is in a list of that length. -/
theorem mem_take_of_before {items chosen : List Item} {item : Item} {count : ℕ}
    (hnodup : items.Nodup) (hitem : item ∈ items) (hchosen : item ∈ chosen)
    (hlength : chosen.length ≤ count)
    (hbefore : ∀ earlier, Before items earlier item → earlier ∈ chosen) :
    item ∈ items.take count := by
  obtain ⟨front, back, rfl⟩ := List.append_of_mem hitem
  have hfront : (item :: front).Nodup := by
    have hperm : (front ++ item :: back).Perm ((item :: front) ++ back) := List.perm_middle
    exact (List.nodup_append.mp (hperm.nodup_iff.mp hnodup)).1
  have hsub : item :: front ⊆ chosen := by
    refine List.cons_subset.mpr ⟨hchosen, fun earlier hmem ↦ hbefore earlier ?_⟩
    exact before_append_iff.mpr (Or.inr (Or.inr ⟨hmem, List.mem_cons_self⟩))
  have hle : front.length + 1 ≤ count :=
    (List.subperm_of_subset hfront hsub).length_le.trans hlength
  rw [List.take_append, List.mem_append]
  refine Or.inr ?_
  obtain ⟨rest, hrest⟩ := Nat.exists_eq_add_of_le hle
  rw [hrest, Nat.add_assoc, Nat.add_sub_cancel_left, Nat.add_comm 1 rest, List.take_succ_cons]
  exact List.mem_cons_self

/-- The first items of a list are the first ones in another order when nothing else comes before one of
them there. -/
theorem take_perm_of_before {items others : List Item} {count : ℕ} (hperm : others.Perm items)
    (hnodup : items.Nodup) (hbefore : ∀ item ∈ items.take count, ∀ earlier,
      Before others earlier item → earlier ∈ items.take count) :
    (others.take count).Perm (items.take count) := by
  have hsub : items.take count ⊆ others.take count := fun item hmem ↦
    mem_take_of_before (hperm.nodup_iff.mpr hnodup) (hperm.mem_iff.mpr (List.mem_of_mem_take hmem))
      hmem (List.length_take_le _ _) (hbefore item hmem)
  have hsubperm : (items.take count).Subperm (others.take count) :=
    List.subperm_of_subset (hnodup.sublist (List.take_sublist _ _)) hsub
  refine (hsubperm.perm_of_length_le ?_).symm
  rw [List.length_take, List.length_take, hperm.length_eq]

/-- The first items of a list without repetitions, in the order of the list. -/
theorem filter_mem_take [DecidableEq Item] {items : List Item} (hnodup : items.Nodup) (count : ℕ) :
    items.filter (· ∈ items.take count) = items.take count := by
  conv_lhs => rw [← List.take_append_drop count items, List.filter_append]
  rw [← List.take_append_drop count items] at hnodup
  rw [List.filter_eq_self.mpr fun item hmem ↦ by simpa using hmem,
    List.filter_eq_nil_iff.mpr fun item hmem ↦ ?_, List.append_nil]
  rw [List.take_append_drop, decide_eq_true_iff]
  exact fun htake ↦ (List.nodup_append.mp hnodup).2.2 item htake item hmem rfl

/-! ### Stability of the sort -/

variable {order : Item → Item → Prop} [DecidableRel order] [Std.Total order] [IsTrans Item order]

/-- Sorting keeps the sublists. -/
theorem sublist_insertionSort_of_sublist {items others : List Item} (hsub : items.Sublist others) :
    (items.insertionSort order).Sublist (others.insertionSort order) := by
  induction hsub with
  | slnil => exact List.Sublist.refl _
  | cons item _ ih =>
    rw [List.insertionSort_cons]
    exact ih.trans (List.sublist_orderedInsert item _)
  | cons_cons item _ ih =>
    rw [List.insertionSort_cons, List.insertionSort_cons]
    exact List.Sublist.orderedInsert_sublist item ih (List.pairwise_insertionSort order _)

theorem filter_insertionSort (keep : Item → Bool) (items : List Item) :
    (items.insertionSort order).filter keep = (items.filter keep).insertionSort order := by
  have hperm := List.perm_insertionSort order
  have hkeep : ((items.filter keep).insertionSort order).filter keep =
      (items.filter keep).insertionSort order :=
    List.filter_eq_self.mpr fun item hmem ↦ (List.mem_filter.mp ((hperm _).subset hmem)).2
  have hsub : ((items.filter keep).insertionSort order).Sublist (items.insertionSort order) :=
    sublist_insertionSort_of_sublist List.filter_sublist
  have hsub := hsub.filter keep
  rw [hkeep] at hsub
  exact (hsub.eq_of_length ((hperm _).trans ((hperm items).filter keep).symm).length_eq).symm

/-! ### Preferred items -/

/-- The items that are kept, and behind them the others in sorted order. -/
def preferred (order : Item → Item → Prop) [DecidableRel order] (keep : Item → Bool)
    (items : List Item) : List Item :=
  items.filter keep ++ (items.filter (!keep ·)).insertionSort order

omit [Std.Total order] [IsTrans Item order] in
theorem preferred_perm (keep : Item → Bool) (items : List Item) :
    (preferred order keep items).Perm items :=
  ((List.perm_insertionSort order _).append_left _).trans (List.filter_append_perm keep items)

/-- The order of some items does not depend on whether others are kept. -/
theorem filter_preferred {keep keepAgain wanted : Item → Bool} {items : List Item}
    (hsame : ∀ item, wanted item = true → keepAgain item = keep item) :
    (preferred order keepAgain items).filter wanted = (preferred order keep items).filter wanted := by
  unfold preferred
  rw [List.filter_append, List.filter_append, filter_insertionSort, filter_insertionSort,
    List.filter_filter, List.filter_filter, List.filter_filter, List.filter_filter]
  have hkeep : (fun item ↦ wanted item && keepAgain item) = fun item ↦ wanted item && keep item := by
    ext item
    cases hwanted : wanted item with
    | false => rfl
    | true => rw [hsame item hwanted]
  have hother : (fun item ↦ wanted item && !keepAgain item) =
      fun item ↦ wanted item && !keep item := by
    ext item
    cases hwanted : wanted item with
    | false => rfl
    | true => rw [hsame item hwanted]
  rw [hkeep, hother]

omit [Std.Total order] [IsTrans Item order] in
theorem before_preferred {keep : Item → Bool} {items : List Item} {earlier later : Item}
    (hearlier : earlier ∈ items) (hlater : later ∈ items) (hkeep : keep earlier = true)
    (hnot : keep later = false) : Before (preferred order keep items) earlier later := by
  refine before_append_iff.mpr (Or.inr (Or.inr ⟨List.mem_filter.mpr ⟨hearlier, hkeep⟩, ?_⟩))
  rw [List.mem_insertionSort, List.mem_filter, hnot]
  exact ⟨hlater, rfl⟩

/-- What comes before an item of the first choice in the second one is of the first choice, or came
before it already. -/
theorem before_preferred_again {keep keepAgain : Item → Bool} {items chosen : List Item}
    {earlier later : Item} (hkept : keep later = true → keepAgain later = true)
    (hnew : keepAgain earlier = true → keep earlier = true ∨ earlier ∈ chosen)
    (hbefore : Before (preferred order keepAgain items) earlier later) :
    earlier ∈ chosen ∨ Before (preferred order keep items) earlier later := by
  have hlater : later ∈ items := (preferred_perm keepAgain items).subset
    (List.Sublist.subset hbefore (List.mem_cons_of_mem _ List.mem_cons_self))
  have hearlier : earlier ∈ items := (preferred_perm keepAgain items).subset hbefore.mem
  have hnotKept (hnot : keepAgain later = false) : keep later = false := by
    rw [← Bool.not_eq_true] at hnot ⊢
    exact fun hkeep ↦ hnot (hkept hkeep)
  rcases before_append_iff.mp hbefore with hfirst | hrest | ⟨hfirst, hrest⟩
  · obtain ⟨hitems, hagain, -⟩ := before_filter_iff.mp hfirst
    refine (hnew hagain).symm.imp_right fun hkeep ↦ ?_
    cases hcase : keep later with
    | true =>
      exact (before_filter_iff.mpr ⟨hitems, hkeep, hcase⟩).mono (List.sublist_append_left _ _)
    | false => exact before_preferred hearlier hlater hkeep hcase
  · refine Or.inr ?_
    have hnotAgain : keepAgain later = false := by
      have hmem := List.Sublist.subset hrest (List.mem_cons_of_mem _ List.mem_cons_self)
      rw [List.mem_insertionSort] at hmem
      exact Bool.not_eq_true' _ ▸ (List.mem_filter.mp hmem).2
    cases hcase : keep earlier with
    | true => exact before_preferred hearlier hlater hcase (hnotKept hnotAgain)
    | false =>
      -- neither was kept in either choice, and the sort is stable
      have hsorted : Before (((items.filter (!keepAgain ·)).insertionSort order).filter (!keep ·))
          earlier later :=
        before_filter_iff.mpr ⟨hrest, by simp [hcase], by simp [hnotKept hnotAgain]⟩
      rw [filter_insertionSort, List.filter_comm, ← filter_insertionSort] at hsorted
      exact (hsorted.mono List.filter_sublist).mono (List.sublist_append_right _ _)
  · have hagain := (List.mem_filter.mp hfirst).2
    have hnotAgain : keepAgain later = false := by
      rw [List.mem_insertionSort] at hrest
      exact Bool.not_eq_true' _ ▸ (List.mem_filter.mp hrest).2
    refine (hnew hagain).symm.imp_right fun hkeep ↦ ?_
    exact before_preferred hearlier hlater hkeep (hnotKept hnotAgain)

/-- A choice that is made again chooses the same items, when those that were kept of them are still
kept, and nothing else is kept but what was kept before. -/
theorem take_preferred_perm {keep keepAgain : Item → Bool} {items : List Item} {count : ℕ}
    (hnodup : items.Nodup)
    (hkept : ∀ item ∈ (preferred order keep items).take count,
      keep item = true → keepAgain item = true)
    (hnew : ∀ item, keepAgain item = true →
      keep item = true ∨ item ∈ (preferred order keep items).take count) :
    ((preferred order keepAgain items).take count).Perm
      ((preferred order keep items).take count) := by
  have hfirst : (preferred order keep items).Nodup :=
    (preferred_perm keep items).nodup_iff.mpr hnodup
  apply take_perm_of_before
  · exact (preferred_perm keepAgain items).trans (preferred_perm keep items).symm
  · exact hfirst
  · intro item hmem earlier hbefore
    rcases before_preferred_again (hkept item hmem) (hnew earlier) hbefore with hchosen | hearlier
    · exact hchosen
    · exact hearlier.mem_take hfirst hmem

/-- When fewer items are kept, an item that was chosen without being kept is chosen again. -/
theorem mem_take_preferred {keep keepAgain : Item → Bool} {items : List Item} {count : ℕ} {item : Item}
    (hnodup : items.Nodup) (hless : ∀ other, keepAgain other = true → keep other = true)
    (hnot : keep item = false) (hmem : item ∈ (preferred order keep items).take count) :
    item ∈ (preferred order keepAgain items).take count := by
  have hfirst : (preferred order keep items).Nodup :=
    (preferred_perm keep items).nodup_iff.mpr hnodup
  have hitem : item ∈ items := (preferred_perm keep items).subset (List.mem_of_mem_take hmem)
  refine mem_take_of_before ((preferred_perm keepAgain items).nodup_iff.mpr hnodup)
    ((preferred_perm keepAgain items).mem_iff.mpr hitem) hmem (List.length_take_le _ _)
    fun earlier hbefore ↦ ?_
  have hkept : keep item = true → keepAgain item = true := fun hkeep ↦ by
    rw [hnot] at hkeep
    cases hkeep
  rcases before_preferred_again hkept (fun hagain ↦ Or.inl (hless earlier hagain)) hbefore with
    hchosen | hearlier
  · exact hchosen
  · exact hearlier.mem_take hfirst hmem

end PomboStorageNode.Library
