import PomboStorageNode.Autostaker.StakeLegality

/-!
# The stakings that the loop leaves out

While the least amounts of all stakings exceed what is available, the loop leaves out the smallest
staking (`Pulls`). What it left out goes into the next loop, together with what is then still available.
There again it is too much: the stakings come in the same order, and at every step the least amounts of
what is left exceed what is available, because they did so together with the stakings that were kept
(`Pulls.rest`). So the next loop leaves out all of them (`Pulls.balanceOut_eq_nil`).
-/

set_option autoImplicit false

namespace PomboStorageNode.Autostaker

variable {SponsorshipID : Type} [DecidableEq SponsorshipID]
  {opts : AdjustStakesOptions SponsorshipID}

/-! ### The smallest adjustment -/

/-- The place of the smallest adjustment: it is smaller than all before it, and not greater than those
behind it. -/
structure Smallest (smallest : Adjustment SponsorshipID)
    (front back : List (Adjustment SponsorshipID)) : Prop where
  lt_front : ∀ a ∈ front, smallest.difference < a.difference
  le_back : ∀ a ∈ back, smallest.difference ≤ a.difference

omit [DecidableEq SponsorshipID] in
theorem minBy_cons_cons (a other : Adjustment SponsorshipID)
    (adjustments : List (Adjustment SponsorshipID)) : minBy (a :: other :: adjustments) =
      minBy ((if other.difference < a.difference then other else a) :: adjustments) :=
  rfl

omit [DecidableEq SponsorshipID] in
theorem exists_smallest {adjustments : List (Adjustment SponsorshipID)}
    {smallest : Adjustment SponsorshipID} (hsome : minBy adjustments = some smallest) :
    ∃ front back, adjustments = front ++ smallest :: back ∧ Smallest smallest front back := by
  cases adjustments with
  | nil => cases hsome
  | cons a adjustments =>
    induction adjustments generalizing a with
    | nil =>
      obtain rfl : a = smallest := Option.some.inj hsome
      exact ⟨[], [], rfl, List.forall_mem_nil _, List.forall_mem_nil _⟩
    | cons other adjustments ih =>
      rw [minBy_cons_cons] at hsome
      split_ifs at hsome with hlt
      · obtain ⟨front, back, hsplit, hsmallest⟩ := ih other hsome
        have hle : smallest.difference ≤ other.difference := by
          cases front with
          | nil => exact (congrArg Adjustment.difference (List.cons.inj hsplit).1).ge
          | cons first front =>
            exact (List.cons.inj hsplit).1 ▸ (hsmallest.lt_front first List.mem_cons_self).le
        exact ⟨a :: front, back, congrArg (a :: ·) hsplit,
          List.forall_mem_cons.mpr ⟨hle.trans_lt hlt, hsmallest.lt_front⟩, hsmallest.le_back⟩
      · obtain ⟨front, back, hsplit, hsmallest⟩ := ih a hsome
        cases front with
        | nil =>
          obtain ⟨rfl, rfl⟩ := List.cons.inj hsplit
          exact ⟨[], other :: adjustments, rfl, List.forall_mem_nil _,
            List.forall_mem_cons.mpr ⟨not_lt.mp hlt, hsmallest.le_back⟩⟩
        | cons first front =>
          obtain ⟨rfl, rfl⟩ := List.cons.inj hsplit
          have hfirst := List.forall_mem_cons.mp hsmallest.lt_front
          exact ⟨a :: other :: front, back, rfl, List.forall_mem_cons.mpr ⟨hfirst.1,
            List.forall_mem_cons.mpr ⟨hfirst.1.trans_le (not_lt.mp hlt), hfirst.2⟩⟩,
            hsmallest.le_back⟩

omit [DecidableEq SponsorshipID] in
theorem Smallest.minBy_eq {smallest : Adjustment SponsorshipID}
    {front back : List (Adjustment SponsorshipID)} (hsmallest : Smallest smallest front back) :
    minBy (front ++ smallest :: back) = some smallest := by
  obtain ⟨hfront, hback⟩ := hsmallest
  have hfirst : minBy (smallest :: back) = some smallest := by
    induction back with
    | nil => rfl
    | cons other back ih =>
      rw [minBy_cons_cons, if_neg (not_lt.mpr (hback other List.mem_cons_self))]
      exact ih fun a hmem ↦ hback a (List.mem_cons_of_mem other hmem)
  cases front with
  | nil => exact hfirst
  | cons a front =>
    induction front generalizing a with
    | nil =>
      rw [List.singleton_append, minBy_cons_cons, if_pos (hfront a List.mem_cons_self)]
      exact hfirst
    | cons other front ih =>
      obtain ⟨ha, hrest⟩ := List.forall_mem_cons.mp hfront
      obtain ⟨hother, hrest⟩ := List.forall_mem_cons.mp hrest
      rw [List.cons_append, List.cons_append, minBy_cons_cons]
      split_ifs
      · exact ih other (List.forall_mem_cons.mpr ⟨hother, hrest⟩)
      · exact ih a (List.forall_mem_cons.mpr ⟨ha, hrest⟩)

omit [DecidableEq SponsorshipID] in
/-- The smallest adjustment stays the smallest one when others are left out. -/
theorem minBy_filter {adjustments : List (Adjustment SponsorshipID)}
    {smallest : Adjustment SponsorshipID} {keep : Adjustment SponsorshipID → Bool}
    (hsome : minBy adjustments = some smallest) (hkeep : keep smallest = true) :
    minBy (adjustments.filter keep) = some smallest := by
  obtain ⟨front, back, rfl, hsmallest⟩ := exists_smallest hsome
  rw [List.filter_append, List.filter_cons_of_pos hkeep]
  apply Smallest.minBy_eq
  exact ⟨fun a hmem ↦ hsmallest.lt_front a (List.mem_of_mem_filter hmem),
    fun a hmem ↦ hsmallest.le_back a (List.mem_of_mem_filter hmem)⟩

/-! ### Least amounts -/

/-- The least amount of a staking: nothing more can be taken off it. -/
def leastAmount (opts : AdjustStakesOptions SponsorshipID) (a : Adjustment SponsorshipID) : ℤ :=
  min a.difference (minDiff opts a.sponsorshipId)

/-- The least amounts of all stakings. -/
def leastSum (opts : AdjustStakesOptions SponsorshipID)
    (adjustments : List (Adjustment SponsorshipID)) : ℤ :=
  ((stakings adjustments).map (leastAmount opts)).sum

theorem leastAmount_add_allowance (opts : AdjustStakesOptions SponsorshipID)
    (a : Adjustment SponsorshipID) : leastAmount opts a + allowance opts a = a.difference := by
  unfold leastAmount allowance
  omega

theorem leastSum_add_totalAllowance (opts : AdjustStakesOptions SponsorshipID)
    (adjustments : List (Adjustment SponsorshipID)) :
    leastSum opts adjustments + totalAllowance opts adjustments = stakingSum adjustments := by
  unfold leastSum totalAllowance stakingSum
  rw [← List.sum_map_add]
  exact congrArg List.sum (List.map_congr_left fun a _ ↦ leastAmount_add_allowance opts a)

theorem leastSum_le (opts : AdjustStakesOptions SponsorshipID)
    (adjustments : List (Adjustment SponsorshipID)) :
    leastSum opts adjustments ≤ stakingSum adjustments := by
  rw [← leastSum_add_totalAllowance opts]
  exact le_add_of_nonneg_right (totalAllowance_nonneg opts adjustments)

theorem leastSum_append (opts : AdjustStakesOptions SponsorshipID)
    (first second : List (Adjustment SponsorshipID)) :
    leastSum opts (first ++ second) = leastSum opts first + leastSum opts second := by
  unfold leastSum stakings
  rw [List.filter_append, List.map_append, List.sum_append]

theorem leastSum_perm {first second : List (Adjustment SponsorshipID)}
    (hperm : first.Perm second) : leastSum opts first = leastSum opts second :=
  ((hperm.filter _).map _).sum_eq

/-- The least amounts of what is left out of a list. -/
theorem leastSum_filter_not_mem {adjustments kept : List (Adjustment SponsorshipID)}
    (hnodup : adjustments.Nodup) (hsub : kept.Sublist adjustments) :
    leastSum opts (adjustments.filter (· ∉ kept)) = leastSum opts adjustments - leastSum opts kept := by
  have hkept : (adjustments.filter (· ∈ kept)).Perm kept := by
    refine (List.perm_ext_iff_of_nodup (hnodup.filter _) (hnodup.sublist hsub)).mpr fun a ↦ ?_
    rw [List.mem_filter, decide_eq_true_iff]
    exact and_iff_right_of_imp fun hmem ↦ hsub.subset hmem
  have hsplit := @leastSum_perm _ _ opts _ _ (List.filter_append_perm (· ∈ kept) adjustments)
  rw [leastSum_append, leastSum_perm hkept] at hsplit
  simp only [← decide_not] at hsplit
  exact eq_sub_of_add_eq' hsplit

/-! ### Leaving out -/

/-- The loop leaves out smallest stakings while the least amounts exceed what is available. -/
inductive Pulls (opts : AdjustStakesOptions SponsorshipID) (available : ℤ) :
    List (Adjustment SponsorshipID) → List (Adjustment SponsorshipID) → Prop
  | refl (adjustments : List (Adjustment SponsorshipID)) : Pulls opts available adjustments adjustments
  | pull {adjustments kept : List (Adjustment SponsorshipID)}
      {smallestStaking : Adjustment SponsorshipID}
      (smallest : minBy (stakings adjustments) = some smallestStaking)
      (exceeds : available < leastSum opts adjustments)
      (rest : Pulls opts available (pull adjustments smallestStaking) kept) :
      Pulls opts available adjustments kept

omit [DecidableEq SponsorshipID] in
theorem mem_of_minBy_stakings {adjustments : List (Adjustment SponsorshipID)}
    {smallestStaking : Adjustment SponsorshipID}
    (hsmallest : minBy (stakings adjustments) = some smallestStaking) :
    smallestStaking ∈ adjustments ∧ 0 < smallestStaking.difference :=
  (List.mem_filter.mp (minBy_mem hsmallest)).imp_right of_decide_eq_true

theorem Pulls.sublist {available : ℤ} {adjustments kept : List (Adjustment SponsorshipID)}
    (hpulls : Pulls opts available adjustments kept) : kept.Sublist adjustments := by
  induction hpulls with
  | refl adjustments => exact List.Sublist.refl _
  | pull _ _ _ ih => exact ih.trans List.filter_sublist

/-- What is left out is left out again, with what the least amounts of the others leave available. -/
theorem Pulls.rest {available : ℤ} {adjustments kept : List (Adjustment SponsorshipID)}
    (hpulls : Pulls opts available adjustments kept) (hnodup : adjustments.Nodup) :
    Pulls opts (available - leastSum opts kept) (adjustments.filter (· ∉ kept)) [] := by
  induction hpulls with
  | refl adjustments =>
    rw [List.filter_eq_nil_iff.mpr fun a hmem ↦ by simpa using hmem]
    exact .refl []
  | @pull adjustments kept smallestStaking hsmallest hexceeds hrest ih =>
    have hout : smallestStaking ∉ kept := fun hmem ↦ by
      have hpulled := (List.mem_filter.mp (hrest.sublist.subset hmem)).2
      exact of_decide_eq_true hpulled rfl
    have hstaking : minBy (stakings (adjustments.filter (· ∉ kept))) = some smallestStaking := by
      unfold stakings at hsmallest ⊢
      rw [List.filter_comm]
      exact minBy_filter hsmallest (decide_eq_true hout)
    refine .pull hstaking ?_ ?_
    · rw [leastSum_filter_not_mem hnodup (hrest.sublist.trans List.filter_sublist)]
      exact sub_lt_sub_right hexceeds _
    · unfold Autostaker.pull at ih ⊢
      rw [List.filter_comm]
      exact ih (hnodup.filter _)

/-- With less that is available, the same stakings are left out. -/
theorem Pulls.mono {available less : ℤ} {adjustments kept : List (Adjustment SponsorshipID)}
    (hpulls : Pulls opts available adjustments kept) (hle : less ≤ available) :
    Pulls opts less adjustments kept := by
  induction hpulls with
  | refl adjustments => exact .refl adjustments
  | pull hsmallest hexceeds _ ih => exact .pull hsmallest (hle.trans_lt hexceeds) ih

/-- Only the least amounts of the adjustments matter. -/
theorem Pulls.congr {other : AdjustStakesOptions SponsorshipID} {available : ℤ}
    {adjustments kept : List (Adjustment SponsorshipID)}
    (hpulls : Pulls opts available adjustments kept)
    (hsame : ∀ a ∈ adjustments, minDiff other a.sponsorshipId = minDiff opts a.sponsorshipId) :
    Pulls other available adjustments kept := by
  induction hpulls with
  | refl adjustments => exact .refl adjustments
  | @pull adjustments kept smallestStaking hsmallest hexceeds _ ih =>
    have hsum : leastSum other adjustments = leastSum opts adjustments := by
      refine congrArg List.sum (List.map_congr_left fun a hmem ↦ ?_)
      rw [leastAmount, leastAmount, hsame a (List.mem_of_mem_filter hmem)]
    refine .pull hsmallest (hexceeds.trans_eq hsum.symm) (ih fun a hmem ↦ ?_)
    exact hsame a (List.mem_of_mem_filter hmem)

theorem leastSum_pos {adjustments : List (Adjustment SponsorshipID)}
    (hpos : ∀ a ∈ adjustments, 0 < a.difference) (hmin : 0 < opts.minTransactionAmount)
    (hne : adjustments ≠ []) : 0 < leastSum opts adjustments := by
  have hstakings : stakings adjustments = adjustments :=
    List.filter_eq_self.mpr fun a hmem ↦ decide_eq_true (hpos a hmem)
  rw [leastSum, hstakings]
  apply List.sum_pos
  · refine List.forall_mem_map.mpr fun a hmem ↦ ?_
    exact lt_min (hpos a hmem) (hmin.trans_le (le_max_left _ _))
  · exact List.map_eq_nil_iff.not.mpr hne

/-- With nothing available, all stakings are left out. -/
theorem pulls_nil {adjustments : List (Adjustment SponsorshipID)}
    (hpos : ∀ a ∈ adjustments, 0 < a.difference) (hmin : 0 < opts.minTransactionAmount) :
    Pulls opts 0 adjustments [] := by
  induction hlength : adjustments.length using Nat.strong_induction_on generalizing adjustments with
  | _ length ih =>
    subst hlength
    cases hsmallest : minBy (stakings adjustments) with
    | none =>
      have hstakings := List.filter_eq_nil_iff.mp (minBy_eq_none hsmallest)
      have hnil : adjustments = [] := List.eq_nil_iff_forall_not_mem.mpr fun a hmem ↦
        hstakings a hmem (decide_eq_true (hpos a hmem))
      rw [hnil]
      exact .refl []
    | some smallestStaking =>
      have hmem := (mem_of_minBy_stakings hsmallest).1
      refine .pull hsmallest (leastSum_pos hpos hmin (List.ne_nil_of_mem hmem)) ?_
      exact ih _ (length_pull_lt hmem) (fun a ha ↦ hpos a (List.mem_of_mem_filter ha)) rfl

/-! ### The loop -/

/-- Leaving out a staking does not change what is available. -/
theorem availableSum_pull {adjustments : List (Adjustment SponsorshipID)}
    {smallestStaking : Adjustment SponsorshipID} (hpos : 0 < smallestStaking.difference) :
    availableSum opts (pull adjustments smallestStaking) = availableSum opts adjustments := by
  have hunstakings : unstakings (pull adjustments smallestStaking) = unstakings adjustments := by
    unfold unstakings pull
    rw [List.filter_comm]
    refine List.filter_eq_self.mpr fun a hmem ↦ decide_eq_true fun hsame ↦ ?_
    have hneg := of_decide_eq_true (List.mem_filter.mp hmem).2
    exact absurd (hsame ▸ hneg) hpos.not_gt
  rw [availableSum, hunstakings, availableSum]

theorem Pulls.availableSum_eq {available : ℤ} {adjustments kept : List (Adjustment SponsorshipID)}
    (hpulls : Pulls opts available adjustments kept) :
    availableSum opts kept = availableSum opts adjustments := by
  induction hpulls with
  | refl adjustments => rfl
  | pull hsmallest _ _ ih => exact ih.trans (availableSum_pull (mem_of_minBy_stakings hsmallest).2)

/-- One round of the loop that leaves out a staking. -/
theorem balanceOut_eq_pull {adjustments : List (Adjustment SponsorshipID)}
    {smallestStaking : Adjustment SponsorshipID}
    (hsmallest : minBy (stakings adjustments) = some smallestStaking)
    (hexceeds : availableSum opts adjustments < leastSum opts adjustments) :
    balanceOut opts adjustments = balanceOut opts (pull adjustments smallestStaking) := by
  have hsum := leastSum_add_totalAllowance opts adjustments
  have hallowance := totalAllowance_nonneg opts adjustments
  rw [balanceOut, if_pos (by omega)]
  split
  · rename_i hnone
    rw [hsmallest] at hnone
    cases hnone
  · rename_i smallest hsome
    obtain rfl : smallestStaking = smallest := Option.some.inj (hsmallest.symm.trans hsome)
    exact if_pos (by omega)

theorem balanceOut_nil (opts : AdjustStakesOptions SponsorshipID) : balanceOut opts [] = [] := by
  obtain ⟨kept, hbalanced⟩ := exists_balanced opts []
  have hreduced := hbalanced.reduced
  rw [List.sublist_nil.mp hbalanced.sublist] at hreduced
  exact List.forall₂_nil_left_iff.mp hreduced

/-- A loop that leaves out everything. -/
theorem Pulls.balanceOut_eq_nil {available : ℤ} {adjustments kept : List (Adjustment SponsorshipID)}
    (hpulls : Pulls opts available adjustments kept) (hkept : kept = [])
    (havailable : availableSum opts adjustments = available) :
    balanceOut opts adjustments = [] := by
  induction hpulls with
  | refl adjustments => rw [hkept, balanceOut_nil]
  | pull hsmallest hexceeds _ ih =>
    rw [balanceOut_eq_pull hsmallest (havailable.trans_lt hexceeds)]
    exact ih hkept ((availableSum_pull (mem_of_minBy_stakings hsmallest).2).trans havailable)

/-- How the loop ends: with the stakings it kept, or with all that is available staked. -/
theorem exists_pulls (opts : AdjustStakesOptions SponsorshipID)
    (adjustments : List (Adjustment SponsorshipID)) :
    ∃ kept, Balanced opts adjustments kept (balanceOut opts adjustments) ∧
      Pulls opts (availableSum opts adjustments) adjustments kept ∧
      (balanceOut opts adjustments = kept ∨
        stakingSum (balanceOut opts adjustments) = availableSum opts adjustments) := by
  fun_induction balanceOut opts adjustments with
  | case1 adjustments excess hexcess hmin =>
    exact ⟨adjustments, .of_covered (Or.inl (minBy_eq_none hmin)), .refl _, Or.inl rfl⟩
  | case2 adjustments excess hexcess smallestStaking hmin hallowance ih =>
    obtain ⟨kept, hbalanced, hpulls, hend⟩ := ih
    have hpos := (mem_of_minBy_stakings hmin).2
    have hsum := leastSum_add_totalAllowance opts adjustments
    rw [availableSum_pull hpos] at hpulls hend
    refine ⟨kept, hbalanced.of_pull hpos, .pull hmin ?_ hpulls, hend⟩
    have hlt : totalAllowance opts adjustments <
        stakingSum adjustments - availableSum opts adjustments := hallowance
    omega
  | case3 adjustments excess hexcess smallestStaking hmin hallowance =>
    have hle := not_lt.mp hallowance
    exact ⟨adjustments, .of_reduced hexcess.le hle, .refl _,
      Or.inr (stakingSum_reduced hexcess.le hle)⟩
  | case4 adjustments excess hexcess =>
    exact ⟨adjustments, .of_covered (Or.inr (sub_nonpos.mp (not_lt.mp hexcess))), .refl _,
      Or.inl rfl⟩

end PomboStorageNode.Autostaker
