import PomboStorageNode.Autostaker.LeftOutStakings
import PomboStorageNode.Autostaker.SecondSelection

/-!
# Stability of the stakes

The strategy runs at every interval, and every action is a transaction that costs something. So a call of
`adjustStakes` after its own actions should return no actions. It does not when the targets stay the same
(`adjustAgain_eq_nil`). Then every stake is on the way from what it was to its target, so the second call
has only stakings: those that the first loop left out, in the same order, or what it took off. For the
first ones too little is available, as before; when something was taken off, nothing is available.

The targets change when a selected sponsorship has the target zero, so that its stake is unstaked, and
another sponsorship takes its place (`rounded_again`).
-/

set_option autoImplicit false

namespace PomboStorageNode.Autostaker

open Library

variable {SponsorshipID : Type} [DecidableEq SponsorshipID]
  {operatorHash : String → SponsorshipID → ℤ} {opts after : AdjustStakesOptions SponsorshipID}
  {actions : List (Action SponsorshipID)} {selectedSponsorships selectedAfter : List SponsorshipID}

/-! ### Adjustments -/

/-- When no adjustment is too small, a stake that is not the target is adjusted. -/
theorem adjustmentFor_mem (hselected : Selected operatorHash opts selectedSponsorships)
    (hmin : opts.minTransactionAmount ≤ 1) {id : SponsorshipID}
    (hne : targetOf opts selectedSponsorships id ≠ currentStake opts id) :
    adjustmentFor opts selectedSponsorships id ∈ adjustmentsOf opts selectedSponsorships := by
  have hdifference : (adjustmentFor opts selectedSponsorships id).difference ≠ 0 := sub_ne_zero.mpr hne
  refine (mem_adjustmentsOf_iff hselected).mpr ⟨?_, rfl, hdifference, decide_eq_false ?_⟩
  · by_contra hnone
    exact hne (targetOf_eq_currentStake hnone)
  · exact fun hsmall ↦ (hmin.trans (Int.one_le_abs hdifference)).not_gt hsmall.1

theorem adjustmentFor_congr {id : SponsorshipID}
    (htarget : targetOf after selectedAfter id = targetOf opts selectedSponsorships id)
    (hcurrent : currentStake after id = currentStake opts id) :
    adjustmentFor after selectedAfter id = adjustmentFor opts selectedSponsorships id := by
  rw [adjustmentFor, htarget, hcurrent, adjustmentFor]

/-- Whether a sponsorship has a staking before the loop. -/
def hasStaking (opts : AdjustStakesOptions SponsorshipID)
    (selectedSponsorships : List SponsorshipID) (id : SponsorshipID) : Bool :=
  0 < (adjustmentFor opts selectedSponsorships id).difference &&
    !tooSmall opts (adjustmentFor opts selectedSponsorships id)

/-- The stakings are in the order of the selected sponsorships. -/
theorem stakings_adjustmentsOf (hselected : Selected operatorHash opts selectedSponsorships) :
    stakings (adjustmentsOf opts selectedSponsorships) =
      (selectedSponsorships.filter (hasStaking opts selectedSponsorships)).map
        (adjustmentFor opts selectedSponsorships) := by
  obtain ⟨rest, hrest⟩ := @OrderedMap.exists_entries_fromEntries_append _ _ _
    (targetOf opts selectedSponsorships)
    (selectedSponsorships.map fun id ↦ (id, targetOf opts selectedSponsorships id))
    ((opts.myCurrentStakes.keys.filter (· ∉ selectedSponsorships)).map (·, (0 : ℤ)) ++
      (getExpiredSponsorships opts).map (·, (0 : ℤ)))
    (by rw [List.map_map]; exact (List.map_id _).symm ▸ hselected.nodup)
    (fun entry hmem ↦ ((mem_targetEntries_iff hselected).mp
      (by rwa [targetEntries, List.append_assoc])).2)
  rw [← List.append_assoc] at hrest
  change (OrderedMap.fromEntries (targetEntries opts selectedSponsorships)).entries = _ at hrest
  -- the other targets are zero
  have hnone : ∀ entry ∈ rest, entry.2 - currentStake opts entry.1 ≤ 0 := by
    intro entry hmem
    have hentry : entry ∈
        (OrderedMap.fromEntries (targetEntries opts selectedSponsorships)).entries :=
      hrest ▸ List.mem_append_right _ hmem
    have hnot : entry.1 ∉ selectedSponsorships := fun hin ↦ by
      have hnodup := (OrderedMap.fromEntries (targetEntries opts selectedSponsorships)).nodup_keys
      rw [hrest, List.map_append, List.map_map] at hnodup
      exact (List.nodup_append.mp hnodup).2.2 entry.1 (List.mem_map.mpr ⟨entry.1, hin, rfl⟩) entry.1
        (List.mem_map_of_mem hmem) rfl
    rw [((mem_targetStakes_iff hselected).mp hentry).2, targetOf, if_neg hnot, zero_sub]
    exact neg_nonpos.mpr (currentStake_nonneg opts entry.1)
  unfold stakings adjustmentsOf allAdjustments
  rw [hrest, List.map_append, List.map_map, List.filter_append, List.filter_append,
    List.filter_append, List.filter_filter, List.filter_filter, List.filter_map]
  refine (congrArg₂ (· ++ ·) ?_ ?_).trans (List.append_nil _)
  · refine congrArg (List.map _) (List.filter_congr fun id _ ↦ ?_)
    show (decide (0 < (adjustmentFor opts selectedSponsorships id).difference) &&
      !tooSmall opts (adjustmentFor opts selectedSponsorships id) &&
      decide ((adjustmentFor opts selectedSponsorships id).difference ≠ 0)) = _
    rw [hasStaking]
    by_cases hpos : 0 < (adjustmentFor opts selectedSponsorships id).difference
    · simp [hpos, hpos.ne']
    · simp [hpos]
  · refine List.filter_eq_nil_iff.mpr fun a hmem hpos ↦ ?_
    obtain ⟨entry, hentry, rfl⟩ :=
      List.mem_map.mp (List.mem_of_mem_filter (List.mem_of_mem_filter hmem))
    exact (hnone entry hentry).not_gt (of_decide_eq_true hpos)

/-! ### Two calls -/

/-- What holds between two calls: the first one selected some sponsorships and kept some adjustments,
its actions were applied, and the second one selects again. -/
structure TwoCalls (operatorHash : String → SponsorshipID → ℤ)
    (opts after : AdjustStakesOptions SponsorshipID)
    (selectedSponsorships selectedAfter : List SponsorshipID)
    (kept : List (Adjustment SponsorshipID)) : Prop where
  selected : Selected operatorHash opts selectedSponsorships
  selectedAgain : Selected operatorHash after selectedAfter
  nonneg : 0 ≤ totalStakeableAmount opts
  nonzero : NonzeroStakes opts.myCurrentStakes
  balanced : Balanced opts (adjustmentsOf opts selectedSponsorships) kept
    (balanceOut opts (adjustmentsOf opts selectedSponsorships))
  applied : Applied opts (sortActions
    ((balanceOut opts (adjustmentsOf opts selectedSponsorships)).map toAction)) after

namespace TwoCalls

variable {kept : List (Adjustment SponsorshipID)}

theorem currentStake_eq
    (h : TwoCalls operatorHash opts after selectedSponsorships selectedAfter kept)
    (id : SponsorshipID) : currentStake after id = currentStake opts id +
      changeOf (balanceOut opts (adjustmentsOf opts selectedSponsorships)) id := by
  rw [← stakeIn_stakesAfter, ← h.applied.stakes]
  rfl

theorem has_iff (h : TwoCalls operatorHash opts after selectedSponsorships selectedAfter kept)
    (id : SponsorshipID) : opts.myCurrentStakes.has id = true ↔ currentStake opts id ≠ 0 :=
  h.nonzero.has_iff id

theorem has_after_iff
    (h : TwoCalls operatorHash opts after selectedSponsorships selectedAfter kept)
    (id : SponsorshipID) : after.myCurrentStakes.has id = true ↔ currentStake after id ≠ 0 := by
  have hnonzero : NonzeroStakes after.myCurrentStakes := by
    rw [h.applied.stakes]
    exact h.nonzero.foldl_applyAction _
  exact hnonzero.has_iff id

theorem has_eq (h : TwoCalls operatorHash opts after selectedSponsorships selectedAfter kept)
    {id : SponsorshipID} (hsame : currentStake after id = currentStake opts id) :
    after.myCurrentStakes.has id = opts.myCurrentStakes.has id := by
  rw [Bool.eq_iff_iff, h.has_after_iff, h.has_iff, hsame]

/-- An adjustment that is left out changes nothing. -/
theorem currentStake_of_not_mem
    (h : TwoCalls operatorHash opts after selectedSponsorships selectedAfter kept)
    {id : SponsorshipID} (hnot : adjustmentFor opts selectedSponsorships id ∉ kept) :
    currentStake after id = currentStake opts id := by
  rw [h.currentStake_eq, h.balanced.changeOf_of_not_mem h.selected hnot, add_zero]

/-- An adjustment that is too small changes nothing. -/
theorem currentStake_of_tooSmall
    (h : TwoCalls operatorHash opts after selectedSponsorships selectedAfter kept)
    {id : SponsorshipID} (hsmall : tooSmall opts (adjustmentFor opts selectedSponsorships id) = true) :
    currentStake after id = currentStake opts id := by
  apply h.currentStake_of_not_mem
  intro hmem
  have hbig := ((mem_adjustmentsOf_iff h.selected).mp (h.balanced.sublist.subset hmem)).2.2.2
  rw [hsmall] at hbig
  cases hbig

/-- A stake in a stakeable sponsorship stays, unless it is unstaked in full. -/
theorem has_after (h : TwoCalls operatorHash opts after selectedSponsorships selectedAfter kept)
    {id : SponsorshipID} (hstakeable : opts.stakeableSponsorships.has id = true)
    (hhas : opts.myCurrentStakes.has id = true)
    (hnot : unstakedInFull opts selectedSponsorships id = false) :
    after.myCurrentStakes.has id = true := by
  have hcurrent := lt_of_le_of_ne (currentStake_nonneg opts id) ((h.has_iff id).mp hhas).symm
  rw [h.has_after_iff]
  by_cases hpos : 0 < targetOf opts selectedSponsorships id
  · have hcases := h.balanced.stake_cases h.selected id
    rw [h.currentStake_eq]
    omega
  · have hzero : targetOf opts selectedSponsorships id = 0 :=
      le_antisymm (not_lt.mp hpos) (targetOf_nonneg h.selected h.nonneg id)
    have hlow := not_le.mp fun hbig ↦ of_decide_eq_false hnot ⟨hzero, hbig⟩
    have hsmall : tooSmall opts (adjustmentFor opts selectedSponsorships id) = true := by
      refine decide_eq_true ⟨?_, hstakeable⟩
      rw [adjustmentFor, hzero, zero_sub, abs_neg, abs_of_pos hcurrent]
      exact hlow
    rw [h.currentStake_of_tooSmall hsmall]
    exact hcurrent.ne'

/-- Only selected sponsorships get a new stake. -/
theorem has_or_mem (h : TwoCalls operatorHash opts after selectedSponsorships selectedAfter kept)
    {id : SponsorshipID} (hhas : after.myCurrentStakes.has id = true) :
    opts.myCurrentStakes.has id = true ∨ id ∈ selectedSponsorships := by
  rw [h.has_iff]
  by_contra hnot
  obtain ⟨hzero, hout⟩ := not_or.mp hnot
  have htarget : targetOf opts selectedSponsorships id = 0 := if_neg hout
  have hcases := h.balanced.stake_cases h.selected id
  rw [h.has_after_iff, h.currentStake_eq] at hhas
  omega

/-- A stake that is unstaked in full is gone. -/
theorem has_after_eq_false
    (h : TwoCalls operatorHash opts after selectedSponsorships selectedAfter kept)
    {id : SponsorshipID} (hhas : opts.myCurrentStakes.has id = true)
    (hunstaked : unstakedInFull opts selectedSponsorships id = true) :
    after.myCurrentStakes.has id = false := by
  obtain ⟨hzero, hbig⟩ := of_decide_eq_true hunstaked
  have hcurrent := lt_of_le_of_ne (currentStake_nonneg opts id) ((h.has_iff id).mp hhas).symm
  have hneg : (adjustmentFor opts selectedSponsorships id).difference = -currentStake opts id := by
    rw [adjustmentFor, hzero, zero_sub]
  have hmem : adjustmentFor opts selectedSponsorships id ∈ adjustmentsOf opts selectedSponsorships := by
    refine (mem_adjustmentsOf_iff h.selected).mpr
      ⟨Or.inr (OrderedMap.has_iff_mem_keys.mp hhas), rfl, ?_, decide_eq_false ?_⟩
    · rw [hneg]
      exact (neg_neg_of_pos hcurrent).ne
    · rw [hneg, abs_neg, abs_of_pos hcurrent]
      exact fun hsmall ↦ hsmall.1.not_ge hbig
  have hnonpos : (adjustmentFor opts selectedSponsorships id).difference ≤ 0 := by
    rw [hneg]
    exact (neg_neg_of_pos hcurrent).le
  obtain ⟨b, -, hreduced, hchange⟩ :=
    h.balanced.changeOf_of_mem (h.balanced.unstakings_kept _ hmem hnonpos)
  have hsame := hreduced.resolve_right fun hpos ↦ hpos.2.1.not_ge hnonpos
  rw [← Bool.not_eq_true, h.has_after_iff, h.currentStake_eq, hchange, hsame, hneg, add_neg_cancel]
  exact not_not.mpr rfl

/-- The second call selects what is selected after only the unstakes in full. -/
theorem selectedAfter_perm
    (h : TwoCalls operatorHash opts after selectedSponsorships selectedAfter kept)
    {otherSelected : List SponsorshipID}
    (hother : Selected operatorHash (afterFullUnstakes opts selectedSponsorships) otherSelected) :
    selectedAfter.Perm otherSelected := by
  have hsettings := sameSettings_afterFullUnstakes opts selectedSponsorships
  have hsame := hsettings.symm.trans h.applied.sameSettings
  apply hsame.selected_perm (h.nonneg.trans_eq hsettings.total.symm) hother h.selectedAgain
  · intro id hmem hhas
    obtain ⟨hhas, hnot⟩ := has_afterFullUnstakes.mp hhas
    exact h.has_after (hother.stakeable id hmem) hhas hnot
  · intro id hhas
    cases hcase : opts.myCurrentStakes.has id with
    | true =>
      refine Or.inl (has_afterFullUnstakes.mpr ⟨hcase, ?_⟩)
      by_contra hunstaked
      rw [h.has_after_eq_false hcase (Bool.eq_true_of_not_eq_false hunstaked)] at hhas
      cases hhas
    | false =>
      have hmem := (h.has_or_mem hhas).resolve_left fun hold ↦ by
        rw [hcase] at hold
        cases hold
      exact Or.inr (mem_otherSelected h.selected hother h.nonneg hmem hcase)

/-- The second call has the targets of the first one exactly when the unstakes in full keep them. -/
theorem keepsTargets_iff
    (h : TwoCalls operatorHash opts after selectedSponsorships selectedAfter kept) :
    KeepsTargets operatorHash opts ↔
      ∀ id, targetOf after selectedAfter id = targetOf opts selectedSponsorships id := by
  obtain ⟨otherSelected, hother⟩ :=
    exists_selected operatorHash (afterFullUnstakes opts selectedSponsorships)
  have hsettings := sameSettings_afterFullUnstakes opts selectedSponsorships
  rw [Autostaker.keepsTargets_iff h.selected hother]
  refine forall_congr' fun id ↦ ?_
  rw [(hsettings.symm.trans h.applied.sameSettings).targetOf_eq_of_perm (h.selectedAfter_perm hother)]

/-! ### The second adjustments -/

/-- The second call does not unstake. -/
theorem difference_pos
    (h : TwoCalls operatorHash opts after selectedSponsorships selectedAfter kept)
    (htargets : ∀ id, targetOf after selectedAfter id = targetOf opts selectedSponsorships id)
    {a : Adjustment SponsorshipID} (hmem : a ∈ adjustmentsOf after selectedAfter) :
    0 < a.difference := by
  obtain ⟨-, hdifference, hne, hbig⟩ := (mem_adjustmentsOf_iff h.selectedAgain).mp hmem
  rcases h.balanced.stake_cases h.selected a.sponsorshipId with htarget | ⟨-, -, hle⟩ | ⟨-, hsmall⟩
  · rw [htargets, h.currentStake_eq] at hdifference
    omega
  · rw [htargets, h.currentStake_eq] at hdifference
    omega
  · have hsame := adjustmentFor_congr (htargets _) (h.currentStake_of_tooSmall hsmall)
    rw [h.applied.sameSettings.tooSmall_eq, eq_adjustmentFor h.selectedAgain hmem, hsame, hsmall] at hbig
    cases hbig

/-- What is available in the second call: what the first one left. -/
theorem availableSum_eq
    (h : TwoCalls operatorHash opts after selectedSponsorships selectedAfter kept)
    {adjustments : List (Adjustment SponsorshipID)} (hpos : ∀ a ∈ adjustments, 0 < a.difference) :
    availableSum after adjustments =
      availableSum opts (balanceOut opts (adjustmentsOf opts selectedSponsorships)) -
        stakingSum (balanceOut opts (adjustmentsOf opts selectedSponsorships)) := by
  have hnone : unstakings adjustments = [] :=
    List.filter_eq_nil_iff.mpr fun a hmem hneg ↦ (hpos a hmem).not_gt (of_decide_eq_true hneg)
  have hunstaked := unstakedAfter_eq opts (balanceOut opts (adjustmentsOf opts selectedSponsorships))
  rw [← h.applied.unstaked] at hunstaked
  rw [availableSum, hnone, hunstaked, h.applied.queue, List.map_nil, List.sum_nil, abs_zero]
  ring

/-- What stayed as it is of the stakings is in the same order in the second call. -/
theorem filter_selectedAfter
    (h : TwoCalls operatorHash opts after selectedSponsorships selectedAfter kept)
    (htargets : ∀ id, targetOf after selectedAfter id = targetOf opts selectedSponsorships id)
    {wanted : SponsorshipID → Bool}
    (hpos : ∀ id, wanted id = true → 0 < targetOf opts selectedSponsorships id)
    (hsame : ∀ id, wanted id = true → currentStake after id = currentStake opts id) :
    selectedAfter.filter wanted = selectedSponsorships.filter wanted := by
  have hmem {settings : AdjustStakesOptions SponsorshipID} {selected : List SponsorshipID}
      {id : SponsorshipID} (htarget : 0 < targetOf settings selected id) : id ∈ selected := by
    by_contra hnot
    rw [targetOf, if_neg hnot] at htarget
    exact lt_irrefl _ htarget
  have htotal := h.applied.totalStakeableAmount_eq
  rw [h.selected.filter_eq h.nonneg fun id hwanted ↦ hmem (hpos id hwanted),
    h.selectedAgain.filter_eq (h.nonneg.trans_eq htotal.symm) fun id hwanted ↦
      hmem ((hpos id hwanted).trans_eq (htargets id).symm),
    h.applied.sameSettings.candidates_eq, candidates_eq_preferred]
  exact filter_preferred fun id hwanted ↦ h.has_eq (hsame id hwanted)

/-- When nothing was taken off, the second call has the stakings that were left out, in their order. -/
theorem adjustmentsOf_after
    (h : TwoCalls operatorHash opts after selectedSponsorships selectedAfter kept)
    (htargets : ∀ id, targetOf after selectedAfter id = targetOf opts selectedSponsorships id)
    (hend : balanceOut opts (adjustmentsOf opts selectedSponsorships) = kept) :
    adjustmentsOf after selectedAfter =
      (adjustmentsOf opts selectedSponsorships).filter (· ∉ kept) := by
  let leftOut (id : SponsorshipID) : Bool :=
    decide (adjustmentFor opts selectedSponsorships id ∉ kept) &&
      hasStaking opts selectedSponsorships id
  have hleft {id : SponsorshipID} (hleft : leftOut id = true) :
      adjustmentFor opts selectedSponsorships id ∉ kept :=
    of_decide_eq_true (Bool.and_eq_true_iff.mp hleft).1
  have hstaking (id : SponsorshipID) : hasStaking after selectedAfter id = leftOut id := by
    by_cases hmem : adjustmentFor opts selectedSponsorships id ∈ kept
    · have hchange : changeOf (balanceOut opts (adjustmentsOf opts selectedSponsorships)) id =
          (adjustmentFor opts selectedSponsorships id).difference :=
        changeOf_of_mem h.balanced.nodup_sponsorshipIds (hend ▸ hmem)
      have htarget : currentStake after id = targetOf opts selectedSponsorships id := by
        rw [h.currentStake_eq, hchange]
        exact add_sub_cancel _ _
      have hzero : (adjustmentFor after selectedAfter id).difference = 0 := by
        show targetOf after selectedAfter id - currentStake after id = 0
        rw [htargets, htarget, sub_self]
      simp [hasStaking, hzero, leftOut, hmem]
    · have hsame := adjustmentFor_congr (htargets id) (h.currentStake_of_not_mem hmem)
      simp [hasStaking, hsame, h.applied.sameSettings.tooSmall_eq, leftOut, hmem]
  have hselected : selectedAfter.filter leftOut = selectedSponsorships.filter leftOut := by
    refine h.filter_selectedAfter htargets (fun id hwanted ↦ ?_) 
      fun id hwanted ↦ h.currentStake_of_not_mem (hleft hwanted)
    have hpos := of_decide_eq_true (Bool.and_eq_true_iff.mp (Bool.and_eq_true_iff.mp hwanted).2).1
    exact (currentStake_nonneg opts id).trans_lt (sub_pos.mp hpos)
  have hall : stakings (adjustmentsOf after selectedAfter) = adjustmentsOf after selectedAfter :=
    List.filter_eq_self.mpr fun a hmem ↦ decide_eq_true (h.difference_pos htargets hmem)
  have hrest : stakings ((adjustmentsOf opts selectedSponsorships).filter (· ∉ kept)) =
      (adjustmentsOf opts selectedSponsorships).filter (· ∉ kept) := by
    refine List.filter_eq_self.mpr fun a hmem ↦ ?_
    obtain ⟨hmem, hnot⟩ := List.mem_filter.mp hmem
    exact decide_eq_true (not_le.mp fun hnonpos ↦
      of_decide_eq_true hnot (h.balanced.unstakings_kept a hmem hnonpos))
  rw [← hall, stakings_adjustmentsOf h.selectedAgain, funext hstaking, hselected, ← hrest, stakings,
    List.filter_comm]
  change _ = (stakings (adjustmentsOf opts selectedSponsorships)).filter (· ∉ kept)
  rw [stakings_adjustmentsOf h.selected, List.filter_map, List.filter_filter]
  refine List.map_congr_left fun id hmem ↦ ?_
  exact adjustmentFor_congr (htargets id) 
    (h.currentStake_of_not_mem (hleft (List.mem_filter.mp hmem).2))

/-- The second loop leaves out everything. -/
theorem balanceOut_after
    (h : TwoCalls operatorHash opts after selectedSponsorships selectedAfter kept)
    (htargets : ∀ id, targetOf after selectedAfter id = targetOf opts selectedSponsorships id)
    (hpulls : Pulls opts (availableSum opts (adjustmentsOf opts selectedSponsorships))
      (adjustmentsOf opts selectedSponsorships) kept)
    (hend : balanceOut opts (adjustmentsOf opts selectedSponsorships) = kept ∨
      (0 < opts.minTransactionAmount ∧
        stakingSum (balanceOut opts (adjustmentsOf opts selectedSponsorships)) =
          availableSum opts (adjustmentsOf opts selectedSponsorships))) :
    balanceOut after (adjustmentsOf after selectedAfter) = [] := by
  have hpos (a : Adjustment SponsorshipID) (hmem : a ∈ adjustmentsOf after selectedAfter) :
      0 < a.difference := h.difference_pos htargets hmem
  have havailable := h.availableSum_eq hpos
  rcases hend with hend | ⟨hmin, hend⟩
  · have hnodup : (adjustmentsOf opts selectedSponsorships).Nodup :=
      .of_map _ (nodup_adjustmentsOf opts selectedSponsorships)
    have hleast (a : Adjustment SponsorshipID)
        (hmem : a ∈ (adjustmentsOf opts selectedSponsorships).filter (· ∉ kept)) :
        minDiff after a.sponsorshipId = minDiff opts a.sponsorshipId := by
      obtain ⟨hmem, hnot⟩ := List.mem_filter.mp hmem
      rw [eq_adjustmentFor h.selected hmem] at hnot
      exact h.applied.sameSettings.minDiff_eq (h.has_eq (h.currentStake_of_not_mem (of_decide_eq_true hnot)))
    have hrest := (hpulls.rest hnodup).congr hleast
    rw [← h.adjustmentsOf_after htargets hend] at hrest
    refine (hrest.mono ?_).balanceOut_eq_nil rfl rfl
    rw [havailable, hend, hpulls.availableSum_eq]
    exact sub_le_sub_left (leastSum_le opts kept) _
  · have hall : Pulls after 0 (adjustmentsOf after selectedAfter) [] :=
      pulls_nil hpos (hmin.trans_eq h.applied.minTransaction.symm)
    refine hall.balanceOut_eq_nil rfl ?_
    rw [havailable, hend, availableSum_of_reduced h.balanced.reduced, hpulls.availableSum_eq, sub_self]

/-! ### Without small adjustments -/

/-- When no adjustment is too small, every stake is its target after the first call. -/
theorem currentStake_eq_targetOf
    (h : TwoCalls operatorHash opts after selectedSponsorships selectedAfter kept)
    (hmin : opts.minTransactionAmount ≤ 1) (id : SponsorshipID) :
    currentStake after id = targetOf opts selectedSponsorships id := by
  by_cases hsame : targetOf opts selectedSponsorships id = currentStake opts id
  · rw [h.currentStake_of_not_mem fun hmem ↦ ?_, hsame]
    have hne := ((mem_adjustmentsOf_iff h.selected).mp (h.balanced.sublist.subset hmem)).2.2.1
    exact hne (sub_eq_zero.mpr hsame)
  · have hall := balanceOut_of_covered
      (covered_of_minTransaction_le_one h.selected (h.selected.length_mul_le h.nonneg) hmin)
    have hmem : adjustmentFor opts selectedSponsorships id ∈
        balanceOut opts (adjustmentsOf opts selectedSponsorships) := by
      rw [hall]
      exact adjustmentFor_mem h.selected hmin hsame
    have hchange : changeOf (balanceOut opts (adjustmentsOf opts selectedSponsorships)) id =
        (adjustmentFor opts selectedSponsorships id).difference :=
      changeOf_of_mem h.balanced.nodup_sponsorshipIds hmem
    rw [h.currentStake_eq, hchange]
    exact add_sub_cancel _ _

/-- When no adjustment is too small, a second call without actions has the same targets. -/
theorem targetOf_eq_of_nil
    (h : TwoCalls operatorHash opts after selectedSponsorships selectedAfter kept)
    (hmin : opts.minTransactionAmount ≤ 1)
    (hnil : balanceOut after (adjustmentsOf after selectedAfter) = []) (id : SponsorshipID) :
    targetOf after selectedAfter id = targetOf opts selectedSponsorships id := by
  have hsettings := h.applied.sameSettings
  have hminAfter : after.minTransactionAmount ≤ 1 := hsettings.minTransaction.trans_le hmin
  have hlength := h.selectedAgain.length_mul_le (h.nonneg.trans_eq hsettings.total.symm)
  rw [balanceOut_of_covered
    (covered_of_minTransaction_le_one h.selectedAgain hlength hminAfter)] at hnil
  rw [← h.currentStake_eq_targetOf hmin]
  by_contra hne
  exact List.ne_nil_of_mem (adjustmentFor_mem h.selectedAgain hminAfter hne) hnil

end TwoCalls

/-! ### Stability -/

/-- How the first loop ends. Without a minimum transaction, nothing is taken off. -/
theorem exists_kept (hselected : Selected operatorHash opts selectedSponsorships)
    (hnonneg : 0 ≤ totalStakeableAmount opts) :
    ∃ kept, Balanced opts (adjustmentsOf opts selectedSponsorships) kept
        (balanceOut opts (adjustmentsOf opts selectedSponsorships)) ∧
      Pulls opts (availableSum opts (adjustmentsOf opts selectedSponsorships))
        (adjustmentsOf opts selectedSponsorships) kept ∧
      (balanceOut opts (adjustmentsOf opts selectedSponsorships) = kept ∨
        (0 < opts.minTransactionAmount ∧
          stakingSum (balanceOut opts (adjustmentsOf opts selectedSponsorships)) =
            availableSum opts (adjustmentsOf opts selectedSponsorships))) := by
  by_cases hzero : opts.minTransactionAmount = 0
  · have hcovered := covered_of_minTransaction_le_one hselected
      (hselected.length_mul_le hnonneg) (hzero.trans_le zero_le_one)
    have hsame := balanceOut_of_covered hcovered
    refine ⟨adjustmentsOf opts selectedSponsorships, ?_, .refl _, Or.inl hsame⟩
    rw [hsame]
    exact .of_covered (Or.inr hcovered)
  · obtain ⟨kept, hbalanced, hpulls, hend⟩ := exists_pulls opts (adjustmentsOf opts selectedSponsorships)
    have hpos := lt_of_le_of_ne opts.minTransaction_nonneg (Ne.symm hzero)
    exact ⟨kept, hbalanced, hpulls, hend.imp_right fun hsum ↦ ⟨hpos, hsum⟩⟩

/-- The actions can be executed: they leave no amount below zero. -/
theorem exists_after {kept : List (Adjustment SponsorshipID)}
    (hselected : Selected operatorHash opts selectedSponsorships)
    (hnonneg : 0 ≤ totalStakeableAmount opts)
    (hbalanced : Balanced opts (adjustmentsOf opts selectedSponsorships) kept
      (balanceOut opts (adjustmentsOf opts selectedSponsorships))) :
    ∃ after, optionsAfter opts (sortActions
        ((balanceOut opts (adjustmentsOf opts selectedSponsorships)).map toAction)) = some after ∧
      Applied opts (sortActions
        ((balanceOut opts (adjustmentsOf opts selectedSponsorships)).map toAction)) after := by
  apply exists_applied
  · intro stake hmem
    obtain ⟨⟨id, value⟩, hentry, rfl⟩ := List.mem_map.mp hmem
    have hstake : stakeIn (stakesAfter opts (sortActions
        ((balanceOut opts (adjustmentsOf opts selectedSponsorships)).map toAction))) id = value := by
      rw [stakeIn, OrderedMap.get?_eq_some_iff.mpr hentry]
      rfl
    have hcurrent := currentStake_nonneg opts id
    have htarget := targetOf_nonneg hselected hnonneg id
    have hcases := hbalanced.stake_cases hselected id
    rw [stakeIn_stakesAfter] at hstake
    show 0 ≤ value
    omega
  · rw [unstakedAfter_eq]
    have hqueue := opts.queue_nonneg
    have hunstaked := opts.unstaked_nonneg
    rcases hbalanced.covered with hnone | hcovered
    · rw [stakingSum, hnone, availableSum, List.map_nil, List.sum_nil]
      have habs := abs_nonneg ((unstakings
        (balanceOut opts (adjustmentsOf opts selectedSponsorships))).map Adjustment.difference).sum
      omega
    · omega

/-- The two calls of `adjustAgain`. -/
theorem exists_twoCalls (operatorHash : String → SponsorshipID → ℤ)
    (opts : AdjustStakesOptions SponsorshipID)
    (hstakes : ∀ stake ∈ opts.myCurrentStakes.values, 0 < stake)
    (hnonneg : 0 ≤ totalStakeableAmount opts) :
    ∃ after selectedSponsorships selectedAfter kept,
      TwoCalls operatorHash opts after selectedSponsorships selectedAfter kept ∧
      Pulls opts (availableSum opts (adjustmentsOf opts selectedSponsorships))
        (adjustmentsOf opts selectedSponsorships) kept ∧
      (balanceOut opts (adjustmentsOf opts selectedSponsorships) = kept ∨
        (0 < opts.minTransactionAmount ∧
          stakingSum (balanceOut opts (adjustmentsOf opts selectedSponsorships)) =
            availableSum opts (adjustmentsOf opts selectedSponsorships))) ∧
      adjustAgain operatorHash opts = some (sortActions
        ((balanceOut after (adjustmentsOf after selectedAfter)).map toAction)) := by
  obtain ⟨selectedSponsorships, hselected⟩ := exists_selected operatorHash opts
  obtain ⟨kept, hbalanced, hpulls, hend⟩ := exists_kept hselected hnonneg
  obtain ⟨after, hafter, happlied⟩ := exists_after hselected hnonneg hbalanced
  obtain ⟨selectedAfter, hselectedAfter⟩ := exists_selected operatorHash after
  have hnonzero : NonzeroStakes opts.myCurrentStakes := fun id hhas ↦ by
    obtain ⟨stake, hget⟩ := Option.isSome_iff_exists.mp hhas
    have hpos := hstakes stake (List.mem_map_of_mem (OrderedMap.get?_eq_some_iff.mp hget))
    rw [stakeIn, hget]
    exact hpos.ne'
  refine ⟨after, selectedSponsorships, selectedAfter, kept,
    ⟨hselected, hselectedAfter, hnonneg, hnonzero, hbalanced, happlied⟩, hpulls, hend, ?_⟩
  rw [adjustAgain, adjustStakes_eq hselected, Option.bind_eq_bind, Option.bind_some, hafter,
    Option.bind_eq_bind, Option.bind_some, adjustStakes_eq hselectedAfter]

/-- After its actions, `adjustStakes` returns no actions when the unstakes in full keep the targets: what
is left of the differences to them is too small, or the loop leaves it out again. When no difference is
too small, it returns none only then. -/
theorem adjustAgain_eq_nil (operatorHash : String → SponsorshipID → ℤ)
    (opts : AdjustStakesOptions SponsorshipID)
    (hstakes : ∀ stake ∈ opts.myCurrentStakes.values, 0 < stake)
    (htotal : opts.undelegationQueueAmount ≤
      opts.myCurrentStakes.values.sum + opts.myUnstakedAmount) :
    (KeepsTargets operatorHash opts → adjustAgain operatorHash opts = some []) ∧
      (opts.minTransactionAmount ≤ 1 → adjustAgain operatorHash opts = some [] →
        KeepsTargets operatorHash opts) := by
  obtain ⟨after, selectedSponsorships, selectedAfter, kept, h, hpulls, hend, hagain⟩ :=
    exists_twoCalls operatorHash opts hstakes (sub_nonneg.mpr htotal)
  refine ⟨fun hkeeps ↦ ?_, fun hmin hnone ↦ ?_⟩
  · rw [hagain, h.balanceOut_after (h.keepsTargets_iff.mp hkeeps) hpulls hend]
    rfl
  · rw [h.keepsTargets_iff]
    apply h.targetOf_eq_of_nil hmin
    rw [hagain, Option.some.injEq] at hnone
    have hperm := sortActions_perm
      ((balanceOut after (adjustmentsOf after selectedAfter)).map toAction)
    rw [hnone] at hperm
    exact List.map_eq_nil_iff.mp hperm.nil_eq.symm

/-- The condition holds with a positive minimum stake. -/
theorem adjustAgain_overdrawnOptions : adjustAgain (fun _ _ ↦ 0) (overdrawnOptions 0) = some [] :=
  (adjustAgain_eq_nil (fun _ _ ↦ 0) (overdrawnOptions 0) (by decide) (by decide)).1
    (keepsTargets_of_sharesKept (by decide) (Or.inl (by decide)))

/-! ### A share that rounds to zero -/

theorem zero_le_zero : (0 : ℤ) ≤ 0 := le_rfl

/-- An operator with a stake of 5 in two of three sponsorships, of which two may be selected. There is no
minimum stake, and the first sponsorship pays little. -/
def roundedOptions : AdjustStakesOptions ℕ where
  myCurrentStakes := .fromEntries [(1, 5), (2, 5)]
  myUnstakedAmount := 0
  stakeableSponsorships := .fromEntries [(1, ⟨1⟩), (2, ⟨100⟩), (3, ⟨100⟩)]
  undelegationQueueAmount := 0
  operatorContractAddress := ""
  maxSponsorshipCount := 2
  minTransactionAmount := 1
  minStakePerSponsorship := 0
  stakes_nonneg := by decide
  unstaked_nonneg := zero_le_zero
  payouts_pos := by decide
  queue_nonneg := zero_le_zero
  minTransaction_nonneg := by decide
  minStake_nonneg := zero_le_zero

/-- The share of the first sponsorship rounds to zero, so its stake is unstaked, and it loses its place to
the third one: the second call moves a stake there. -/
theorem rounded_again :
    (∀ stake ∈ roundedOptions.myCurrentStakes.values, 0 < stake) ∧
      roundedOptions.undelegationQueueAmount ≤
        roundedOptions.myCurrentStakes.values.sum + roundedOptions.myUnstakedAmount ∧
      adjustStakes (fun _ _ ↦ 0) roundedOptions = some [⟨.unstake, 1, 5⟩, ⟨.stake, 2, 4⟩] ∧
      adjustAgain (fun _ _ ↦ 0) roundedOptions = some [⟨.unstake, 2, 4⟩, ⟨.stake, 3, 5⟩] := by
  have hfirst : adjustStakes (fun _ _ ↦ 0) roundedOptions =
      some [⟨.unstake, 1, 5⟩, ⟨.stake, 2, 4⟩] := by
    have htargets : getTargetStakes (fun _ _ ↦ 0) roundedOptions =
        some (.fromEntries [(1, 0), (2, 9)]) := by rfl
    rw [adjustStakes, htargets]
    show some (sortActions ((balanceOut roundedOptions _).map toAction)) = _
    rw [balanceOut_of_covered (by decide)]
    rfl
  refine ⟨by decide, by decide, hfirst, ?_⟩
  rw [adjustAgain, hfirst, Option.bind_eq_bind, Option.bind_some, optionsAfter, dif_pos (by decide),
    Option.bind_eq_bind, Option.bind_some]
  let after : AdjustStakesOptions ℕ :=
    { roundedOptions with
      myCurrentStakes := stakesAfter roundedOptions [⟨.unstake, 1, 5⟩, ⟨.stake, 2, 4⟩]
      myUnstakedAmount := unstakedAfter roundedOptions [⟨.unstake, 1, 5⟩, ⟨.stake, 2, 4⟩]
      stakes_nonneg := by decide
      unstaked_nonneg := by decide }
  have htargets : getTargetStakes (fun _ _ ↦ 0) after = some (.fromEntries [(2, 5), (3, 5)]) := by
    rfl
  change adjustStakes (fun _ _ ↦ 0) after = _
  rw [adjustStakes, htargets]
  show some (sortActions ((balanceOut after _).map toAction)) = _
  rw [balanceOut_of_covered (by decide)]
  rfl

end PomboStorageNode.Autostaker
