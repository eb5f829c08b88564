import Mathlib.Algebra.BigOperators.Group.Finset.Piecewise
import PomboStorageNode.Autostaker.StakeLegality

/-!
# The operator after its actions

The actions that `adjustStakes` returns change the stakes and the unstaked amount. What the operator has
in total stays the same, and so does what can be staked (`Applied.totalStakeableAmount_eq`). The strategy
runs at every interval, so the next time it is called with what its own actions left: `adjustAgain`.
-/

set_option autoImplicit false

namespace PomboStorageNode.Autostaker

open Library

variable {SponsorshipID : Type} [DecidableEq SponsorshipID]

/-! ### Applying actions -/

omit [DecidableEq SponsorshipID] in
/-- The change of a stake by an action. -/
def Action.change (action : Action SponsorshipID) : ℤ :=
  match action.type with
  | .stake => action.amount
  | .unstake => -action.amount

/-- The amount of a stake, zero when there is none. -/
def stakeIn (stakes : OrderedMap SponsorshipID ℤ) (id : SponsorshipID) : ℤ :=
  (stakes.get? id).getD 0

/-- The stakes after an action. A stake that becomes zero is dropped. -/
def applyAction (stakes : OrderedMap SponsorshipID ℤ) (action : Action SponsorshipID) :
    OrderedMap SponsorshipID ℤ :=
  let stake := stakeIn stakes action.sponsorshipId + action.change
  if stake = 0 then stakes.delete action.sponsorshipId
  else stakes.set action.sponsorshipId stake

/-- The stakes after all actions. -/
def stakesAfter (opts : AdjustStakesOptions SponsorshipID) (actions : List (Action SponsorshipID)) :
    OrderedMap SponsorshipID ℤ :=
  actions.foldl applyAction opts.myCurrentStakes

/-- The unstaked amount after all actions. -/
def unstakedAfter (opts : AdjustStakesOptions SponsorshipID)
    (actions : List (Action SponsorshipID)) : ℤ :=
  opts.myUnstakedAmount - (actions.map Action.change).sum

/-- The arguments of `adjustStakes` after the actions, if they can be executed: the stakes and the
unstaked amount are new, and everything else is as before. -/
def optionsAfter (opts : AdjustStakesOptions SponsorshipID) (actions : List (Action SponsorshipID)) :
    Option (AdjustStakesOptions SponsorshipID) :=
  if hnonneg : (∀ stake ∈ (stakesAfter opts actions).values, 0 ≤ stake) ∧
      0 ≤ unstakedAfter opts actions then
    some { opts with
      myCurrentStakes := stakesAfter opts actions
      myUnstakedAmount := unstakedAfter opts actions
      stakes_nonneg := hnonneg.1
      unstaked_nonneg := hnonneg.2 }
  else none

/-- The actions of a second call of `adjustStakes`, after those of the first one were applied. -/
def adjustAgain (operatorHash : String → SponsorshipID → ℤ)
    (opts : AdjustStakesOptions SponsorshipID) : Option (List (Action SponsorshipID)) := do
  let actions ← adjustStakes operatorHash opts
  let after ← optionsAfter opts actions
  adjustStakes operatorHash after

/-! ### The stakes after actions -/

theorem stakeIn_applyAction (stakes : OrderedMap SponsorshipID ℤ) (action : Action SponsorshipID)
    (id : SponsorshipID) : stakeIn (applyAction stakes action) id =
      stakeIn stakes id + if action.sponsorshipId = id then action.change else 0 := by
  unfold applyAction
  dsimp only
  by_cases hid : action.sponsorshipId = id
  · subst hid
    rw [if_pos rfl]
    split_ifs with hzero
    · rw [hzero, stakeIn, OrderedMap.get?_delete_self]
      rfl
    · rw [stakeIn, OrderedMap.get?_set_self]
      rfl
  · rw [if_neg hid, add_zero]
    split_ifs with hzero
    · rw [stakeIn, OrderedMap.get?_delete_of_ne _ (Ne.symm hid), stakeIn]
    · rw [stakeIn, OrderedMap.get?_set_of_ne _ _ (Ne.symm hid), stakeIn]

/-- The stake after all actions. -/
theorem stakeIn_foldl_applyAction (stakes : OrderedMap SponsorshipID ℤ)
    (actions : List (Action SponsorshipID)) (id : SponsorshipID) :
    stakeIn (actions.foldl applyAction stakes) id = stakeIn stakes id +
      (actions.map fun action ↦ if action.sponsorshipId = id then action.change else 0).sum := by
  induction actions generalizing stakes with
  | nil => exact (add_zero _).symm
  | cons action actions ih =>
    rw [List.foldl_cons, ih, stakeIn_applyAction, List.map_cons, List.sum_cons, add_assoc]

/-- No stake is zero. -/
def NonzeroStakes (stakes : OrderedMap SponsorshipID ℤ) : Prop :=
  ∀ id, stakes.has id = true → stakeIn stakes id ≠ 0

theorem NonzeroStakes.applyAction {stakes : OrderedMap SponsorshipID ℤ}
    (hnonzero : NonzeroStakes stakes) (action : Action SponsorshipID) :
    NonzeroStakes (applyAction stakes action) := by
  intro id hhas
  rw [stakeIn_applyAction]
  unfold Autostaker.applyAction at hhas
  dsimp only at hhas
  split_ifs at hhas with hzero
  · obtain ⟨hold, hne⟩ := OrderedMap.has_delete.mp hhas
    rw [if_neg (Ne.symm hne), add_zero]
    exact hnonzero id hold
  · rcases OrderedMap.has_set.mp hhas with rfl | hold
    · rwa [if_pos rfl]
    · by_cases hid : action.sponsorshipId = id
      · rwa [if_pos hid, ← hid]
      · rw [if_neg hid, add_zero]
        exact hnonzero id hold

theorem NonzeroStakes.foldl_applyAction {stakes : OrderedMap SponsorshipID ℤ}
    (hnonzero : NonzeroStakes stakes) (actions : List (Action SponsorshipID)) :
    NonzeroStakes (actions.foldl Autostaker.applyAction stakes) := by
  induction actions generalizing stakes with
  | nil => exact hnonzero
  | cons action actions ih => exact ih (hnonzero.applyAction action)

/-- A sponsorship has a stake exactly when the stake is not zero. -/
theorem NonzeroStakes.has_iff {stakes : OrderedMap SponsorshipID ℤ}
    (hnonzero : NonzeroStakes stakes) (id : SponsorshipID) :
    stakes.has id = true ↔ stakeIn stakes id ≠ 0 := by
  refine ⟨hnonzero id, fun hne ↦ ?_⟩
  by_contra hnot
  apply hne
  rw [stakeIn, Option.not_isSome_iff_eq_none.mp hnot]
  rfl

/-! ### The sum of the stakes -/

/-- The sum of the stakes, over a set with all sponsorships that have one. -/
theorem sum_values_eq {stakes : OrderedMap SponsorshipID ℤ} {ids : Finset SponsorshipID}
    (hsub : ∀ id ∈ stakes.keys, id ∈ ids) : stakes.values.sum = ∑ id ∈ ids, stakeIn stakes id := by
  have hvalues : stakes.values = stakes.keys.map (stakeIn stakes) := stakes.values_eq_map_keys 0
  have hnodup : stakes.keys.Nodup := stakes.nodup_keys
  rw [hvalues, ← List.sum_toFinset _ hnodup]
  refine Finset.sum_subset (fun id hmem ↦ hsub id (List.mem_toFinset.mp hmem)) fun id _ hnot ↦ ?_
  rw [List.mem_toFinset, ← OrderedMap.has_iff_mem_keys] at hnot
  rw [stakeIn, Option.not_isSome_iff_eq_none.mp hnot]
  rfl

theorem sum_values_applyAction (stakes : OrderedMap SponsorshipID ℤ)
    (action : Action SponsorshipID) :
    (applyAction stakes action).values.sum = stakes.values.sum + action.change := by
  have hkeys : ∀ id ∈ (applyAction stakes action).keys,
      id ∈ insert action.sponsorshipId stakes.keys.toFinset := by
    intro id hmem
    rw [Finset.mem_insert, List.mem_toFinset, ← OrderedMap.has_iff_mem_keys]
    rw [← OrderedMap.has_iff_mem_keys, applyAction] at hmem
    split_ifs at hmem
    · exact Or.inr (OrderedMap.has_delete.mp hmem).1
    · exact OrderedMap.has_set.mp hmem
  have hold : ∀ id ∈ stakes.keys, id ∈ insert action.sponsorshipId stakes.keys.toFinset :=
    fun id hmem ↦ Finset.mem_insert_of_mem (List.mem_toFinset.mpr hmem)
  rw [sum_values_eq hkeys, sum_values_eq hold]
  simp only [stakeIn_applyAction, Finset.sum_add_distrib, Finset.sum_ite_eq, Finset.mem_insert_self,
    if_true]

theorem sum_values_foldl_applyAction (stakes : OrderedMap SponsorshipID ℤ)
    (actions : List (Action SponsorshipID)) : (actions.foldl applyAction stakes).values.sum =
      stakes.values.sum + (actions.map Action.change).sum := by
  induction actions generalizing stakes with
  | nil => exact (add_zero _).symm
  | cons action actions ih =>
    rw [List.foldl_cons, ih, sum_values_applyAction, List.map_cons, List.sum_cons, add_assoc]

/-! ### The arguments after the actions -/

/-- The arguments after some actions. -/
structure Applied (opts : AdjustStakesOptions SponsorshipID) (actions : List (Action SponsorshipID))
    (after : AdjustStakesOptions SponsorshipID) : Prop where
  stakes : after.myCurrentStakes = stakesAfter opts actions
  unstaked : after.myUnstakedAmount = unstakedAfter opts actions
  stakeable : after.stakeableSponsorships = opts.stakeableSponsorships
  queue : after.undelegationQueueAmount = opts.undelegationQueueAmount
  address : after.operatorContractAddress = opts.operatorContractAddress
  maxCount : after.maxSponsorshipCount = opts.maxSponsorshipCount
  minTransaction : after.minTransactionAmount = opts.minTransactionAmount
  minStake : after.minStakePerSponsorship = opts.minStakePerSponsorship

variable {opts after : AdjustStakesOptions SponsorshipID} {actions : List (Action SponsorshipID)}
  {operatorHash : String → SponsorshipID → ℤ} {selectedSponsorships : List SponsorshipID}

theorem exists_applied (hstakes : ∀ stake ∈ (stakesAfter opts actions).values, 0 ≤ stake)
    (hunstaked : 0 ≤ unstakedAfter opts actions) :
    ∃ after, optionsAfter opts actions = some after ∧ Applied opts actions after :=
  ⟨_, dif_pos ⟨hstakes, hunstaked⟩, rfl, rfl, rfl, rfl, rfl, rfl, rfl, rfl⟩

/-- What can be staked stays the same. -/
theorem Applied.totalStakeableAmount_eq (happlied : Applied opts actions after) :
    totalStakeableAmount after = totalStakeableAmount opts := by
  unfold totalStakeableAmount
  rw [happlied.stakes, happlied.unstaked, happlied.queue, stakesAfter,
    sum_values_foldl_applyAction, unstakedAfter]
  ring

/-! ### The changes of the stakes -/

/-- The adjustment of a sponsorship from its stake to its target. -/
def adjustmentFor (opts : AdjustStakesOptions SponsorshipID)
    (selectedSponsorships : List SponsorshipID) (id : SponsorshipID) : Adjustment SponsorshipID :=
  ⟨id, targetOf opts selectedSponsorships id - currentStake opts id⟩

theorem eq_adjustmentFor (hselected : Selected operatorHash opts selectedSponsorships)
    {a : Adjustment SponsorshipID} (hmem : a ∈ adjustmentsOf opts selectedSponsorships) :
    a = adjustmentFor opts selectedSponsorships a.sponsorshipId := by
  obtain ⟨-, hdifference, -⟩ := (mem_adjustmentsOf_iff hselected).mp hmem
  rw [adjustmentFor, ← hdifference]

/-- Without a stake and not selected, a sponsorship stays without a stake. -/
theorem targetOf_eq_currentStake {id : SponsorshipID}
    (hnone : ¬(id ∈ selectedSponsorships ∨ id ∈ opts.myCurrentStakes.keys)) :
    targetOf opts selectedSponsorships id = currentStake opts id := by
  obtain ⟨hnot, hkey⟩ := not_or.mp hnone
  rw [← OrderedMap.has_iff_mem_keys] at hkey
  rw [targetOf, if_neg hnot, currentStake, Option.not_isSome_iff_eq_none.mp hkey]
  rfl

/-- What some adjustments change of the stake in a sponsorship. -/
def changeOf (adjustments : List (Adjustment SponsorshipID)) (id : SponsorshipID) : ℤ :=
  (adjustments.map fun a ↦ if a.sponsorshipId = id then a.difference else 0).sum

theorem changeOf_of_forall_ne {adjustments : List (Adjustment SponsorshipID)} {id : SponsorshipID}
    (hne : ∀ a ∈ adjustments, a.sponsorshipId ≠ id) : changeOf adjustments id = 0 := by
  apply List.sum_eq_zero
  exact List.forall_mem_map.mpr fun a hmem ↦ if_neg (hne a hmem)

theorem changeOf_of_mem {adjustments : List (Adjustment SponsorshipID)}
    (hnodup : (adjustments.map Adjustment.sponsorshipId).Nodup) {a : Adjustment SponsorshipID}
    (hmem : a ∈ adjustments) : changeOf adjustments a.sponsorshipId = a.difference := by
  induction adjustments with
  | nil => exact absurd hmem List.not_mem_nil
  | cons first adjustments ih =>
    rw [List.map_cons, List.nodup_cons] at hnodup
    rw [changeOf, List.map_cons, List.sum_cons]
    change _ + changeOf adjustments a.sponsorshipId = _
    rcases List.mem_cons.mp hmem with rfl | hrest
    · rw [if_pos rfl, changeOf_of_forall_ne, add_zero]
      exact fun other hother hsame ↦ hnodup.1 (hsame ▸ List.mem_map_of_mem hother)
    · rw [if_neg, zero_add, ih hnodup.2 hrest]
      exact fun hsame ↦ hnodup.1 (hsame ▸ List.mem_map_of_mem hrest)

omit [DecidableEq SponsorshipID] in
theorem change_toAction (a : Adjustment SponsorshipID) : (toAction a).change = a.difference := by
  unfold toAction Action.change
  by_cases hpos : 0 < a.difference
  · rw [if_pos hpos, if_pos hpos]
  · rw [if_neg hpos, if_neg hpos]
    exact neg_neg _

/-- The stake in a sponsorship after the actions of some adjustments. -/
theorem stakeIn_stakesAfter (opts : AdjustStakesOptions SponsorshipID)
    (adjustments : List (Adjustment SponsorshipID)) (id : SponsorshipID) :
    stakeIn (stakesAfter opts (sortActions (adjustments.map toAction))) id =
      currentStake opts id + changeOf adjustments id := by
  rw [stakesAfter, stakeIn_foldl_applyAction, ((sortActions_perm _).map _).sum_eq, List.map_map]
  refine congrArg (currentStake opts id + ·) (congrArg List.sum (List.map_congr_left fun a _ ↦ ?_))
  show (if a.sponsorshipId = id then (toAction a).change else 0) = _
  rw [change_toAction]

omit [DecidableEq SponsorshipID] in
theorem unstakedAfter_eq (opts : AdjustStakesOptions SponsorshipID)
    (adjustments : List (Adjustment SponsorshipID)) :
    unstakedAfter opts (sortActions (adjustments.map toAction)) =
      availableSum opts adjustments - stakingSum adjustments + opts.undelegationQueueAmount := by
  have hchanges : ((adjustments.map toAction).map Action.change).sum =
      (adjustments.map Adjustment.difference).sum := by
    rw [List.map_map]
    exact congrArg List.sum (List.map_congr_left fun a _ ↦ change_toAction a)
  rw [unstakedAfter, ((sortActions_perm _).map _).sum_eq, hchanges, sum_difference, availableSum]
  ring

/-! ### What the loop makes of a stake -/

theorem exists_after_of_mem {kept balanced : List (Adjustment SponsorshipID)}
    (hreduced : List.Forall₂ (Reduced opts) kept balanced) {before : Adjustment SponsorshipID}
    (hmem : before ∈ kept) : ∃ after ∈ balanced, Reduced opts before after := by
  induction hreduced with
  | nil => exact absurd hmem List.not_mem_nil
  | @cons first second kept balanced hhead _ ih =>
    rcases List.mem_cons.mp hmem with rfl | hmem
    · exact ⟨second, List.mem_cons_self, hhead⟩
    · obtain ⟨after, hafter, hrelated⟩ := ih hmem
      exact ⟨after, List.mem_cons_of_mem second hafter, hrelated⟩

theorem Reduced.sponsorshipId_eq {before after : Adjustment SponsorshipID}
    (hreduced : Reduced opts before after) : after.sponsorshipId = before.sponsorshipId :=
  hreduced.elim (congrArg Adjustment.sponsorshipId) And.left

/-- An adjustment that is left out changes nothing. -/
theorem Balanced.changeOf_of_not_mem {kept balanced : List (Adjustment SponsorshipID)}
    (hselected : Selected operatorHash opts selectedSponsorships)
    (hbalanced : Balanced opts (adjustmentsOf opts selectedSponsorships) kept balanced)
    {id : SponsorshipID} (hnot : adjustmentFor opts selectedSponsorships id ∉ kept) :
    changeOf balanced id = 0 := by
  apply changeOf_of_forall_ne
  rintro b hmem rfl
  obtain ⟨a, ha, hreduced⟩ := exists_before_of_mem hbalanced.reduced hmem
  rw [hreduced.sponsorshipId_eq, ← eq_adjustmentFor hselected (hbalanced.sublist.subset ha)] at hnot
  exact hnot ha

/-- An adjustment that is kept changes the stake by what was not taken off. -/
theorem Balanced.changeOf_of_mem {kept balanced : List (Adjustment SponsorshipID)}
    (hbalanced : Balanced opts (adjustmentsOf opts selectedSponsorships) kept balanced)
    {id : SponsorshipID} (hmem : adjustmentFor opts selectedSponsorships id ∈ kept) :
    ∃ b ∈ balanced, Reduced opts (adjustmentFor opts selectedSponsorships id) b ∧
      changeOf balanced id = b.difference := by
  obtain ⟨b, hb, hreduced⟩ := exists_after_of_mem hbalanced.reduced hmem
  have hid : b.sponsorshipId = id := hreduced.sponsorshipId_eq
  exact ⟨b, hb, hreduced, hid ▸ Autostaker.changeOf_of_mem hbalanced.nodup_sponsorshipIds hb⟩

/-- A sponsorship either has its target as its stake, or less than its target and not less than before,
or its adjustment was too small. -/
theorem Balanced.stake_cases {kept balanced : List (Adjustment SponsorshipID)}
    (hselected : Selected operatorHash opts selectedSponsorships)
    (hbalanced : Balanced opts (adjustmentsOf opts selectedSponsorships) kept balanced)
    (id : SponsorshipID) :
    currentStake opts id + changeOf balanced id = targetOf opts selectedSponsorships id ∨
      (currentStake opts id < targetOf opts selectedSponsorships id ∧ 0 ≤ changeOf balanced id ∧
        currentStake opts id + changeOf balanced id ≤ targetOf opts selectedSponsorships id) ∨
      (changeOf balanced id = 0 ∧
        tooSmall opts (adjustmentFor opts selectedSponsorships id) = true) := by
  let a := adjustmentFor opts selectedSponsorships id
  have hdifference : a.difference =
      targetOf opts selectedSponsorships id - currentStake opts id := rfl
  by_cases hkept : a ∈ kept
  · obtain ⟨b, -, hreduced, hchange⟩ := hbalanced.changeOf_of_mem hkept
    rw [hchange]
    rcases hreduced with rfl | ⟨-, hpos, hmin, hle⟩
    · exact Or.inl (add_sub_cancel _ _)
    · have hpos : 0 < a.difference := hpos
      have hle : b.difference ≤ a.difference := hle
      have hnonneg := (minDiff_nonneg opts a.sponsorshipId).trans hmin
      refine Or.inr (Or.inl ⟨?_, hnonneg, ?_⟩)
      · omega
      · omega
  · have hzero := hbalanced.changeOf_of_not_mem hselected hkept
    rw [hzero, add_zero]
    by_cases hmem : a ∈ adjustmentsOf opts selectedSponsorships
    · -- what is left out is a staking
      have hpos : 0 < a.difference := not_le.mp fun hnonpos ↦
        hkept (hbalanced.unstakings_kept a hmem hnonpos)
      refine Or.inr (Or.inl ⟨?_, le_refl _, ?_⟩)
      · omega
      · omega
    · rw [mem_adjustmentsOf_iff hselected] at hmem
      cases hsmall : tooSmall opts a with
      | true => exact Or.inr (Or.inr ⟨rfl, rfl⟩)
      | false =>
        refine Or.inl ?_
        by_cases hsame : a.difference = 0
        · omega
        · exact (targetOf_eq_currentStake fun hor ↦ hmem ⟨hor, rfl, hsame, hsmall⟩).symm

end PomboStorageNode.Autostaker
