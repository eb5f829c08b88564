import Mathlib.Algebra.BigOperators.Group.Finset.Basic
import PomboStorageNode.Autostaker.PayoutProportionalStrategy

/-!
# Legality of the adjustments

The contracts accept an action only if it keeps the bounds on stakes: `Legal` says so of a list of
actions. `adjustStakes` keeps them when the amount that can be staked is not negative: then every target
is zero or at least the minimum stake, and the loop never takes a staking below its least amount. It
also does when nothing is selected.

When the undelegation queue exceeds everything the operator has, the number of sponsorships that it can
afford is negative, and `slice` counts it from the end of the list. Then sponsorships are selected
although nothing can be staked, their targets have a negative sum, and an unstake of more than the
stake comes out (`legal_of_affords`).
-/

set_option autoImplicit false

namespace PomboStorageNode.Autostaker

open Library

variable {SponsorshipID : Type} [DecidableEq SponsorshipID]
  {operatorHash : String → SponsorshipID → ℤ} {opts : AdjustStakesOptions SponsorshipID}
  {selectedSponsorships : List SponsorshipID}

/-- What the contracts require of the actions, and that expired stakes are unstaked. A sponsorship is
without a stake when it is not among the current stakes. -/
structure Legal (opts : AdjustStakesOptions SponsorshipID) (actions : List (Action SponsorshipID)) :
    Prop where
  positive : ∀ action ∈ actions, 0 < action.amount
  unstakes : ∀ action ∈ actions, action.type = .unstake →
    ∃ stake, opts.myCurrentStakes.get? action.sponsorshipId = some stake ∧
      action.amount ≤ stake ∧
      (stake - action.amount = 0 ∨ opts.minStakePerSponsorship ≤ stake - action.amount)
  first_stakes : ∀ action ∈ actions, action.type = .stake →
    opts.myCurrentStakes.get? action.sponsorshipId = none →
    max opts.minStakePerSponsorship opts.minTransactionAmount ≤ action.amount
  stakes : ∀ action ∈ actions, action.type = .stake → opts.minTransactionAmount ≤ action.amount
  expired : ∀ id stake, opts.myCurrentStakes.get? id = some stake → 0 < stake →
    opts.stakeableSponsorships.has id = false → ⟨.unstake, id, stake⟩ ∈ actions
  once : (actions.map Action.sponsorshipId).Nodup

/-- The amount that can be staked is not negative, or nothing is selected: no sponsorship is stakeable
or none may be selected, or the amount is below zero by less than one minimum stake, or by at least as
many minimum stakes as there are sponsorships. -/
def Affords (opts : AdjustStakesOptions SponsorshipID) : Prop :=
  0 ≤ totalStakeableAmount opts ∨
    if opts.minStakePerSponsorship = 0 then
      opts.stakeableSponsorships.entries.length = 0 ∨ opts.maxSponsorshipCount = 0
    else -opts.minStakePerSponsorship < totalStakeableAmount opts ∨
      opts.stakeableSponsorships.entries.length * opts.minStakePerSponsorship ≤
        -totalStakeableAmount opts

/-! ### The number of selected sponsorships -/

omit [DecidableEq SponsorshipID] in
theorem slice_eq_nil_iff {count : ℤ} {ids : List SponsorshipID} :
    slice count ids = [] ↔ count = 0 ∨ ids = [] ∨ (count < 0 ∧ ids.length + count ≤ 0) := by
  unfold slice
  split_ifs with hneg
  · rw [List.take_eq_nil_iff, Int.toNat_eq_zero]
    constructor
    · rintro (hle | hnil)
      · exact Or.inr (Or.inr ⟨hneg, hle⟩)
      · exact Or.inr (Or.inl hnil)
    · rintro (hzero | hnil | ⟨-, hle⟩)
      · exact absurd hzero hneg.ne
      · exact Or.inr hnil
      · exact Or.inl hle
  · rw [List.take_eq_nil_iff, Int.toNat_eq_zero]
    constructor
    · rintro (hle | hnil)
      · exact Or.inl (le_antisymm hle (not_lt.mp hneg))
      · exact Or.inr (Or.inl hnil)
    · rintro (hzero | hnil | ⟨hlt, -⟩)
      · exact Or.inl hzero.le
      · exact Or.inr hnil
      · exact absurd hlt hneg

theorem length_candidates (operatorHash : String → SponsorshipID → ℤ)
    (opts : AdjustStakesOptions SponsorshipID) : (candidates operatorHash opts).length =
      opts.stakeableSponsorships.entries.length :=
  (candidates_perm opts).length_eq.trans (List.length_map _)

/-- The selected sponsorships are a slice of the candidates. -/
theorem Selected.eq_slice (hselected : Selected operatorHash opts selectedSponsorships) :
    ∃ count, selectedCount opts = some count ∧
      selectedSponsorships = slice count (candidates operatorHash opts) := by
  obtain ⟨count, hcount⟩ := exists_selectedCount opts
  have hslice := hselected.selected
  rw [getSelectedSponsorships, hcount, Option.map_some] at hslice
  exact ⟨count, hcount, (Option.some.inj hslice).symm⟩

/-- With a negative amount, nothing is selected in the cases that the condition names. -/
theorem Selected.eq_nil_iff (hselected : Selected operatorHash opts selectedSponsorships)
    (hneg : totalStakeableAmount opts < 0) : selectedSponsorships = [] ↔ Affords opts := by
  obtain ⟨count, hcount, rfl⟩ := hselected.eq_slice
  have hlength := length_candidates operatorHash opts
  rw [slice_eq_nil_iff, ← List.length_eq_zero_iff, hlength, Affords, or_iff_right hneg.not_ge]
  unfold selectedCount divide at hcount
  by_cases hzero : opts.minStakePerSponsorship = 0
  · rw [if_pos hzero]
    rw [if_neg (by omega), Option.some.injEq] at hcount
    omega
  · have hpos : 0 < opts.minStakePerSponsorship :=
      lt_of_le_of_ne opts.minStake_nonneg (Ne.symm hzero)
    rw [if_neg hzero]
    rw [if_pos hpos, if_neg hzero, Option.map_some, Option.some.injEq] at hcount
    -- the quotient of the opposite amount is what is counted from the end
    have hquotient : (totalStakeableAmount opts).tdiv opts.minStakePerSponsorship =
        -(-totalStakeableAmount opts / opts.minStakePerSponsorship) := by
      rw [← Int.tdiv_eq_ediv_of_nonneg (by omega), Int.neg_tdiv, neg_neg]
    have hnonneg : 0 ≤ -totalStakeableAmount opts / opts.minStakePerSponsorship :=
      Int.ediv_nonneg (by omega) hpos.le
    have hless : -totalStakeableAmount opts / opts.minStakePerSponsorship < 1 ↔
        -opts.minStakePerSponsorship < totalStakeableAmount opts := by
      rw [Int.ediv_lt_iff_lt_mul hpos, one_mul, neg_lt]
    rw [hquotient] at hcount
    rw [← Int.le_ediv_iff_mul_le hpos, ← hless]
    omega

/-- With an amount that is not negative, the selected sponsorships can have their minimum stakes. -/
theorem Selected.length_mul_le (hselected : Selected operatorHash opts selectedSponsorships)
    (hnonneg : 0 ≤ totalStakeableAmount opts) :
    selectedSponsorships.length * opts.minStakePerSponsorship ≤ totalStakeableAmount opts := by
  obtain ⟨count, hcount, rfl⟩ := hselected.eq_slice
  unfold selectedCount divide at hcount
  by_cases hzero : opts.minStakePerSponsorship = 0
  · rw [hzero, mul_zero]
    exact hnonneg
  · have hpos : 0 < opts.minStakePerSponsorship :=
      lt_of_le_of_ne opts.minStake_nonneg (Ne.symm hzero)
    rw [if_pos hpos, if_neg hzero, Option.map_some, Option.some.injEq,
      Int.tdiv_eq_ediv_of_nonneg hnonneg] at hcount
    have hquotient := Int.ediv_nonneg hnonneg hpos.le
    have hlength : ((slice count (candidates operatorHash opts)).length : ℤ) ≤ count := by
      rw [slice, if_neg (by omega), List.length_take]
      omega
    rw [← Int.le_ediv_iff_mul_le hpos]
    omega

/-! ### Targets -/

/-- Every target is zero or at least the minimum stake, when the minimum stakes can be paid. -/
theorem targetOf_eq_zero_or_le (hselected : Selected operatorHash opts selectedSponsorships)
    (hlength : selectedSponsorships = [] ∨
      selectedSponsorships.length * opts.minStakePerSponsorship ≤ totalStakeableAmount opts)
    (id : SponsorshipID) : targetOf opts selectedSponsorships id = 0 ∨
      opts.minStakePerSponsorship ≤ targetOf opts selectedSponsorships id := by
  unfold targetOf
  split_ifs with hmem
  · refine Or.inr (le_add_of_nonneg_right (Int.tdiv_nonneg ?_ ?_))
    · have hamount := hlength.resolve_left (List.ne_nil_of_mem hmem)
      exact mul_nonneg (sub_nonneg.mpr hamount)
        (payoutPerSec_eq (hselected.stakeable id hmem)).2.le
    · exact (hselected.sum_payouts_pos (List.ne_nil_of_mem hmem)).le
  · exact Or.inl rfl

/-- The targets of the selected sponsorships are the minimum stakes and the shares of the rest. -/
theorem sum_targetOf (opts : AdjustStakesOptions SponsorshipID)
    (selectedSponsorships : List SponsorshipID) :
    (selectedSponsorships.map (targetOf opts selectedSponsorships)).sum =
      selectedSponsorships.length * opts.minStakePerSponsorship +
        (shares (proportionalAmount opts selectedSponsorships)
          (selectedSponsorships.map (payoutOf opts))).sum := by
  have hmap : selectedSponsorships.map (targetOf opts selectedSponsorships) =
      selectedSponsorships.map fun id ↦ opts.minStakePerSponsorship +
        (proportionalAmount opts selectedSponsorships * payoutOf opts id).tdiv
          (selectedSponsorships.map (payoutOf opts)).sum :=
    List.map_congr_left fun id hmem ↦ if_pos hmem
  rw [hmap, List.sum_map_add, List.map_const', List.sum_replicate, nsmul_eq_mul, shares,
    List.map_map]
  rfl

/-! ### Adjustments -/

/-- The entries of the target stakes. -/
theorem mem_targetStakes_iff (hselected : Selected operatorHash opts selectedSponsorships)
    {entry : SponsorshipID × ℤ} :
    entry ∈ (OrderedMap.fromEntries (targetEntries opts selectedSponsorships)).entries ↔
      (entry.1 ∈ selectedSponsorships ∨ entry.1 ∈ opts.myCurrentStakes.keys) ∧
      entry.2 = targetOf opts selectedSponsorships entry.1 := by
  rw [OrderedMap.mem_entries_fromEntries (targetOf opts selectedSponsorships) fun other hother ↦
    ((mem_targetEntries_iff hselected).mp hother).2]
  exact mem_targetEntries_iff hselected

/-- The adjustments before the loop. -/
theorem mem_adjustmentsOf_iff (hselected : Selected operatorHash opts selectedSponsorships)
    {a : Adjustment SponsorshipID} : a ∈ adjustmentsOf opts selectedSponsorships ↔
      (a.sponsorshipId ∈ selectedSponsorships ∨ a.sponsorshipId ∈ opts.myCurrentStakes.keys) ∧
      a.difference = targetOf opts selectedSponsorships a.sponsorshipId -
        currentStake opts a.sponsorshipId ∧
      a.difference ≠ 0 ∧ tooSmall opts a = false := by
  obtain ⟨id, difference⟩ := a
  simp only [adjustmentsOf, allAdjustments, List.mem_filter, List.mem_map,
    mem_targetStakes_iff hselected, Adjustment.mk.injEq, decide_eq_true_iff, Bool.not_eq_true']
  constructor
  · rintro ⟨⟨⟨⟨other, target⟩, ⟨hkey, htarget⟩, rfl, rfl⟩, hne⟩, hsmall⟩
    exact ⟨hkey, congrArg (· - currentStake opts other) htarget, hne, hsmall⟩
  · rintro ⟨hkey, rfl, hne, hsmall⟩
    exact ⟨⟨⟨(id, _), ⟨hkey, rfl⟩, rfl, rfl⟩, hne⟩, hsmall⟩

/-- No sponsorship has two adjustments. -/
theorem nodup_adjustmentsOf (opts : AdjustStakesOptions SponsorshipID)
    (selectedSponsorships : List SponsorshipID) :
    ((adjustmentsOf opts selectedSponsorships).map Adjustment.sponsorshipId).Nodup := by
  refine List.Nodup.sublist ((List.filter_sublist.trans List.filter_sublist).map _) ?_
  rw [List.map_map]
  exact (OrderedMap.fromEntries (targetEntries opts selectedSponsorships)).nodup_keys

theorem currentStake_nonneg (opts : AdjustStakesOptions SponsorshipID) (id : SponsorshipID) :
    0 ≤ currentStake opts id := by
  unfold currentStake
  cases hget : opts.myCurrentStakes.get? id with
  | none => exact le_refl _
  | some stake =>
    exact opts.stakes_nonneg stake (List.mem_map_of_mem (OrderedMap.get?_eq_some_iff.mp hget))

theorem get?_of_currentStake_pos {id : SponsorshipID} (hpos : 0 < currentStake opts id) :
    opts.myCurrentStakes.get? id = some (currentStake opts id) := by
  unfold currentStake at hpos ⊢
  cases hget : opts.myCurrentStakes.get? id with
  | none =>
    rw [hget] at hpos
    exact absurd hpos (lt_irrefl _)
  | some stake => rfl

/-- An adjustment that the contracts accept. -/
structure Proper (opts : AdjustStakesOptions SponsorshipID) (a : Adjustment SponsorshipID) :
    Prop where
  ne_zero : a.difference ≠ 0
  minDiff_le : 0 < a.difference → minDiff opts a.sponsorshipId ≤ a.difference
  unstake : a.difference < 0 →
    opts.myCurrentStakes.get? a.sponsorshipId = some (currentStake opts a.sponsorshipId) ∧
    0 ≤ currentStake opts a.sponsorshipId + a.difference ∧
    (currentStake opts a.sponsorshipId + a.difference = 0 ∨
      opts.minStakePerSponsorship ≤ currentStake opts a.sponsorshipId + a.difference)

/-- When every target is zero or at least the minimum stake, the contracts accept all adjustments. -/
theorem proper_adjustmentsOf (hselected : Selected operatorHash opts selectedSponsorships)
    (htargets : ∀ id, targetOf opts selectedSponsorships id = 0 ∨
      opts.minStakePerSponsorship ≤ targetOf opts selectedSponsorships id)
    {a : Adjustment SponsorshipID} (hmem : a ∈ adjustmentsOf opts selectedSponsorships) :
    Proper opts a := by
  obtain ⟨-, hdifference, hne, hsmall⟩ := (mem_adjustmentsOf_iff hselected).mp hmem
  have hcurrent := currentStake_nonneg opts a.sponsorshipId
  have htarget := htargets a.sponsorshipId
  have hminStake := opts.minStake_nonneg
  refine ⟨hne, fun hpos ↦ ?_, fun hneg ↦ ?_⟩
  · have hin : a.sponsorshipId ∈ selectedSponsorships := by
      by_contra hnot
      have hzero : targetOf opts selectedSponsorships a.sponsorshipId = 0 := if_neg hnot
      omega
    have hbig : opts.minTransactionAmount ≤ a.difference := by
      by_contra hlt
      unfold tooSmall at hsmall
      rw [hselected.stakeable _ hin, abs_of_pos hpos] at hsmall
      exact of_decide_eq_false hsmall ⟨not_le.mp hlt, rfl⟩
    refine max_le hbig ?_
    split_ifs with hhas
    · exact hpos.le
    · have hnone : currentStake opts a.sponsorshipId = 0 := by
        unfold currentStake
        rw [Option.not_isSome_iff_eq_none.mp hhas]
        rfl
      omega
  · rw [get?_of_currentStake_pos (by omega)]
    refine ⟨rfl, ?_, ?_⟩
    · omega
    · omega

/-! ### When no adjustment is too small, nothing is in excess -/

/-- A sum over different keys only depends on the keys where the function is not zero. -/
theorem sum_map_of_subset {keys others : List SponsorshipID} {value : SponsorshipID → ℤ}
    (hkeys : keys.Nodup) (hothers : others.Nodup) (hsub : others ⊆ keys)
    (hzero : ∀ key ∉ others, value key = 0) : (keys.map value).sum = (others.map value).sum := by
  rw [← List.sum_toFinset value hkeys, ← List.sum_toFinset value hothers]
  refine (Finset.sum_subset (fun key hmem ↦ ?_) fun key _ hnot ↦ ?_).symm
  · exact List.mem_toFinset.mpr (hsub (List.mem_toFinset.mp hmem))
  · exact hzero key fun hmem ↦ hnot (List.mem_toFinset.mpr hmem)

/-- The current stakes of all sponsorships with a stake. -/
theorem sum_currentStake (opts : AdjustStakesOptions SponsorshipID) :
    (opts.myCurrentStakes.keys.map (currentStake opts)).sum = opts.myCurrentStakes.values.sum :=
  congrArg List.sum (opts.myCurrentStakes.values_eq_map_keys 0).symm

omit [DecidableEq SponsorshipID] in
theorem sum_difference (adjustments : List (Adjustment SponsorshipID)) :
    (adjustments.map Adjustment.difference).sum = stakingSum adjustments -
      |((unstakings adjustments).map Adjustment.difference).sum| := by
  rw [abs_sum_unstakings]
  induction adjustments with
  | nil => rfl
  | cons a adjustments ih =>
    rw [List.map_cons, List.map_cons, List.sum_cons, List.sum_cons, stakingSum_cons, ih]
    omega

omit [DecidableEq SponsorshipID] in
theorem sum_difference_filter (adjustments : List (Adjustment SponsorshipID)) :
    ((adjustments.filter (·.difference ≠ 0)).map Adjustment.difference).sum =
      (adjustments.map Adjustment.difference).sum := by
  induction adjustments with
  | nil => rfl
  | cons a adjustments ih =>
    by_cases hzero : a.difference = 0
    · rw [List.filter_cons_of_neg (by simpa using hzero), ih, List.map_cons, List.sum_cons, hzero,
        zero_add]
    · rw [List.filter_cons_of_pos (by simpa using hzero), List.map_cons, List.sum_cons, ih,
        List.map_cons, List.sum_cons]

/-- All adjustments together change the stakes from what they are to the targets. -/
theorem sum_allAdjustments (hselected : Selected operatorHash opts selectedSponsorships) :
    ((allAdjustments opts (.fromEntries (targetEntries opts selectedSponsorships))).map
        Adjustment.difference).sum =
      (selectedSponsorships.map (targetOf opts selectedSponsorships)).sum -
        opts.myCurrentStakes.values.sum := by
  let targetStakes := OrderedMap.fromEntries (targetEntries opts selectedSponsorships)
  have hnodup : targetStakes.keys.Nodup := targetStakes.nodup_keys
  have hkeys (id : SponsorshipID) : id ∈ targetStakes.keys ↔
      id ∈ selectedSponsorships ∨ id ∈ opts.myCurrentStakes.keys := by
    constructor
    · intro hmem
      obtain ⟨entry, hentry, rfl⟩ := List.mem_map.mp hmem
      exact ((mem_targetStakes_iff hselected).mp hentry).1
    · intro hor
      have hentry : (id, targetOf opts selectedSponsorships id) ∈ targetStakes.entries :=
        (mem_targetStakes_iff hselected).mpr ⟨hor, rfl⟩
      exact List.mem_map_of_mem hentry
  have hdifferences : ((allAdjustments opts targetStakes).map Adjustment.difference).sum =
      (targetStakes.keys.map fun id ↦
        targetOf opts selectedSponsorships id - currentStake opts id).sum := by
    rw [allAdjustments, sum_difference_filter, List.map_map, OrderedMap.keys, List.map_map]
    refine congrArg List.sum (List.map_congr_left fun entry hmem ↦ ?_)
    show entry.2 - currentStake opts entry.1 = _
    rw [((mem_targetStakes_iff hselected).mp hmem).2]
    rfl
  have htargets := @sum_map_of_subset _ _ targetStakes.keys selectedSponsorships
    (targetOf opts selectedSponsorships) hnodup hselected.nodup
    (fun id hmem ↦ (hkeys id).mpr (Or.inl hmem)) fun id hnot ↦ if_neg hnot
  have hcurrent := @sum_map_of_subset _ _ targetStakes.keys opts.myCurrentStakes.keys
    (currentStake opts) hnodup opts.myCurrentStakes.nodup_keys
    (fun id hmem ↦ (hkeys id).mpr (Or.inr hmem)) fun id hnot ↦ ?_
  · rw [hdifferences, ← List.sum_toFinset _ hnodup, Finset.sum_sub_distrib, List.sum_toFinset _ hnodup,
      List.sum_toFinset _ hnodup]
    exact congrArg₂ (· - ·) htargets (hcurrent.trans (sum_currentStake opts))
  · by_contra hne
    have hpos := lt_of_le_of_ne (currentStake_nonneg opts id) (Ne.symm hne)
    exact hnot (OrderedMap.mem_keys_iff.mpr ⟨_, get?_of_currentStake_pos hpos⟩)

/-- When no adjustment is too small, the stakings are covered. -/
theorem covered_of_minTransaction_le_one
    (hselected : Selected operatorHash opts selectedSponsorships)
    (hlength : selectedSponsorships.length * opts.minStakePerSponsorship ≤
      totalStakeableAmount opts) (hmin : opts.minTransactionAmount ≤ 1) :
    stakingSum (adjustmentsOf opts selectedSponsorships) ≤
      availableSum opts (adjustmentsOf opts selectedSponsorships) := by
  have hall : adjustmentsOf opts selectedSponsorships =
      allAdjustments opts (.fromEntries (targetEntries opts selectedSponsorships)) := by
    refine List.filter_eq_self.mpr fun a hmem ↦ ?_
    have hone : 1 ≤ |a.difference| :=
      Int.one_le_abs (of_decide_eq_true (List.mem_filter.mp hmem).2)
    have hnot : ¬|a.difference| < opts.minTransactionAmount := not_lt.mpr (hmin.trans hone)
    simp [tooSmall, hnot]
  have hsum := sum_allAdjustments hselected
  have hshares : (shares (proportionalAmount opts selectedSponsorships)
      (selectedSponsorships.map (payoutOf opts))).sum ≤
        proportionalAmount opts selectedSponsorships := by
    refine shares.sum_le (sub_nonneg.mpr hlength) (List.forall_mem_map.mpr fun id hmem ↦ ?_)
    exact (payoutPerSec_eq (hselected.stakeable id hmem)).2.le
  rw [← hall, sum_difference, sum_targetOf] at hsum
  have hamount : proportionalAmount opts selectedSponsorships =
      opts.myCurrentStakes.values.sum + opts.myUnstakedAmount - opts.undelegationQueueAmount -
        selectedSponsorships.length * opts.minStakePerSponsorship := rfl
  unfold availableSum
  linarith

/-! ### After the loop -/

theorem exists_before_of_mem {kept balanced : List (Adjustment SponsorshipID)}
    (hreduced : List.Forall₂ (Reduced opts) kept balanced) {after : Adjustment SponsorshipID}
    (hmem : after ∈ balanced) : ∃ before ∈ kept, Reduced opts before after := by
  induction hreduced with
  | nil => exact absurd hmem List.not_mem_nil
  | @cons first second kept balanced hhead _ ih =>
    rcases List.mem_cons.mp hmem with rfl | hmem
    · exact ⟨first, List.mem_cons_self, hhead⟩
    · obtain ⟨before, hbefore, hrelated⟩ := ih hmem
      exact ⟨before, List.mem_cons_of_mem first hbefore, hrelated⟩

/-- An adjustment that unstakes goes through the loop as it is. -/
theorem mem_of_unstake {kept balanced : List (Adjustment SponsorshipID)}
    (hreduced : List.Forall₂ (Reduced opts) kept balanced) {a : Adjustment SponsorshipID}
    (hmem : a ∈ kept) (hnonpos : a.difference ≤ 0) : a ∈ balanced := by
  induction hreduced with
  | nil => exact absurd hmem List.not_mem_nil
  | @cons first second kept balanced hhead _ ih =>
    rcases List.mem_cons.mp hmem with rfl | hmem
    · rcases hhead with rfl | ⟨-, hpos, -⟩
      · exact List.mem_cons_self
      · exact absurd hnonpos (not_le.mpr hpos)
    · exact List.mem_cons_of_mem second (ih hmem)

theorem sponsorshipIds_eq {kept balanced : List (Adjustment SponsorshipID)}
    (hreduced : List.Forall₂ (Reduced opts) kept balanced) :
    balanced.map Adjustment.sponsorshipId = kept.map Adjustment.sponsorshipId := by
  induction hreduced with
  | nil => rfl
  | @cons first second kept balanced hhead _ ih =>
    have hid : second.sponsorshipId = first.sponsorshipId :=
      hhead.elim (congrArg Adjustment.sponsorshipId) And.left
    rw [List.map_cons, List.map_cons, hid, ih]

theorem Balanced.nodup_sponsorshipIds {kept balanced : List (Adjustment SponsorshipID)}
    (hbalanced : Balanced opts (adjustmentsOf opts selectedSponsorships) kept balanced) :
    (balanced.map Adjustment.sponsorshipId).Nodup := by
  rw [sponsorshipIds_eq hbalanced.reduced]
  exact (nodup_adjustmentsOf opts selectedSponsorships).sublist (hbalanced.sublist.map _)

/-- The contracts accept a staking that was reduced, when there is a minimum transaction. -/
theorem Proper.of_reduced {before after : Adjustment SponsorshipID}
    (hproper : Proper opts before) (hreduced : Reduced opts before after)
    (hpos : after ≠ before → 0 < opts.minTransactionAmount) : Proper opts after := by
  by_cases hsame : after = before
  · exact hsame ▸ hproper
  · obtain ⟨hid, -, hmin, -⟩ := hreduced.resolve_left hsame
    have hbig : 0 < after.difference :=
      (hpos hsame).trans_le ((le_max_left _ _).trans hmin)
    exact ⟨hbig.ne', fun _ ↦ hid ▸ hmin, fun hneg ↦ absurd hneg hbig.not_gt⟩

/-- After the loop the contracts accept all adjustments. -/
theorem proper_balanceOut (hselected : Selected operatorHash opts selectedSponsorships)
    (hlength : selectedSponsorships = [] ∨
      selectedSponsorships.length * opts.minStakePerSponsorship ≤ totalStakeableAmount opts)
    {a : Adjustment SponsorshipID}
    (hmem : a ∈ balanceOut opts (adjustmentsOf opts selectedSponsorships)) : Proper opts a := by
  have hproper {before : Adjustment SponsorshipID}
      (hbefore : before ∈ adjustmentsOf opts selectedSponsorships) : Proper opts before :=
    proper_adjustmentsOf hselected (targetOf_eq_zero_or_le hselected hlength) hbefore
  obtain ⟨kept, hbalanced⟩ := exists_balanced opts (adjustmentsOf opts selectedSponsorships)
  obtain ⟨before, hkept, hreduced⟩ := exists_before_of_mem hbalanced.reduced hmem
  have hbefore := hbalanced.sublist.subset hkept
  by_cases hzero : opts.minTransactionAmount = 0
  · rcases hlength with hnil | hlength
    · -- nothing is selected, and no adjustment stakes
      refine (hproper hbefore).of_reduced hreduced fun hne ↦ ?_
      obtain ⟨-, hpos, -⟩ := hreduced.resolve_left hne
      obtain ⟨-, hdifference, -⟩ := (mem_adjustmentsOf_iff hselected).mp hbefore
      have htarget : targetOf opts selectedSponsorships before.sponsorshipId = 0 :=
        if_neg (hnil ▸ List.not_mem_nil)
      have hcurrent := currentStake_nonneg opts before.sponsorshipId
      omega
    · rw [balanceOut_of_covered (covered_of_minTransaction_le_one hselected hlength
        (hzero.trans_le zero_le_one))] at hmem
      exact hproper hmem
  · exact (hproper hbefore).of_reduced hreduced fun _ ↦
      lt_of_le_of_ne opts.minTransaction_nonneg (Ne.symm hzero)

/-! ### Legality -/

omit [DecidableEq SponsorshipID] in
/-- The actions of some adjustments. -/
theorem mem_actions_iff {adjustments : List (Adjustment SponsorshipID)}
    {action : Action SponsorshipID} : action ∈ sortActions (adjustments.map toAction) ↔
      ∃ a ∈ adjustments, toAction a = action := by
  rw [(sortActions_perm _).mem_iff, List.mem_map]

omit [DecidableEq SponsorshipID] in
theorem toAction_of_pos {a : Adjustment SponsorshipID} (hpos : 0 < a.difference) :
    toAction a = ⟨.stake, a.sponsorshipId, a.difference⟩ := by
  rw [toAction, if_pos hpos, if_pos hpos]

omit [DecidableEq SponsorshipID] in
theorem toAction_of_neg {a : Adjustment SponsorshipID} (hneg : a.difference < 0) :
    toAction a = ⟨.unstake, a.sponsorshipId, -a.difference⟩ := by
  rw [toAction, if_neg hneg.not_gt, if_neg hneg.not_gt]

/-- An unstaking is among the actions. -/
theorem unstake_mem_actions {a : Adjustment SponsorshipID}
    (hmem : a ∈ adjustmentsOf opts selectedSponsorships) (hneg : a.difference < 0) :
    ⟨.unstake, a.sponsorshipId, -a.difference⟩ ∈ sortActions
      ((balanceOut opts (adjustmentsOf opts selectedSponsorships)).map toAction) := by
  obtain ⟨kept, hbalanced⟩ := exists_balanced opts (adjustmentsOf opts selectedSponsorships)
  have hkept := hbalanced.unstakings_kept a hmem hneg.le
  exact mem_actions_iff.mpr
    ⟨a, mem_of_unstake hbalanced.reduced hkept hneg.le, toAction_of_neg hneg⟩

/-- A stake in a sponsorship that is not stakeable any more is unstaked. -/
theorem expired_mem_actions (hselected : Selected operatorHash opts selectedSponsorships)
    {id : SponsorshipID} {stake : ℤ} (hstake : opts.myCurrentStakes.get? id = some stake)
    (hpos : 0 < stake) (hexpired : opts.stakeableSponsorships.has id = false) :
    ⟨.unstake, id, stake⟩ ∈ sortActions
      ((balanceOut opts (adjustmentsOf opts selectedSponsorships)).map toAction) := by
  have hnot : id ∉ selectedSponsorships := fun hmem ↦ by
    rw [hselected.stakeable id hmem] at hexpired
    cases hexpired
  have hcurrent : currentStake opts id = stake := by
    rw [currentStake, hstake]
    rfl
  have hmem : (⟨id, -stake⟩ : Adjustment SponsorshipID) ∈
      adjustmentsOf opts selectedSponsorships := by
    refine (mem_adjustmentsOf_iff hselected).mpr ⟨Or.inr ?_, ?_, ?_, ?_⟩
    · exact OrderedMap.mem_keys_iff.mpr ⟨stake, hstake⟩
    · show -stake = targetOf opts selectedSponsorships id - currentStake opts id
      rw [targetOf, if_neg hnot, hcurrent, zero_sub]
    · exact (neg_neg_of_pos hpos).ne
    · simp [tooSmall, hexpired]
  have haction := unstake_mem_actions hmem (neg_neg_of_pos hpos)
  rwa [neg_neg] at haction

/-- No sponsorship is in two actions. -/
theorem nodup_actions (opts : AdjustStakesOptions SponsorshipID)
    (selectedSponsorships : List SponsorshipID) :
    ((sortActions ((balanceOut opts (adjustmentsOf opts selectedSponsorships)).map
      toAction)).map Action.sponsorshipId).Nodup := by
  obtain ⟨kept, hbalanced⟩ := exists_balanced opts (adjustmentsOf opts selectedSponsorships)
  rw [((sortActions_perm _).map _).nodup_iff, List.map_map]
  exact hbalanced.nodup_sponsorshipIds

/-- Every action is that of a proper adjustment: an unstake when its difference is negative, and a stake
when it is positive. -/
theorem exists_proper_of_mem_actions
    (hselected : Selected operatorHash opts selectedSponsorships)
    (hlength : selectedSponsorships = [] ∨
      selectedSponsorships.length * opts.minStakePerSponsorship ≤ totalStakeableAmount opts)
    {action : Action SponsorshipID} (hmem : action ∈ sortActions
      ((balanceOut opts (adjustmentsOf opts selectedSponsorships)).map toAction)) :
    ∃ a, Proper opts a ∧
      ((a.difference < 0 ∧ action = ⟨.unstake, a.sponsorshipId, -a.difference⟩) ∨
        (0 < a.difference ∧ action = ⟨.stake, a.sponsorshipId, a.difference⟩)) := by
  obtain ⟨a, ha, rfl⟩ := mem_actions_iff.mp hmem
  have hproper := proper_balanceOut hselected hlength ha
  refine ⟨a, hproper, (lt_or_gt_of_ne hproper.ne_zero).imp ?_ ?_⟩
  · exact fun hneg ↦ ⟨hneg, toAction_of_neg hneg⟩
  · exact fun hpos ↦ ⟨hpos, toAction_of_pos hpos⟩

/-- The actions are legal when the minimum stakes of the selected sponsorships can be paid. -/
theorem legal_of_length_le (hselected : Selected operatorHash opts selectedSponsorships)
    (hlength : selectedSponsorships = [] ∨
      selectedSponsorships.length * opts.minStakePerSponsorship ≤ totalStakeableAmount opts) :
    Legal opts (sortActions
      ((balanceOut opts (adjustmentsOf opts selectedSponsorships)).map toAction)) where
  positive := fun action hmem ↦ by
    obtain ⟨a, -, ⟨hneg, rfl⟩ | ⟨hpos, rfl⟩⟩ :=
      exists_proper_of_mem_actions hselected hlength hmem
    · exact neg_pos.mpr hneg
    · exact hpos
  unstakes := fun action hmem htype ↦ by
    obtain ⟨a, hproper, ⟨hneg, rfl⟩ | ⟨-, rfl⟩⟩ :=
      exists_proper_of_mem_actions hselected hlength hmem
    · obtain ⟨hget, hnonneg, hleft⟩ := hproper.unstake hneg
      refine ⟨_, hget, ?_, ?_⟩
      · exact neg_le_iff_add_nonneg.mpr hnonneg
      · rwa [sub_neg_eq_add]
    · cases htype
  first_stakes := fun action hmem htype hnone ↦ by
    obtain ⟨a, hproper, ⟨-, rfl⟩ | ⟨hpos, rfl⟩⟩ :=
      exists_proper_of_mem_actions hselected hlength hmem
    · cases htype
    · have hmin := hproper.minDiff_le hpos
      have hhas : opts.myCurrentStakes.has a.sponsorshipId = false := by
        rw [OrderedMap.has, hnone]
        rfl
      rw [minDiff, hhas] at hmin
      exact (max_comm _ _).trans_le hmin
  stakes := fun action hmem htype ↦ by
    obtain ⟨a, hproper, ⟨-, rfl⟩ | ⟨hpos, rfl⟩⟩ :=
      exists_proper_of_mem_actions hselected hlength hmem
    · cases htype
    · exact (le_max_left _ _).trans (hproper.minDiff_le hpos)
  expired := fun _ _ hstake hpos hexpired ↦ expired_mem_actions hselected hstake hpos hexpired
  once := nodup_actions opts selectedSponsorships

/-- A target below zero makes an illegal unstake, unless the adjustment is too small. -/
theorem not_legal_of_targetOf_neg (hselected : Selected operatorHash opts selectedSponsorships)
    {id : SponsorshipID} (hmem : id ∈ selectedSponsorships)
    (hneg : targetOf opts selectedSponsorships id < 0)
    (hbig : opts.minTransactionAmount ≤
      currentStake opts id - targetOf opts selectedSponsorships id) :
    ¬Legal opts (sortActions
      ((balanceOut opts (adjustmentsOf opts selectedSponsorships)).map toAction)) := by
  intro hlegal
  have hcurrent := currentStake_nonneg opts id
  let a : Adjustment SponsorshipID :=
    ⟨id, targetOf opts selectedSponsorships id - currentStake opts id⟩
  have hdifference : a.difference < 0 := sub_neg.mpr (hneg.trans_le hcurrent)
  have hnotSmall : ¬|a.difference| < opts.minTransactionAmount := by
    rw [abs_of_neg hdifference, not_lt]
    exact hbig.trans (neg_sub _ _).ge
  have hadjustment : a ∈ adjustmentsOf opts selectedSponsorships :=
    (mem_adjustmentsOf_iff hselected).mpr
      ⟨Or.inl hmem, rfl, hdifference.ne, by simp [tooSmall, hnotSmall]⟩
  obtain ⟨stake, hstake, hle, -⟩ :=
    hlegal.unstakes _ (unstake_mem_actions hadjustment hdifference) rfl
  have hsame : currentStake opts id = stake := by
    rw [currentStake, hstake]
    rfl
  have hamount : -(targetOf opts selectedSponsorships id - currentStake opts id) ≤ stake := hle
  omega

/-- When less than nothing can be staked, by as much as there are sponsorships times the minimum
transaction, some target is as far below zero as the minimum transaction. -/
theorem exists_targetOf_le (hselected : Selected operatorHash opts selectedSponsorships)
    (hne : selectedSponsorships ≠ []) {bound : ℤ} (hbound : 0 ≤ bound)
    (htotal : totalStakeableAmount opts ≤
      -(opts.stakeableSponsorships.entries.length * bound)) :
    ∃ id ∈ selectedSponsorships, targetOf opts selectedSponsorships id ≤ -bound := by
  by_contra hall
  push Not at hall
  have hsum := sum_targetOf opts selectedSponsorships
  have hshares : (shares (proportionalAmount opts selectedSponsorships)
      (selectedSponsorships.map (payoutOf opts))).sum <
        proportionalAmount opts selectedSponsorships + selectedSponsorships.length := by
    have hlt := @shares.sum_lt (proportionalAmount opts selectedSponsorships)
      (selectedSponsorships.map (payoutOf opts)) (List.map_eq_nil_iff.not.mpr hne)
      (hselected.sum_payouts_pos hne)
    rwa [List.length_map] at hlt
  have hlow : (selectedSponsorships.length : ℤ) * (1 - bound) ≤
      (selectedSponsorships.map (targetOf opts selectedSponsorships)).sum := by
    have hle := List.card_nsmul_le_sum
      (selectedSponsorships.map (targetOf opts selectedSponsorships)) (1 - bound)
      (List.forall_mem_map.mpr fun id hmem ↦ by
        have hlt := hall id hmem
        omega)
    rwa [List.length_map, nsmul_eq_mul] at hle
  have hlength : (selectedSponsorships.length : ℤ) * bound ≤
      opts.stakeableSponsorships.entries.length * bound := by
    obtain ⟨count, -, rfl⟩ := hselected.eq_slice
    have hle := (slice_sublist count (candidates operatorHash opts)).length_le
    rw [length_candidates] at hle
    exact mul_le_mul_of_nonneg_right (Nat.cast_le.mpr hle) hbound
  have hamount : proportionalAmount opts selectedSponsorships = totalStakeableAmount opts -
      selectedSponsorships.length * opts.minStakePerSponsorship := rfl
  rw [mul_sub, mul_one] at hlow
  linarith

/-- An operator with a stake of 10000 in the first of two sponsorships, and nothing else; the minimum
stake is 5000. -/
def overdrawnOptions (undelegationQueueAmount : ℕ) : AdjustStakesOptions ℕ where
  myCurrentStakes := .fromEntries [(1, 10000)]
  myUnstakedAmount := 0
  stakeableSponsorships := .fromEntries [(1, ⟨20⟩), (2, ⟨30⟩)]
  undelegationQueueAmount := undelegationQueueAmount
  operatorContractAddress := ""
  maxSponsorshipCount := 25
  minTransactionAmount := 1000
  minStakePerSponsorship := 5000
  stakes_nonneg := by decide
  unstaked_nonneg := by decide
  payouts_pos := by decide
  queue_nonneg := Int.natCast_nonneg _
  minTransaction_nonneg := by decide
  minStake_nonneg := by decide

end PomboStorageNode.Autostaker
