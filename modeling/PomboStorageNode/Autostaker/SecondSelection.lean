import PomboStorageNode.Autostaker.AppliedActions
import PomboStorageNode.Library.StableOrder

/-!
# The selection after the actions

A sponsorship with a stake is preferred to those without one, so what the next call selects depends on
which stakes the actions leave. The actions take nothing away from a selected sponsorship but down to its
target; if the target is zero, it loses its place among the preferred ones, and others may be selected
instead. That happens only when its share rounds to zero (`keepsTargets_of_sharesKept`).
-/

set_option autoImplicit false

namespace PomboStorageNode.Autostaker

open Library

variable {SponsorshipID : Type} [DecidableEq SponsorshipID]
  {operatorHash : String → SponsorshipID → ℤ} {opts other : AdjustStakesOptions SponsorshipID}
  {actions : List (Action SponsorshipID)} {selectedSponsorships otherSelected : List SponsorshipID}

/-! ### The same settings -/

/-- Arguments that differ only in which sponsorships have the tokens. -/
structure SameSettings (opts other : AdjustStakesOptions SponsorshipID) : Prop where
  stakeable : other.stakeableSponsorships = opts.stakeableSponsorships
  address : other.operatorContractAddress = opts.operatorContractAddress
  maxCount : other.maxSponsorshipCount = opts.maxSponsorshipCount
  minTransaction : other.minTransactionAmount = opts.minTransactionAmount
  minStake : other.minStakePerSponsorship = opts.minStakePerSponsorship
  total : totalStakeableAmount other = totalStakeableAmount opts

theorem Applied.sameSettings (happlied : Applied opts actions other) : SameSettings opts other where
  stakeable := happlied.stakeable
  address := happlied.address
  maxCount := happlied.maxCount
  minTransaction := happlied.minTransaction
  minStake := happlied.minStake
  total := happlied.totalStakeableAmount_eq

namespace SameSettings

omit [DecidableEq SponsorshipID] in
theorem symm (h : SameSettings opts other) : SameSettings other opts :=
  ⟨h.stakeable.symm, h.address.symm, h.maxCount.symm, h.minTransaction.symm, h.minStake.symm,
    h.total.symm⟩

omit [DecidableEq SponsorshipID] in
theorem trans {third : AdjustStakesOptions SponsorshipID} (h : SameSettings opts other)
    (hthird : SameSettings other third) : SameSettings opts third where
  stakeable := hthird.stakeable.trans h.stakeable
  address := hthird.address.trans h.address
  maxCount := hthird.maxCount.trans h.maxCount
  minTransaction := hthird.minTransaction.trans h.minTransaction
  minStake := hthird.minStake.trans h.minStake
  total := hthird.total.trans h.total

theorem payoutOf_eq (h : SameSettings opts other) (id : SponsorshipID) :
    payoutOf other id = payoutOf opts id := by
  rw [payoutOf, payoutPerSec, h.stakeable]
  rfl

omit [DecidableEq SponsorshipID] in
theorem selectedCount_eq (h : SameSettings opts other) :
    selectedCount other = selectedCount opts := by
  unfold selectedCount
  rw [h.stakeable, h.maxCount, h.minStake, h.total]

theorem tooSmall_eq (h : SameSettings opts other) (a : Adjustment SponsorshipID) :
    tooSmall other a = tooSmall opts a := by
  unfold tooSmall
  rw [h.stakeable, h.minTransaction]

theorem minDiff_eq (h : SameSettings opts other) {id : SponsorshipID}
    (hhas : other.myCurrentStakes.has id = opts.myCurrentStakes.has id) :
    minDiff other id = minDiff opts id := by
  unfold minDiff
  rw [hhas, h.minTransaction, h.minStake]

end SameSettings

/-! ### The order of the candidates -/

/-- The order of the sponsorships without a stake: the greatest payout first. -/
def PayoutOrder (operatorHash : String → SponsorshipID → ℤ)
    (opts : AdjustStakesOptions SponsorshipID) (first second : SponsorshipID) : Prop :=
  toLex (-payoutOf opts first, operatorHash opts.operatorContractAddress first) ≤
    toLex (-payoutOf opts second, operatorHash opts.operatorContractAddress second)

instance : DecidableRel (PayoutOrder operatorHash opts) := fun first second ↦
  inferInstanceAs (Decidable
    (toLex (-payoutOf opts first, operatorHash opts.operatorContractAddress first) ≤
      toLex (-payoutOf opts second, operatorHash opts.operatorContractAddress second)))

instance : Std.Total (PayoutOrder operatorHash opts) := ⟨fun _ _ ↦ le_total _ _⟩

instance : IsTrans SponsorshipID (PayoutOrder operatorHash opts) := ⟨fun _ _ _ ↦ le_trans⟩

theorem candidates_eq_preferred (operatorHash : String → SponsorshipID → ℤ)
    (opts : AdjustStakesOptions SponsorshipID) : candidates operatorHash opts =
      preferred (PayoutOrder operatorHash opts) (opts.myCurrentStakes.has ·)
        opts.stakeableSponsorships.keys :=
  rfl

/-- The candidates with the same settings: only the sponsorships that come first may be others. -/
theorem SameSettings.candidates_eq (h : SameSettings opts other) :
    candidates operatorHash other =
      preferred (PayoutOrder operatorHash opts) (other.myCurrentStakes.has ·)
        opts.stakeableSponsorships.keys := by
  unfold candidates sortPotential payoutPerSec
  rw [h.stakeable, h.address]
  rfl

/-- With an amount that is not negative, the first ones of the candidates are selected. -/
theorem Selected.eq_take (hselected : Selected operatorHash opts selectedSponsorships)
    (hnonneg : 0 ≤ totalStakeableAmount opts) : ∃ count : ℕ, selectedCount opts = some (count : ℤ) ∧
      selectedSponsorships = (candidates operatorHash opts).take count := by
  obtain ⟨count, hcount, rfl⟩ := hselected.eq_slice
  have hle : 0 ≤ count := by
    have hquotient := Int.tdiv_nonneg hnonneg opts.minStake_nonneg
    unfold selectedCount divide at hcount
    dsimp only at hcount
    split_ifs at hcount with hpos hzero
    · exact absurd hzero hpos.ne'
    · rw [Option.map_some, Option.some.injEq] at hcount
      omega
    · rw [Option.some.injEq] at hcount
      omega
  refine ⟨count.toNat, ?_, if_neg (not_lt.mpr hle)⟩
  rw [hcount, Int.toNat_of_nonneg hle]

/-- Some selected sponsorships, in the order of the candidates. -/
theorem Selected.filter_eq (hselected : Selected operatorHash opts selectedSponsorships)
    (hnonneg : 0 ≤ totalStakeableAmount opts) {wanted : SponsorshipID → Bool}
    (hwanted : ∀ id, wanted id = true → id ∈ selectedSponsorships) :
    selectedSponsorships.filter wanted = (candidates operatorHash opts).filter wanted := by
  obtain ⟨count, -, rfl⟩ := hselected.eq_take hnonneg
  have hnodup : (candidates operatorHash opts).Nodup :=
    (candidates_perm opts).nodup_iff.mpr opts.stakeableSponsorships.nodup_keys
  rw [← filter_mem_take hnodup, List.filter_filter]
  refine List.filter_congr fun id _ ↦ ?_
  cases hcase : wanted id with
  | false => rfl
  | true => exact decide_eq_true (hwanted id hcase)

/-- The same sponsorships are selected when the selected ones keep their stakes, and no other
sponsorship gets a stake. -/
theorem SameSettings.selected_perm (h : SameSettings opts other)
    (hnonneg : 0 ≤ totalStakeableAmount opts)
    (hselected : Selected operatorHash opts selectedSponsorships)
    (hotherSelected : Selected operatorHash other otherSelected)
    (hkept : ∀ id ∈ selectedSponsorships, opts.myCurrentStakes.has id = true →
      other.myCurrentStakes.has id = true)
    (hnew : ∀ id, other.myCurrentStakes.has id = true →
      opts.myCurrentStakes.has id = true ∨ id ∈ selectedSponsorships) :
    otherSelected.Perm selectedSponsorships := by
  obtain ⟨count, hcount, rfl⟩ := hselected.eq_take hnonneg
  obtain ⟨otherCount, hotherCount, rfl⟩ :=
    hotherSelected.eq_take (hnonneg.trans_eq h.total.symm)
  rw [h.selectedCount_eq, hcount, Option.some.injEq, Nat.cast_inj] at hotherCount
  subst hotherCount
  rw [h.candidates_eq, candidates_eq_preferred]
  exact take_preferred_perm opts.stakeableSponsorships.nodup_keys hkept hnew

/-! ### Targets -/

theorem SameSettings.targetOf_eq_of_perm (h : SameSettings opts other)
    (hperm : otherSelected.Perm selectedSponsorships) (id : SponsorshipID) :
    targetOf other otherSelected id = targetOf opts selectedSponsorships id := by
  have hpayouts : (otherSelected.map (payoutOf other)).sum =
      (selectedSponsorships.map (payoutOf opts)).sum := by
    rw [(hperm.map _).sum_eq]
    exact congrArg List.sum (List.map_congr_left fun id _ ↦ h.payoutOf_eq id)
  unfold targetOf proportionalAmount
  rw [hpayouts, h.payoutOf_eq, h.minStake, h.total,
    hperm.length_eq]
  exact if_congr hperm.mem_iff rfl rfl

/-- When all sponsorships can be selected, they are. -/
theorem Selected.perm_keys (hselected : Selected operatorHash opts selectedSponsorships)
    (hzero : opts.minStakePerSponsorship = 0)
    (hsize : opts.stakeableSponsorships.entries.length ≤ opts.maxSponsorshipCount)
    (hnonneg : 0 ≤ totalStakeableAmount opts) :
    selectedSponsorships.Perm opts.stakeableSponsorships.keys := by
  obtain ⟨count, hcount, rfl⟩ := hselected.eq_take hnonneg
  have hlength := length_candidates operatorHash opts
  unfold selectedCount at hcount
  dsimp only at hcount
  rw [hzero, if_neg (lt_irrefl _), Option.some.injEq] at hcount
  rw [List.take_of_length_le (by omega)]
  exact candidates_perm opts

theorem targetOf_nonneg (hselected : Selected operatorHash opts selectedSponsorships)
    (hnonneg : 0 ≤ totalStakeableAmount opts) (id : SponsorshipID) :
    0 ≤ targetOf opts selectedSponsorships id := by
  rcases targetOf_eq_zero_or_le hselected (Or.inr (hselected.length_mul_le hnonneg)) id with
    hzero | hle
  · exact hzero.ge
  · exact opts.minStake_nonneg.trans hle

/-- With a minimum stake, and where the share is at least one, the target is positive. -/
theorem targetOf_pos (hselected : Selected operatorHash opts selectedSponsorships)
    (hnonneg : 0 ≤ totalStakeableAmount opts) {id : SponsorshipID}
    (hmem : id ∈ selectedSponsorships)
    (hshare : 0 < opts.minStakePerSponsorship ∨
      (selectedSponsorships.map (payoutOf opts)).sum ≤
        totalStakeableAmount opts * payoutOf opts id) :
    0 < targetOf opts selectedSponsorships id := by
  have hsum := hselected.sum_payouts_pos (List.ne_nil_of_mem hmem)
  have hamount := hselected.length_mul_le hnonneg
  have hpayout := (payoutPerSec_eq (hselected.stakeable id hmem)).2
  have hproduct : 0 ≤ proportionalAmount opts selectedSponsorships * payoutOf opts id :=
    mul_nonneg (sub_nonneg.mpr hamount) hpayout.le
  rw [targetOf, if_pos hmem, Int.tdiv_eq_ediv_of_nonneg hproduct]
  have hquotient := Int.ediv_nonneg hproduct hsum.le
  by_cases hmin : 0 < opts.minStakePerSponsorship
  · omega
  · have hzero : opts.minStakePerSponsorship = 0 := le_antisymm (not_lt.mp hmin) opts.minStake_nonneg
    have hone : 1 ≤ proportionalAmount opts selectedSponsorships * payoutOf opts id /
        (selectedSponsorships.map (payoutOf opts)).sum := by
      rw [Int.le_ediv_iff_mul_le hsum, one_mul, proportionalAmount, hzero, mul_zero, sub_zero]
      exact hshare.resolve_left hmin
    omega

/-- With nothing to stake and without a minimum stake all targets are zero. -/
theorem targetOf_eq_zero (hzero : opts.minStakePerSponsorship = 0)
    (htotal : totalStakeableAmount opts = 0) (id : SponsorshipID) :
    targetOf opts selectedSponsorships id = 0 := by
  unfold targetOf proportionalAmount
  rw [hzero, htotal, mul_zero, sub_zero, zero_mul, Int.zero_tdiv]
  exact ite_self _

/-! ### Stakes that are unstaked in full -/

/-- Whether a stake is unstaked in full: the target is zero, and the stake is not below the minimum
transaction. -/
def unstakedInFull (opts : AdjustStakesOptions SponsorshipID)
    (selectedSponsorships : List SponsorshipID) (id : SponsorshipID) : Bool :=
  targetOf opts selectedSponsorships id = 0 ∧ opts.minTransactionAmount ≤ currentStake opts id

/-- The stakes without those that are unstaked in full. -/
def stakesLeft (opts : AdjustStakesOptions SponsorshipID)
    (selectedSponsorships : List SponsorshipID) : OrderedMap SponsorshipID ℤ :=
  opts.myCurrentStakes.filter fun entry ↦ !unstakedInFull opts selectedSponsorships entry.1

theorem sum_stakesLeft_le (opts : AdjustStakesOptions SponsorshipID)
    (selectedSponsorships : List SponsorshipID) :
    (stakesLeft opts selectedSponsorships).values.sum ≤ opts.myCurrentStakes.values.sum :=
  (List.filter_sublist.map Prod.snd).sum_le_sum opts.stakes_nonneg

/-- The arguments of `adjustStakes` after only the unstakes in full. -/
def afterFullUnstakes (opts : AdjustStakesOptions SponsorshipID)
    (selectedSponsorships : List SponsorshipID) : AdjustStakesOptions SponsorshipID :=
  { opts with
    myCurrentStakes := stakesLeft opts selectedSponsorships
    myUnstakedAmount := opts.myUnstakedAmount +
      (opts.myCurrentStakes.values.sum - (stakesLeft opts selectedSponsorships).values.sum)
    stakes_nonneg := fun stake hmem ↦
      opts.stakes_nonneg stake ((List.filter_sublist.map Prod.snd).subset hmem)
    unstaked_nonneg := add_nonneg opts.unstaked_nonneg
      (sub_nonneg.mpr (sum_stakesLeft_le opts selectedSponsorships)) }

theorem sameSettings_afterFullUnstakes (opts : AdjustStakesOptions SponsorshipID)
    (selectedSponsorships : List SponsorshipID) :
    SameSettings opts (afterFullUnstakes opts selectedSponsorships) where
  stakeable := rfl
  address := rfl
  maxCount := rfl
  minTransaction := rfl
  minStake := rfl
  total := by
    unfold totalStakeableAmount afterFullUnstakes
    ring

theorem has_afterFullUnstakes {id : SponsorshipID} :
    (afterFullUnstakes opts selectedSponsorships).myCurrentStakes.has id = true ↔
      opts.myCurrentStakes.has id = true ∧
        unstakedInFull opts selectedSponsorships id = false := by
  show (((opts.myCurrentStakes.filter _).get? id).isSome = true) ↔ _
  rw [OrderedMap.get?_filter, OrderedMap.has]
  cases opts.myCurrentStakes.get? id with
  | none => simp
  | some stake => simp

/-- The condition for stability: when the stakes with the target zero are unstaked, and nothing else is
done, the targets stay the same. -/
def KeepsTargets (operatorHash : String → SponsorshipID → ℤ)
    (opts : AdjustStakesOptions SponsorshipID) : Prop :=
  ∀ selectedSponsorships otherSelected,
    getSelectedSponsorships operatorHash opts = some selectedSponsorships →
    getSelectedSponsorships operatorHash (afterFullUnstakes opts selectedSponsorships) =
      some otherSelected →
    ∀ id, targetOf (afterFullUnstakes opts selectedSponsorships) otherSelected id =
      targetOf opts selectedSponsorships id

/-- The condition for the selections. -/
theorem keepsTargets_iff (hselected : Selected operatorHash opts selectedSponsorships)
    (hother : Selected operatorHash (afterFullUnstakes opts selectedSponsorships) otherSelected) :
    KeepsTargets operatorHash opts ↔
      ∀ id, targetOf (afterFullUnstakes opts selectedSponsorships) otherSelected id =
        targetOf opts selectedSponsorships id := by
  refine ⟨fun hkeeps ↦ hkeeps _ _ hselected.selected hother.selected, fun hsame ↦ ?_⟩
  intro first second hfirst hsecond
  obtain rfl := Option.some.inj (hselected.selected.symm.trans hfirst)
  obtain rfl := Option.some.inj (hother.selected.symm.trans hsecond)
  exact hsame

/-- A selected sponsorship without a stake is selected again after the unstakes in full. -/
theorem mem_otherSelected (hselected : Selected operatorHash opts selectedSponsorships)
    (hother : Selected operatorHash (afterFullUnstakes opts selectedSponsorships) otherSelected)
    (hnonneg : 0 ≤ totalStakeableAmount opts) {id : SponsorshipID}
    (hmem : id ∈ selectedSponsorships) (hnot : opts.myCurrentStakes.has id = false) :
    id ∈ otherSelected := by
  have h := sameSettings_afterFullUnstakes opts selectedSponsorships
  obtain ⟨count, hcount, hfirst⟩ := hselected.eq_take hnonneg
  obtain ⟨otherCount, hotherCount, hsecond⟩ := hother.eq_take (hnonneg.trans_eq h.total.symm)
  rw [h.selectedCount_eq, hcount, Option.some.injEq, Nat.cast_inj] at hotherCount
  rw [hsecond, h.candidates_eq, ← hotherCount]
  rw [hfirst, candidates_eq_preferred] at hmem
  exact mem_take_preferred opts.stakeableSponsorships.nodup_keys
    (fun other hhas ↦ (has_afterFullUnstakes.mp hhas).1) hnot hmem

/-! ### When the targets stay the same -/

/-- No stake is lost because a share rounds to zero: there is a minimum stake, or all sponsorships can be
selected, or nothing can be staked, or the shares of the selected sponsorships with a stake are at least
one. A stake below the minimum transaction is not lost either. -/
def SharesKept (operatorHash : String → SponsorshipID → ℤ)
    (opts : AdjustStakesOptions SponsorshipID) : Prop :=
  0 < opts.minStakePerSponsorship ∨
    opts.stakeableSponsorships.entries.length ≤ opts.maxSponsorshipCount ∨
    totalStakeableAmount opts = 0 ∨
    ∀ selectedSponsorships,
      getSelectedSponsorships operatorHash opts = some selectedSponsorships →
      ∀ id ∈ selectedSponsorships, ∀ stake, opts.myCurrentStakes.get? id = some stake →
        opts.minTransactionAmount ≤ stake →
        (selectedSponsorships.map (payoutOf opts)).sum ≤
          totalStakeableAmount opts * payoutOf opts id

/-- When no share rounds to zero, the targets stay the same. -/
theorem keepsTargets_of_sharesKept (hnonneg : 0 ≤ totalStakeableAmount opts)
    (hshares : SharesKept operatorHash opts) : KeepsTargets operatorHash opts := by
  obtain ⟨selectedSponsorships, hselected⟩ := exists_selected operatorHash opts
  obtain ⟨otherSelected, hother⟩ :=
    exists_selected operatorHash (afterFullUnstakes opts selectedSponsorships)
  have h := sameSettings_afterFullUnstakes opts selectedSponsorships
  rw [keepsTargets_iff hselected hother]
  intro id
  have hsame (htarget : ∀ id ∈ selectedSponsorships, opts.myCurrentStakes.has id = true →
      opts.minTransactionAmount ≤ currentStake opts id →
      0 < targetOf opts selectedSponsorships id) :
      targetOf (afterFullUnstakes opts selectedSponsorships) otherSelected id =
        targetOf opts selectedSponsorships id := by
    apply h.targetOf_eq_of_perm
    apply h.selected_perm hnonneg hselected hother
    · refine fun id hmem hhas ↦ has_afterFullUnstakes.mpr ⟨hhas, decide_eq_false ?_⟩
      rintro ⟨hzero, hbig⟩
      exact (htarget id hmem hhas hbig).ne' hzero
    · exact fun id hhas ↦ Or.inl (has_afterFullUnstakes.mp hhas).1
  by_cases hmin : 0 < opts.minStakePerSponsorship
  · exact hsame fun id hmem _ _ ↦ targetOf_pos hselected hnonneg hmem (Or.inl hmin)
  · have hzero : opts.minStakePerSponsorship = 0 := le_antisymm (not_lt.mp hmin) opts.minStake_nonneg
    rcases hshares.resolve_left hmin with hsize | hnothing | hshares
    · have hperm := hselected.perm_keys hzero hsize hnonneg
      have hotherPerm := hother.perm_keys hzero hsize (hnonneg.trans_eq h.total.symm)
      exact h.targetOf_eq_of_perm (hotherPerm.trans hperm.symm) id
    · rw [targetOf_eq_zero hzero hnothing,
        targetOf_eq_zero (h.minStake.trans hzero) (h.total.trans hnothing)]
    · refine hsame fun id hmem hhas hbig ↦ targetOf_pos hselected hnonneg hmem (Or.inr ?_)
      obtain ⟨stake, hget⟩ := Option.isSome_iff_exists.mp hhas
      have hstake : currentStake opts id = stake := by
        rw [currentStake, hget]
        rfl
      exact hshares _ hselected.selected id hmem stake hget (hbig.trans_eq hstake)

end PomboStorageNode.Autostaker
