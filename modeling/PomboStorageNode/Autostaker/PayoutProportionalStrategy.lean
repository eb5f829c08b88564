import Mathlib.Data.List.Sort
import Mathlib.Data.Prod.Lex
import PomboStorageNode.Library.OrderedMap
import PomboStorageNode.Library.ProportionalShares

/-!
# The payout proportional strategy

`payoutProportionalStrategy.ts` lists the actions with which an operator changes its stakes. Every
selected sponsorship has as target the minimum stake and a part of the rest in proportion to its
payout, and every other one has the target zero. The differences between targets and stakes are the
adjustments. Those below the minimum transaction are left out, and what they would have brought is
missing: a loop then takes the excess off the stakings, or leaves out the smallest staking.

`adjustStakes_affordable` is the result. The targets do not matter for it, only the loop does: it ends
when there is no staking, or when the stakings are covered (`balanceOut_covered`).
-/

set_option autoImplicit false

namespace PomboStorageNode.Autostaker

open Library

/-! ### The data -/

/-- `SponsorshipConfig`. -/
structure SponsorshipConfig where
  payoutPerSec : ℤ

/-- The type of an action. -/
inductive ActionType
  | stake
  | unstake
  deriving DecidableEq

/-- `Action`. -/
structure Action (SponsorshipID : Type) where
  type : ActionType
  sponsorshipId : SponsorshipID
  amount : ℤ
  deriving DecidableEq

/-- The arguments of `adjustStakes`, with what its callers pass: no amount is negative, and every
payout is positive. -/
structure AdjustStakesOptions (SponsorshipID : Type) where
  myCurrentStakes : OrderedMap SponsorshipID ℤ
  myUnstakedAmount : ℤ
  stakeableSponsorships : OrderedMap SponsorshipID SponsorshipConfig
  undelegationQueueAmount : ℤ
  operatorContractAddress : String
  maxSponsorshipCount : ℕ
  minTransactionAmount : ℤ
  minStakePerSponsorship : ℤ
  stakes_nonneg : ∀ stake ∈ myCurrentStakes.values, 0 ≤ stake
  unstaked_nonneg : 0 ≤ myUnstakedAmount
  payouts_pos : ∀ config ∈ stakeableSponsorships.values, 0 < config.payoutPerSec
  queue_nonneg : 0 ≤ undelegationQueueAmount
  minTransaction_nonneg : 0 ≤ minTransactionAmount
  minStake_nonneg : 0 ≤ minStakePerSponsorship

/-- A difference between the target and the stake of a sponsorship. -/
structure Adjustment (SponsorshipID : Type) where
  sponsorshipId : SponsorshipID
  difference : ℤ
  deriving DecidableEq

variable {SponsorshipID : Type} [DecidableEq SponsorshipID]

/-- The division of two numbers, which throws for the divisor zero. -/
def divide (dividend divisor : ℤ) : Option ℤ :=
  if divisor = 0 then none else some (dividend.tdiv divisor)

/-- `slice(0, count)`: a negative count counts from the end. -/
def slice (count : ℤ) (ids : List SponsorshipID) : List SponsorshipID :=
  if count < 0 then ids.take (ids.length + count).toNat else ids.take count.toNat

/-! ### Targets -/

/-- The stake in a sponsorship, zero when there is none. -/
def currentStake (opts : AdjustStakesOptions SponsorshipID) (id : SponsorshipID) : ℤ :=
  (opts.myCurrentStakes.get? id).getD 0

/-- `payoutPerSec` of a stakeable sponsorship. -/
def payoutPerSec (opts : AdjustStakesOptions SponsorshipID) (id : SponsorshipID) : Option ℤ :=
  (opts.stakeableSponsorships.get? id).map SponsorshipConfig.payoutPerSec

/-- `getExpiredSponsorships`. -/
def getExpiredSponsorships (opts : AdjustStakesOptions SponsorshipID) : List SponsorshipID :=
  opts.myCurrentStakes.keys.filter fun id ↦ !opts.stakeableSponsorships.has id

/-- `totalStakeableAmount`. -/
def totalStakeableAmount (opts : AdjustStakesOptions SponsorshipID) : ℤ :=
  opts.myCurrentStakes.values.sum + opts.myUnstakedAmount - opts.undelegationQueueAmount

/-- The count of `getSelectedSponsorships`. A quotient that `Number` rounds exceeds every size. -/
def selectedCount (opts : AdjustStakesOptions SponsorshipID) : Option ℤ :=
  let count : ℤ := min opts.stakeableSponsorships.entries.length opts.maxSponsorshipCount
  if 0 < opts.minStakePerSponsorship then
    (divide (totalStakeableAmount opts) opts.minStakePerSponsorship).map (min count)
  else some count

variable (operatorHash : String → SponsorshipID → ℤ)

/-- The potential sponsorships, those with the greatest payout first. The hash is the number at the
start of the digest of the operator's address and the sponsorship. -/
def sortPotential (opts : AdjustStakesOptions SponsorshipID) (ids : List SponsorshipID) :
    List SponsorshipID :=
  let key (id : SponsorshipID) : ℤ ×ₗ ℤ :=
    toLex (-(payoutPerSec opts id).getD 0, operatorHash opts.operatorContractAddress id)
  ids.insertionSort fun first second ↦ key first ≤ key second

/-- The sponsorships in the order of selection: kept ones come first. -/
def candidates (opts : AdjustStakesOptions SponsorshipID) : List SponsorshipID :=
  let ids := opts.stakeableSponsorships.keys
  ids.filter (opts.myCurrentStakes.has ·) ++
    sortPotential operatorHash opts (ids.filter (!opts.myCurrentStakes.has ·))

/-- `getSelectedSponsorships`. -/
def getSelectedSponsorships (opts : AdjustStakesOptions SponsorshipID) :
    Option (List SponsorshipID) :=
  (selectedCount opts).map fun count ↦ slice count (candidates operatorHash opts)

/-- The targets of the selected sponsorships. -/
def targetsForSelected (opts : AdjustStakesOptions SponsorshipID)
    (selectedSponsorships : List SponsorshipID) : Option (List (SponsorshipID × ℤ)) := do
  let minStakePerSponsorshipSum := selectedSponsorships.length * opts.minStakePerSponsorship
  let payoutProportionalAmount := totalStakeableAmount opts - minStakePerSponsorshipSum
  let payouts ← selectedSponsorships.mapM (payoutPerSec opts)
  selectedSponsorships.mapM fun id ↦ do
    let payout ← payoutPerSec opts id
    let share ← divide (payoutProportionalAmount * payout) payouts.sum
    pure (id, opts.minStakePerSponsorship + share)

/-- `getTargetStakes`. -/
def getTargetStakes (opts : AdjustStakesOptions SponsorshipID) :
    Option (OrderedMap SponsorshipID ℤ) := do
  let selectedSponsorships ← getSelectedSponsorships operatorHash opts
  let targets ← targetsForSelected opts selectedSponsorships
  let targetsForFullUnstake :=
    (opts.myCurrentStakes.keys.filter (· ∉ selectedSponsorships)).map (·, (0 : ℤ))
  let targetsForExpired := (getExpiredSponsorships opts).map (·, (0 : ℤ))
  pure (.fromEntries (targets ++ targetsForFullUnstake ++ targetsForExpired))

/-! ### Adjustments -/

/-- The adjustments that stake. -/
def stakings (adjustments : List (Adjustment SponsorshipID)) : List (Adjustment SponsorshipID) :=
  adjustments.filter (0 < ·.difference)

/-- The adjustments that unstake. -/
def unstakings (adjustments : List (Adjustment SponsorshipID)) : List (Adjustment SponsorshipID) :=
  adjustments.filter (·.difference < 0)

/-- `stakingSum`. -/
def stakingSum (adjustments : List (Adjustment SponsorshipID)) : ℤ :=
  ((stakings adjustments).map Adjustment.difference).sum

/-- `availableSum`. -/
def availableSum (opts : AdjustStakesOptions SponsorshipID)
    (adjustments : List (Adjustment SponsorshipID)) : ℤ :=
  |((unstakings adjustments).map Adjustment.difference).sum| + opts.myUnstakedAmount -
    opts.undelegationQueueAmount

/-- `minDiff`: the least amount that can be staked. -/
def minDiff (opts : AdjustStakesOptions SponsorshipID) (id : SponsorshipID) : ℤ :=
  max opts.minTransactionAmount
    (if opts.myCurrentStakes.has id then 0 else opts.minStakePerSponsorship)

/-- What may be taken off a staking. -/
def allowance (opts : AdjustStakesOptions SponsorshipID) (a : Adjustment SponsorshipID) : ℤ :=
  max (a.difference - minDiff opts a.sponsorshipId) 0

/-- `totalAllowance`. -/
def totalAllowance (opts : AdjustStakesOptions SponsorshipID)
    (adjustments : List (Adjustment SponsorshipID)) : ℤ :=
  ((stakings adjustments).map (allowance opts)).sum

/-- The loop that takes an excess off the stakings. -/
def reduceStakings (opts : AdjustStakesOptions SponsorshipID) :
    ℤ → List (Adjustment SponsorshipID) → List (Adjustment SponsorshipID)
  | _, [] => []
  | excess, a :: adjustments =>
    if excess ≤ 0 then a :: adjustments
    else if 0 < a.difference ∧ 0 < allowance opts a then
      let reduction := min (allowance opts a) excess
      { a with difference := a.difference - reduction } ::
        reduceStakings opts (excess - reduction) adjustments
    else a :: reduceStakings opts excess adjustments

/-- `pull` of one adjustment. -/
def pull (adjustments : List (Adjustment SponsorshipID)) (a : Adjustment SponsorshipID) :
    List (Adjustment SponsorshipID) :=
  adjustments.filter (· ≠ a)

theorem length_pull_lt {adjustments : List (Adjustment SponsorshipID)}
    {a : Adjustment SponsorshipID} (hmem : a ∈ adjustments) :
    (pull adjustments a).length < adjustments.length :=
  List.length_filter_lt_length_iff_exists.mpr ⟨a, hmem, by simp⟩

/-- `minBy` for the differences: the first of the smallest adjustments. -/
def minBy : List (Adjustment SponsorshipID) → Option (Adjustment SponsorshipID)
  | [] => none
  | a :: adjustments => some (adjustments.foldl (fun smallest other ↦
      if other.difference < smallest.difference then other else smallest) a)

omit [DecidableEq SponsorshipID] in
theorem minBy_eq_none {adjustments : List (Adjustment SponsorshipID)}
    (hnone : minBy adjustments = none) : adjustments = [] := by
  cases adjustments with
  | nil => rfl
  | cons a adjustments => cases hnone

omit [DecidableEq SponsorshipID] in
theorem minBy_mem {adjustments : List (Adjustment SponsorshipID)} {smallest : Adjustment SponsorshipID}
    (hsome : minBy adjustments = some smallest) : smallest ∈ adjustments := by
  cases adjustments with
  | nil => cases hsome
  | cons a adjustments =>
    rw [minBy, Option.some.injEq] at hsome
    subst hsome
    induction adjustments generalizing a with
    | nil => exact List.mem_cons_self
    | cons other adjustments ih =>
      rw [List.foldl_cons]
      split_ifs
      · exact List.mem_cons_of_mem a (ih other)
      · rcases List.mem_cons.mp (ih a) with hsame | hmem
        · exact List.mem_cons.mpr (Or.inl hsame)
        · exact List.mem_cons_of_mem a (List.mem_cons_of_mem other hmem)

/-- The loop that balances out any excess staking. Without a staking there is nothing to do. -/
def balanceOut (opts : AdjustStakesOptions SponsorshipID)
    (adjustments : List (Adjustment SponsorshipID)) : List (Adjustment SponsorshipID) :=
  let excess := stakingSum adjustments - availableSum opts adjustments
  if 0 < excess then
    match hmin : minBy (stakings adjustments) with
    | none => adjustments
    | some smallestStaking =>
      if totalAllowance opts adjustments < excess then
        balanceOut opts (pull adjustments smallestStaking)
      else reduceStakings opts excess adjustments
  else adjustments
termination_by adjustments.length
decreasing_by exact length_pull_lt (List.mem_of_mem_filter (minBy_mem hmin))

/-- The action of an adjustment. -/
def toAction (a : Adjustment SponsorshipID) : Action SponsorshipID where
  type := if 0 < a.difference then .stake else .unstake
  sponsorshipId := a.sponsorshipId
  amount := if 0 < a.difference then a.difference else -a.difference

/-- The place of an action type in the order of execution. -/
def ActionType.index : ActionType → ℕ
  | .unstake => 0
  | .stake => 1

/-- The actions with all unstakes first. -/
def sortActions (actions : List (Action SponsorshipID)) : List (Action SponsorshipID) :=
  actions.insertionSort fun first second ↦ first.type.index ≤ second.type.index

/-- The adjustments before the small ones are left out. -/
def allAdjustments (opts : AdjustStakesOptions SponsorshipID)
    (targetStakes : OrderedMap SponsorshipID ℤ) : List (Adjustment SponsorshipID) :=
  (targetStakes.entries.map fun entry ↦ ⟨entry.1, entry.2 - currentStake opts entry.1⟩).filter
    (·.difference ≠ 0)

/-- Whether an adjustment is too small. Those of expired sponsorships never are. -/
def tooSmall (opts : AdjustStakesOptions SponsorshipID) (a : Adjustment SponsorshipID) : Bool :=
  |a.difference| < opts.minTransactionAmount ∧ opts.stakeableSponsorships.has a.sponsorshipId

/-- `adjustStakes`. -/
def adjustStakes (opts : AdjustStakesOptions SponsorshipID) :
    Option (List (Action SponsorshipID)) := do
  let targetStakes ← getTargetStakes operatorHash opts
  let adjustments := (allAdjustments opts targetStakes).filter (!tooSmall opts ·)
  pure (sortActions ((balanceOut opts adjustments).map toAction))

/-! ### Execution -/

/-- The order in which `runActions` executes the actions. -/
def orderedActions (actions : List (Action SponsorshipID)) : List (Action SponsorshipID) :=
  actions.filter (·.type = .unstake) ++ actions.filter (·.type = .stake)

/-- The tokens of the operator after its actions, when every stake leaves what the undelegation queue
needs. -/
def execute (undelegationQueueAmount : ℤ) : ℤ → List (Action SponsorshipID) → Option ℤ
  | balance, [] => some balance
  | balance, action :: actions => match action.type with
    | .unstake => execute undelegationQueueAmount (balance + action.amount) actions
    | .stake =>
      if undelegationQueueAmount ≤ balance - action.amount then
        execute undelegationQueueAmount (balance - action.amount) actions
      else none

/-- The sum of the amounts of the actions of one type. -/
def totalOf (type : ActionType) (actions : List (Action SponsorshipID)) : ℤ :=
  ((actions.filter (·.type = type)).map Action.amount).sum

/-! ### Selected sponsorships and targets -/

variable {opts : AdjustStakesOptions SponsorshipID} {operatorHash}

omit [DecidableEq SponsorshipID] in
theorem slice_sublist (count : ℤ) (ids : List SponsorshipID) : (slice count ids).Sublist ids := by
  unfold slice
  split_ifs
  · exact List.take_sublist _ _
  · exact List.take_sublist _ _

theorem sortPotential_perm (opts : AdjustStakesOptions SponsorshipID) (ids : List SponsorshipID) :
    (sortPotential operatorHash opts ids).Perm ids :=
  List.perm_insertionSort _ _

/-- The candidates are the stakeable sponsorships in another order. -/
theorem candidates_perm (opts : AdjustStakesOptions SponsorshipID) :
    (candidates operatorHash opts).Perm opts.stakeableSponsorships.keys :=
  ((sortPotential_perm opts _).append_left _).trans (List.filter_append_perm _ _)

omit [DecidableEq SponsorshipID] in
/-- The count is always computed: the minimum stake is not divided by when it is zero. -/
theorem exists_selectedCount (opts : AdjustStakesOptions SponsorshipID) :
    ∃ count, selectedCount opts = some count := by
  unfold selectedCount divide
  dsimp only
  split_ifs with hpos hzero
  · exact absurd hzero hpos.ne'
  · exact ⟨_, rfl⟩
  · exact ⟨_, rfl⟩

/-- The selected sponsorships are different ones, and stakeable. -/
structure Selected (operatorHash : String → SponsorshipID → ℤ)
    (opts : AdjustStakesOptions SponsorshipID) (selectedSponsorships : List SponsorshipID) :
    Prop where
  selected : getSelectedSponsorships operatorHash opts = some selectedSponsorships
  nodup : selectedSponsorships.Nodup
  stakeable : ∀ id ∈ selectedSponsorships, opts.stakeableSponsorships.has id = true

theorem exists_selected (operatorHash : String → SponsorshipID → ℤ)
    (opts : AdjustStakesOptions SponsorshipID) :
    ∃ selectedSponsorships, Selected operatorHash opts selectedSponsorships := by
  obtain ⟨count, hcount⟩ := exists_selectedCount opts
  have hsub := slice_sublist count (candidates operatorHash opts)
  refine ⟨slice count (candidates operatorHash opts), ?_, ?_, fun id hmem ↦ ?_⟩
  · rw [getSelectedSponsorships, hcount, Option.map_some]
  · exact ((candidates_perm opts).nodup_iff.mpr opts.stakeableSponsorships.nodup_keys).sublist hsub
  · exact OrderedMap.has_iff_mem_keys.mpr ((candidates_perm opts).mem_iff.mp (hsub.subset hmem))

/-- The payout of a stakeable sponsorship. -/
def payoutOf (opts : AdjustStakesOptions SponsorshipID) (id : SponsorshipID) : ℤ :=
  (payoutPerSec opts id).getD 0

theorem payoutPerSec_eq {id : SponsorshipID} (hhas : opts.stakeableSponsorships.has id = true) :
    payoutPerSec opts id = some (payoutOf opts id) ∧ 0 < payoutOf opts id := by
  obtain ⟨config, hconfig⟩ := Option.isSome_iff_exists.mp hhas
  have hmem : config ∈ opts.stakeableSponsorships.values :=
    List.mem_map_of_mem (OrderedMap.get?_eq_some_iff.mp hconfig)
  unfold payoutOf payoutPerSec
  rw [hconfig]
  exact ⟨rfl, opts.payouts_pos config hmem⟩

/-- The amount that is split in proportion to the payouts. -/
def proportionalAmount (opts : AdjustStakesOptions SponsorshipID)
    (selectedSponsorships : List SponsorshipID) : ℤ :=
  totalStakeableAmount opts - selectedSponsorships.length * opts.minStakePerSponsorship

/-- The target of a sponsorship. -/
def targetOf (opts : AdjustStakesOptions SponsorshipID) (selectedSponsorships : List SponsorshipID)
    (id : SponsorshipID) : ℤ :=
  if id ∈ selectedSponsorships then
    opts.minStakePerSponsorship + (proportionalAmount opts selectedSponsorships *
      payoutOf opts id).tdiv (selectedSponsorships.map (payoutOf opts)).sum
  else 0

theorem mapM_eq_some {Item Result : Type} {function : Item → Option Result} {result : Item → Result}
    {items : List Item} (hitems : ∀ item ∈ items, function item = some (result item)) :
    items.mapM function = some (items.map result) := by
  induction items with
  | nil => rfl
  | cons item items ih =>
    rw [List.mapM_cons, hitems item List.mem_cons_self,
      ih fun other hother ↦ hitems other (List.mem_cons_of_mem item hother)]
    rfl

/-- The payouts of some selected sponsorships have a positive sum. -/
theorem Selected.sum_payouts_pos {selectedSponsorships : List SponsorshipID}
    (hselected : Selected operatorHash opts selectedSponsorships) (hne : selectedSponsorships ≠ []) :
    0 < (selectedSponsorships.map (payoutOf opts)).sum := by
  apply List.sum_pos
  · intro payout hmem
    obtain ⟨id, hid, rfl⟩ := List.mem_map.mp hmem
    exact (payoutPerSec_eq (hselected.stakeable id hid)).2
  · exact List.map_eq_nil_iff.not.mpr hne

/-- No target divides by zero. -/
theorem targetsForSelected_eq {selectedSponsorships : List SponsorshipID}
    (hselected : Selected operatorHash opts selectedSponsorships) :
    targetsForSelected opts selectedSponsorships = some (selectedSponsorships.map fun id ↦
      (id, targetOf opts selectedSponsorships id)) := by
  have hpayout (id : SponsorshipID) (hmem : id ∈ selectedSponsorships) :=
    payoutPerSec_eq (hselected.stakeable id hmem)
  unfold targetsForSelected
  rw [mapM_eq_some fun id hmem ↦ (hpayout id hmem).1, Option.bind_eq_bind, Option.bind_some]
  refine mapM_eq_some fun id hmem ↦ ?_
  have hsum := (hselected.sum_payouts_pos (List.ne_nil_of_mem hmem)).ne'
  rw [(hpayout id hmem).1, targetOf, if_pos hmem]
  simp [divide, hsum, proportionalAmount]

/-- The entries of the target stakes. -/
def targetEntries (opts : AdjustStakesOptions SponsorshipID)
    (selectedSponsorships : List SponsorshipID) : List (SponsorshipID × ℤ) :=
  (selectedSponsorships.map fun id ↦ (id, targetOf opts selectedSponsorships id)) ++
    (opts.myCurrentStakes.keys.filter (· ∉ selectedSponsorships)).map (·, (0 : ℤ)) ++
    (getExpiredSponsorships opts).map (·, (0 : ℤ))

theorem getTargetStakes_eq {selectedSponsorships : List SponsorshipID}
    (hselected : Selected operatorHash opts selectedSponsorships) :
    getTargetStakes operatorHash opts =
      some (.fromEntries (targetEntries opts selectedSponsorships)) := by
  rw [getTargetStakes, hselected.selected, Option.bind_eq_bind, Option.bind_some,
    targetsForSelected_eq hselected]
  rfl

/-- The targets are those of the selected sponsorships and of the sponsorships with a stake. -/
theorem mem_targetEntries_iff {selectedSponsorships : List SponsorshipID}
    (hselected : Selected operatorHash opts selectedSponsorships) {entry : SponsorshipID × ℤ} :
    entry ∈ targetEntries opts selectedSponsorships ↔
      (entry.1 ∈ selectedSponsorships ∨ entry.1 ∈ opts.myCurrentStakes.keys) ∧
      entry.2 = targetOf opts selectedSponsorships entry.1 := by
  obtain ⟨id, target⟩ := entry
  have hexpired : id ∈ getExpiredSponsorships opts →
      id ∈ opts.myCurrentStakes.keys ∧ id ∉ selectedSponsorships := by
    intro hmem
    obtain ⟨hkey, hnot⟩ := List.mem_filter.mp hmem
    refine ⟨hkey, fun hin ↦ ?_⟩
    rw [hselected.stakeable id hin] at hnot
    cases hnot
  simp only [targetEntries, List.mem_append, List.mem_map, Prod.mk.injEq, List.mem_filter,
    decide_eq_true_iff]
  by_cases hin : id ∈ selectedSponsorships
  · constructor
    · rintro ((⟨other, hmem, rfl, rfl⟩ | ⟨other, ⟨-, hnot⟩, rfl, -⟩) | ⟨other, hmem, rfl, -⟩)
      · exact ⟨Or.inl hmem, rfl⟩
      · exact absurd hin hnot
      · exact absurd hin (hexpired hmem).2
    · rintro ⟨-, rfl⟩
      exact Or.inl (Or.inl ⟨id, hin, rfl, rfl⟩)
  · have hzero : targetOf opts selectedSponsorships id = 0 := if_neg hin
    rw [hzero]
    constructor
    · rintro ((⟨other, hmem, rfl, rfl⟩ | ⟨other, ⟨hkey, -⟩, rfl, rfl⟩) | ⟨other, hmem, rfl, rfl⟩)
      · exact absurd hmem hin
      · exact ⟨Or.inr hkey, rfl⟩
      · exact ⟨Or.inr (hexpired hmem).1, rfl⟩
    · rintro ⟨hor, rfl⟩
      exact Or.inl (Or.inr ⟨id, ⟨hor.resolve_left hin, hin⟩, rfl, rfl⟩)

/-! ### The loop -/

omit [DecidableEq SponsorshipID] in
theorem stakingSum_cons (a : Adjustment SponsorshipID) (adjustments : List (Adjustment SponsorshipID)) :
    stakingSum (a :: adjustments) = max a.difference 0 + stakingSum adjustments := by
  unfold stakingSum stakings
  by_cases hpos : 0 < a.difference
  · rw [List.filter_cons_of_pos (by simpa using hpos), List.map_cons, List.sum_cons,
      max_eq_left hpos.le]
  · rw [List.filter_cons_of_neg (by simpa using hpos), max_eq_right (not_lt.mp hpos), zero_add]

omit [DecidableEq SponsorshipID] in
/-- What the unstakings bring. -/
theorem abs_sum_unstakings (adjustments : List (Adjustment SponsorshipID)) :
    |((unstakings adjustments).map Adjustment.difference).sum| =
      (adjustments.map fun a ↦ max (-a.difference) 0).sum := by
  have hnonpos : ((unstakings adjustments).map Adjustment.difference).sum ≤ 0 ∧
      -((unstakings adjustments).map Adjustment.difference).sum =
        (adjustments.map fun a ↦ max (-a.difference) 0).sum := by
    induction adjustments with
    | nil => exact ⟨le_refl _, rfl⟩
    | cons a adjustments ih =>
      unfold unstakings at ih ⊢
      by_cases hneg : a.difference < 0
      · rw [List.filter_cons_of_pos (by simpa using hneg), List.map_cons, List.map_cons,
          List.sum_cons, List.sum_cons, max_eq_left (by omega)]
        omega
      · rw [List.filter_cons_of_neg (by simpa using hneg), List.map_cons, List.sum_cons,
          max_eq_right (by omega)]
        omega
  rw [abs_of_nonpos hnonpos.1, hnonpos.2]

theorem minDiff_nonneg (opts : AdjustStakesOptions SponsorshipID) (id : SponsorshipID) :
    0 ≤ minDiff opts id :=
  le_max_of_le_left opts.minTransaction_nonneg

theorem allowance_nonneg (opts : AdjustStakesOptions SponsorshipID)
    (a : Adjustment SponsorshipID) : 0 ≤ allowance opts a :=
  le_max_right _ _

theorem totalAllowance_nonneg (opts : AdjustStakesOptions SponsorshipID)
    (adjustments : List (Adjustment SponsorshipID)) : 0 ≤ totalAllowance opts adjustments := by
  apply List.sum_nonneg
  intro amount hmem
  obtain ⟨a, -, rfl⟩ := List.mem_map.mp hmem
  exact allowance_nonneg opts a

theorem totalAllowance_cons_of_pos {a : Adjustment SponsorshipID}
    (adjustments : List (Adjustment SponsorshipID)) (hpos : 0 < a.difference) :
    totalAllowance opts (a :: adjustments) = allowance opts a + totalAllowance opts adjustments := by
  unfold totalAllowance stakings
  rw [List.filter_cons_of_pos (by simpa using hpos), List.map_cons, List.sum_cons]

/-- An adjustment from which nothing can be taken off does not count. -/
theorem totalAllowance_cons_of_not {a : Adjustment SponsorshipID}
    (adjustments : List (Adjustment SponsorshipID))
    (hnot : ¬(0 < a.difference ∧ 0 < allowance opts a)) :
    totalAllowance opts (a :: adjustments) = totalAllowance opts adjustments := by
  by_cases hpos : 0 < a.difference
  · have hzero : allowance opts a = 0 :=
      le_antisymm (not_lt.mp fun hallowance ↦ hnot ⟨hpos, hallowance⟩) (allowance_nonneg opts a)
    rw [totalAllowance_cons_of_pos adjustments hpos, hzero, zero_add]
  · unfold totalAllowance stakings
    rw [List.filter_cons_of_neg (by simpa using hpos)]

/-- An adjustment after something was taken off: not more than what is allowed. -/
def Reduced (opts : AdjustStakesOptions SponsorshipID) (before after : Adjustment SponsorshipID) :
    Prop :=
  after = before ∨ (after.sponsorshipId = before.sponsorshipId ∧ 0 < before.difference ∧
    minDiff opts before.sponsorshipId ≤ after.difference ∧ after.difference ≤ before.difference)

/-- What is left when something is taken off within the allowance. -/
theorem Reduced.take_off {a : Adjustment SponsorshipID} {reduction : ℤ} (hpos : 0 < a.difference)
    (hallowance : 0 < allowance opts a) (hnonneg : 0 ≤ reduction)
    (hle : reduction ≤ allowance opts a) :
    Reduced opts a { a with difference := a.difference - reduction } := by
  have hallowance : allowance opts a = a.difference - minDiff opts a.sponsorshipId := by
    unfold allowance at hallowance ⊢
    exact max_eq_left ((lt_max_iff.mp hallowance).resolve_right (lt_irrefl _)).le
  refine Or.inr ⟨rfl, hpos, ?_, ?_⟩
  · show _ ≤ a.difference - reduction
    linarith
  · exact Int.sub_le_self _ hnonneg

theorem Reduced.difference_nonneg {before after : Adjustment SponsorshipID}
    (hreduced : Reduced opts before after) (hnonneg : 0 ≤ before.difference) :
    0 ≤ after.difference := by
  rcases hreduced with rfl | ⟨-, -, hmin, -⟩
  · exact hnonneg
  · exact (minDiff_nonneg opts before.sponsorshipId).trans hmin

/-- The loop takes something off some stakings. -/
theorem forall₂_reduceStakings (excess : ℤ) (adjustments : List (Adjustment SponsorshipID)) :
    List.Forall₂ (Reduced opts) adjustments (reduceStakings opts excess adjustments) := by
  induction adjustments generalizing excess with
  | nil => exact .nil
  | cons a adjustments ih =>
    unfold reduceStakings
    split_ifs with hexcess hreduced
    · exact List.forall₂_same.mpr fun _ _ ↦ Or.inl rfl
    · have hnonneg := le_min hreduced.2.le (not_le.mp hexcess).le
      exact .cons (.take_off hreduced.1 hreduced.2 hnonneg (min_le_left _ _)) (ih _)
    · exact .cons (Or.inl rfl) (ih _)

/-- An excess within the allowances is taken off in full. -/
theorem stakingSum_reduceStakings {excess : ℤ} {adjustments : List (Adjustment SponsorshipID)}
    (hexcess : 0 ≤ excess) (hle : excess ≤ totalAllowance opts adjustments) :
    stakingSum (reduceStakings opts excess adjustments) = stakingSum adjustments - excess := by
  induction adjustments generalizing excess with
  | nil =>
    have hzero : excess = 0 := le_antisymm hle hexcess
    rw [hzero, sub_zero]
    rfl
  | cons a adjustments ih =>
    unfold reduceStakings
    split_ifs with hdone hreduced
    · rw [le_antisymm hdone hexcess, sub_zero]
    · have hnonneg := le_min hreduced.2.le hexcess
      have hkept : 0 ≤ a.difference - min (allowance opts a) excess :=
        (Reduced.take_off hreduced.1 hreduced.2 hnonneg (min_le_left _ _)).difference_nonneg
          hreduced.1.le
      have hrest : excess - min (allowance opts a) excess ≤ totalAllowance opts adjustments := by
        rw [totalAllowance_cons_of_pos adjustments hreduced.1] at hle
        have hallowances := totalAllowance_nonneg opts adjustments
        omega
      rw [stakingSum_cons, stakingSum_cons, ih (sub_nonneg.mpr (min_le_right _ _)) hrest,
        max_eq_left hkept, max_eq_left hreduced.1.le]
      ring
    · rw [totalAllowance_cons_of_not adjustments hreduced] at hle
      rw [stakingSum_cons, stakingSum_cons, ih hexcess hle, add_sub_assoc]

/-- What the unstakings bring stays the same when stakings are reduced. -/
theorem availableSum_of_reduced {before after : List (Adjustment SponsorshipID)}
    (hreduced : List.Forall₂ (Reduced opts) before after) :
    availableSum opts after = availableSum opts before := by
  unfold availableSum
  rw [abs_sum_unstakings, abs_sum_unstakings]
  suffices after.map (fun a ↦ max (-a.difference) 0) = before.map fun a ↦ max (-a.difference) 0 by
    rw [this]
  induction hreduced with
  | nil => rfl
  | @cons a b before after hhead _ ih =>
    rw [List.map_cons, List.map_cons, ih]
    rcases hhead with rfl | ⟨-, hpos, hmin, -⟩
    · rfl
    · have hnonneg := (minDiff_nonneg opts a.sponsorshipId).trans hmin
      rw [max_eq_right (by omega), max_eq_right (by omega)]

/-- What the loop does: it leaves out some stakings, and then takes something off the others when they
are not covered. -/
structure Balanced (opts : AdjustStakesOptions SponsorshipID)
    (adjustments kept balanced : List (Adjustment SponsorshipID)) : Prop where
  sublist : kept.Sublist adjustments
  unstakings_kept : ∀ a ∈ adjustments, a.difference ≤ 0 → a ∈ kept
  reduced : List.Forall₂ (Reduced opts) kept balanced
  covered : stakings balanced = [] ∨ stakingSum balanced ≤ availableSum opts balanced

/-- Leaving out one staking. -/
theorem Balanced.of_pull {adjustments kept balanced : List (Adjustment SponsorshipID)}
    {smallestStaking : Adjustment SponsorshipID} (hpos : 0 < smallestStaking.difference)
    (hbalanced : Balanced opts (pull adjustments smallestStaking) kept balanced) :
    Balanced opts adjustments kept balanced where
  sublist := hbalanced.sublist.trans List.filter_sublist
  unstakings_kept := fun a hmem hnonpos ↦ hbalanced.unstakings_kept a
    (List.mem_filter.mpr ⟨hmem, decide_eq_true fun hsame ↦ not_le.mpr hpos (hsame ▸ hnonpos)⟩)
    hnonpos
  reduced := hbalanced.reduced
  covered := hbalanced.covered

theorem Balanced.of_covered {adjustments : List (Adjustment SponsorshipID)}
    (hcovered : stakings adjustments = [] ∨
      stakingSum adjustments ≤ availableSum opts adjustments) :
    Balanced opts adjustments adjustments adjustments where
  sublist := List.Sublist.refl _
  unstakings_kept := fun _ hmem _ ↦ hmem
  reduced := List.forall₂_same.mpr fun _ _ ↦ Or.inl rfl
  covered := hcovered

/-- An excess within the allowances is taken off, so that all that is available is staked. -/
theorem stakingSum_reduced {adjustments : List (Adjustment SponsorshipID)}
    (hexcess : 0 ≤ stakingSum adjustments - availableSum opts adjustments)
    (hle : stakingSum adjustments - availableSum opts adjustments ≤
      totalAllowance opts adjustments) :
    stakingSum (reduceStakings opts (stakingSum adjustments - availableSum opts adjustments)
      adjustments) = availableSum opts adjustments :=
  (stakingSum_reduceStakings hexcess hle).trans (sub_sub_cancel _ _)

theorem Balanced.of_reduced {adjustments : List (Adjustment SponsorshipID)}
    (hexcess : 0 ≤ stakingSum adjustments - availableSum opts adjustments)
    (hle : stakingSum adjustments - availableSum opts adjustments ≤
      totalAllowance opts adjustments) :
    Balanced opts adjustments adjustments (reduceStakings opts
      (stakingSum adjustments - availableSum opts adjustments) adjustments) where
  sublist := List.Sublist.refl _
  unstakings_kept := fun _ hmem _ ↦ hmem
  reduced := forall₂_reduceStakings _ _
  covered := by
    rw [availableSum_of_reduced (forall₂_reduceStakings _ _)]
    exact Or.inr (stakingSum_reduced hexcess hle).le

/-- The loop balances the adjustments. -/
theorem exists_balanced (opts : AdjustStakesOptions SponsorshipID)
    (adjustments : List (Adjustment SponsorshipID)) :
    ∃ kept, Balanced opts adjustments kept (balanceOut opts adjustments) := by
  fun_induction balanceOut opts adjustments with
  | case1 adjustments excess hexcess hmin =>
    exact ⟨adjustments, .of_covered (Or.inl (minBy_eq_none hmin))⟩
  | case2 adjustments excess hexcess smallestStaking hmin hallowance ih =>
    obtain ⟨kept, hbalanced⟩ := ih
    have hpos := (List.mem_filter.mp (minBy_mem hmin)).2
    exact ⟨kept, hbalanced.of_pull (of_decide_eq_true hpos)⟩
  | case3 adjustments excess hexcess smallestStaking hmin hallowance =>
    exact ⟨adjustments, .of_reduced hexcess.le (not_lt.mp hallowance)⟩
  | case4 adjustments excess hexcess =>
    exact ⟨adjustments, .of_covered (Or.inr (sub_nonpos.mp (not_lt.mp hexcess)))⟩

/-- Adjustments that are covered stay as they are. -/
theorem balanceOut_of_covered {adjustments : List (Adjustment SponsorshipID)}
    (hcovered : stakingSum adjustments ≤ availableSum opts adjustments) :
    balanceOut opts adjustments = adjustments := by
  rw [balanceOut]
  exact if_neg (not_lt.mpr (sub_nonpos.mpr hcovered))

/-! ### Actions -/

omit [DecidableEq SponsorshipID] in
theorem totalOf_cons (type : ActionType) (action : Action SponsorshipID)
    (actions : List (Action SponsorshipID)) : totalOf type (action :: actions) =
      (if action.type = type then action.amount else 0) + totalOf type actions := by
  unfold totalOf
  split_ifs with htype
  · rw [List.filter_cons_of_pos (by simpa using htype), List.map_cons, List.sum_cons]
  · rw [List.filter_cons_of_neg (by simpa using htype), zero_add]

omit [DecidableEq SponsorshipID] in
theorem totalOf_perm (type : ActionType) {actions others : List (Action SponsorshipID)}
    (hperm : actions.Perm others) : totalOf type actions = totalOf type others :=
  ((hperm.filter _).map _).sum_eq

omit [DecidableEq SponsorshipID] in
theorem totalOf_stake (adjustments : List (Adjustment SponsorshipID)) :
    totalOf .stake (adjustments.map toAction) = stakingSum adjustments := by
  induction adjustments with
  | nil => rfl
  | cons a adjustments ih =>
    rw [List.map_cons, totalOf_cons, stakingSum_cons, ih]
    by_cases hpos : 0 < a.difference
    · simp [toAction, hpos, hpos.le]
    · simp [toAction, hpos, not_lt.mp hpos]

omit [DecidableEq SponsorshipID] in
theorem totalOf_unstake (adjustments : List (Adjustment SponsorshipID)) :
    totalOf .unstake (adjustments.map toAction) =
      |((unstakings adjustments).map Adjustment.difference).sum| := by
  rw [abs_sum_unstakings]
  induction adjustments with
  | nil => rfl
  | cons a adjustments ih =>
    rw [List.map_cons, totalOf_cons, List.map_cons, List.sum_cons, ih]
    by_cases hpos : 0 < a.difference
    · simp [toAction, hpos, hpos.le]
    · simp [toAction, hpos, not_lt.mp hpos]

omit [DecidableEq SponsorshipID] in
theorem execute_append (queue balance : ℤ) (first second : List (Action SponsorshipID)) :
    execute queue balance (first ++ second) =
      (execute queue balance first).bind fun rest ↦ execute queue rest second := by
  induction first generalizing balance with
  | nil => rfl
  | cons action first ih =>
    rw [List.cons_append, execute, execute]
    cases action.type with
    | unstake => exact ih _
    | stake =>
      dsimp only
      split_ifs
      · exact ih _
      · rfl

omit [DecidableEq SponsorshipID] in
theorem execute_unstakes (queue balance : ℤ) {actions : List (Action SponsorshipID)}
    (htype : ∀ action ∈ actions, action.type = .unstake) :
    execute queue balance actions = some (balance + (actions.map Action.amount).sum) := by
  induction actions generalizing balance with
  | nil => exact congrArg some (add_zero balance).symm
  | cons action actions ih =>
    rw [execute, htype action List.mem_cons_self, List.map_cons, List.sum_cons, ← add_assoc]
    exact ih _ fun other hother ↦ htype other (List.mem_cons_of_mem action hother)

omit [DecidableEq SponsorshipID] in
/-- Stakes that are covered together are covered one after the other. -/
theorem execute_stakes {queue balance : ℤ} {actions : List (Action SponsorshipID)}
    (htype : ∀ action ∈ actions, action.type = .stake) (hpos : ∀ action ∈ actions, 0 ≤ action.amount)
    (hcovered : queue ≤ balance - (actions.map Action.amount).sum) :
    execute queue balance actions = some (balance - (actions.map Action.amount).sum) := by
  induction actions generalizing balance with
  | nil => exact congrArg some (sub_zero balance).symm
  | cons action actions ih =>
    have hpos' := fun other hother ↦ hpos other (List.mem_cons_of_mem action hother)
    have hrest : 0 ≤ (actions.map Action.amount).sum :=
      List.sum_nonneg (List.forall_mem_map.mpr hpos')
    rw [List.map_cons, List.sum_cons] at hcovered ⊢
    rw [execute, htype action List.mem_cons_self]
    dsimp only
    rw [if_pos (by linarith), ← sub_sub]
    exact ih (fun other hother ↦ htype other (List.mem_cons_of_mem action hother)) hpos'
      (by linarith)

omit [DecidableEq SponsorshipID] in
theorem sortActions_perm (actions : List (Action SponsorshipID)) :
    (sortActions actions).Perm actions :=
  List.perm_insertionSort _ _

omit [DecidableEq SponsorshipID] in
theorem sortActions_sorted (actions : List (Action SponsorshipID)) :
    (sortActions actions).Pairwise fun first second ↦ first.type.index ≤ second.type.index := by
  let order (first second : Action SponsorshipID) : Prop := first.type.index ≤ second.type.index
  have : Std.Total order := ⟨fun first second ↦ le_total first.type.index second.type.index⟩
  have : IsTrans (Action SponsorshipID) order := ⟨fun _ _ _ ↦ le_trans⟩
  exact List.pairwise_insertionSort order actions

omit [DecidableEq SponsorshipID] in
theorem stake_of_index_le {first second : Action SponsorshipID}
    (hle : first.type.index ≤ second.type.index) (hstake : first.type = .stake) :
    second.type = .stake := by
  cases hsecond : second.type with
  | stake => rfl
  | unstake =>
    rw [hstake, hsecond] at hle
    exact absurd hle (by decide)

omit [DecidableEq SponsorshipID] in
/-- The order of execution is the order of the actions. -/
theorem orderedActions_eq {actions : List (Action SponsorshipID)}
    (hsorted : actions.Pairwise fun first second ↦ first.type.index ≤ second.type.index) :
    orderedActions actions = actions := by
  induction actions with
  | nil => rfl
  | cons action actions ih =>
    rw [List.pairwise_cons] at hsorted
    cases htype : action.type with
    | unstake =>
      have hrest := ih hsorted.2
      unfold orderedActions at hrest ⊢
      rw [List.filter_cons_of_pos (by simp [htype]), List.filter_cons_of_neg (by simp [htype]),
        List.cons_append, hrest]
    | stake =>
      have hall : ∀ other ∈ action :: actions, other.type = .stake := by
        refine List.forall_mem_cons.mpr ⟨htype, fun other hother ↦ ?_⟩
        exact stake_of_index_le (hsorted.1 other hother) htype
      unfold orderedActions
      rw [List.filter_eq_nil_iff.mpr fun other hother ↦ by simp [hall other hother],
        List.filter_eq_self.mpr fun other hother ↦ decide_eq_true (hall other hother),
        List.nil_append]

omit [DecidableEq SponsorshipID] in
/-- Unstakes and then stakes that are covered can be executed one after the other. -/
theorem execute_orderedActions {queue balance : ℤ} {actions : List (Action SponsorshipID)}
    (hnonneg : ∀ action ∈ actions, 0 ≤ action.amount)
    (hcovered : (∃ action ∈ actions, action.type = .stake) →
      totalOf .stake actions ≤ balance + totalOf .unstake actions - queue) :
    execute queue balance (orderedActions actions) =
      some (balance + totalOf .unstake actions - totalOf .stake actions) := by
  have htype (type : ActionType) (action : Action SponsorshipID)
      (hmem : action ∈ actions.filter (·.type = type)) : action ∈ actions ∧ action.type = type :=
    (List.mem_filter.mp hmem).imp_right of_decide_eq_true
  rw [orderedActions, execute_append, execute_unstakes queue balance fun action hmem ↦
    (htype .unstake action hmem).2, Option.bind_some]
  by_cases hnone : actions.filter (·.type = .stake) = []
  · have hzero : totalOf .stake actions = 0 := by
      rw [totalOf, hnone]
      rfl
    rw [hnone, hzero, sub_zero]
    rfl
  · obtain ⟨action, hmem⟩ := List.exists_mem_of_ne_nil _ hnone
    have hsum := hcovered ⟨action, htype .stake action hmem⟩
    apply execute_stakes
    · exact fun other hother ↦ (htype .stake other hother).2
    · exact fun other hother ↦ hnonneg other (htype .stake other hother).1
    · show queue ≤ balance + totalOf .unstake actions - totalOf .stake actions
      linarith

/-! ### Affordability -/

/-- The adjustments that go into the loop. -/
def adjustmentsOf (opts : AdjustStakesOptions SponsorshipID)
    (selectedSponsorships : List SponsorshipID) : List (Adjustment SponsorshipID) :=
  (allAdjustments opts (.fromEntries (targetEntries opts selectedSponsorships))).filter
    (!tooSmall opts ·)

theorem adjustStakes_eq {selectedSponsorships : List SponsorshipID}
    (hselected : Selected operatorHash opts selectedSponsorships) :
    adjustStakes operatorHash opts = some (sortActions
      ((balanceOut opts (adjustmentsOf opts selectedSponsorships)).map toAction)) := by
  rw [adjustStakes, getTargetStakes_eq hselected]
  rfl

omit [DecidableEq SponsorshipID] in
theorem amount_toAction_nonneg (a : Adjustment SponsorshipID) : 0 ≤ (toAction a).amount := by
  show 0 ≤ if 0 < a.difference then a.difference else -a.difference
  split_ifs with hpos
  · exact hpos.le
  · exact neg_nonneg.mpr (not_lt.mp hpos)

/-- `adjustStakes` returns actions, the unstakes first. When there is a stake, the stakes are at most
what is unstaked before and after the unstakes, less the undelegation queue; so the actions can be
executed one after the other, and every stake leaves what the queue needs. -/
theorem adjustStakes_affordable (operatorHash : String → SponsorshipID → ℤ)
    (opts : AdjustStakesOptions SponsorshipID) :
    ∃ actions, adjustStakes operatorHash opts = some actions ∧
      (actions.Pairwise fun first second ↦ first.type = .stake → second.type = .stake) ∧
      ((∃ action ∈ actions, action.type = .stake) → totalOf .stake actions ≤
        opts.myUnstakedAmount + totalOf .unstake actions - opts.undelegationQueueAmount) ∧
      orderedActions actions = actions ∧
      execute opts.undelegationQueueAmount opts.myUnstakedAmount actions =
        some (opts.myUnstakedAmount + totalOf .unstake actions - totalOf .stake actions) := by
  obtain ⟨selectedSponsorships, hselected⟩ := exists_selected operatorHash opts
  obtain ⟨kept, hbalanced⟩ := exists_balanced opts (adjustmentsOf opts selectedSponsorships)
  let balanced := balanceOut opts (adjustmentsOf opts selectedSponsorships)
  have hperm := sortActions_perm (balanced.map toAction)
  have hsorted := sortActions_sorted (balanced.map toAction)
  have hcovered : (∃ action ∈ sortActions (balanced.map toAction), action.type = .stake) →
      totalOf .stake (sortActions (balanced.map toAction)) ≤ opts.myUnstakedAmount +
        totalOf .unstake (sortActions (balanced.map toAction)) - opts.undelegationQueueAmount := by
    rintro ⟨action, hmem, htype⟩
    obtain ⟨a, ha, rfl⟩ := List.mem_map.mp (hperm.mem_iff.mp hmem)
    have hpos : 0 < a.difference := by
      by_contra hnot
      simp [toAction, hnot] at htype
    have hstaking : a ∈ stakings balanced := List.mem_filter.mpr ⟨ha, decide_eq_true hpos⟩
    have hsum := hbalanced.covered.resolve_left (List.ne_nil_of_mem hstaking)
    rw [totalOf_perm _ hperm, totalOf_perm _ hperm, totalOf_stake, totalOf_unstake]
    unfold availableSum at hsum
    linarith
  refine ⟨_, adjustStakes_eq hselected, hsorted.imp stake_of_index_le, hcovered,
    orderedActions_eq hsorted, ?_⟩
  have hexecute := execute_orderedActions (fun action hmem ↦ ?_) hcovered
  · rwa [orderedActions_eq hsorted] at hexecute
  · obtain ⟨a, -, rfl⟩ := List.mem_map.mp (hperm.mem_iff.mp hmem)
    exact amount_toAction_nonneg a

end PomboStorageNode.Autostaker
