import PomboStorageNode.Library.Binary64
import PomboStorageNode.Library.GreatestValues
import Mathlib.Data.List.Sort
import Mathlib.Data.Rat.Defs

/-!
# The earnings of an operator

`getEarnings` of `Operator.ts` takes sponsorships in which an operator has earned enough,
at most `maxSponsorshipsInWithdraw` of them, and adds up the earnings. `maintainOperatorValue.ts`
withdraws from them when the sum is above a fraction of what is allowed, and
`checkOperatorValueBreach.ts` when another operator has more than is allowed.

The sponsorships are sorted by ascending earnings before the list is cut, so that those that are
left out have the most earnings and not the least ones. `selectsMost_getEarnings_iff` says when this
does not matter.
-/

set_option autoImplicit false

namespace PomboStorageNode.Operator.Earnings

open Library

variable {ContractAddress EthereumAddress : Type}

/-! ### The sponsorships -/

/-- A sponsorship, with the uncollected earnings of the operator in it. -/
structure Sponsorship (ContractAddress : Type) where
  address : ContractAddress
  earnings : ℤ

/-- What `getSponsorshipsAndEarnings` of the contract returns. -/
structure SponsorshipsAndEarnings (ContractAddress : Type) where
  addresses : List ContractAddress
  earnings : List ℤ
  maxAllowedEarnings : ℤ
  length_eq : addresses.length = earnings.length

/-- `EarningsData`. -/
structure EarningsData (EthereumAddress : Type) where
  sponsorshipAddresses : List EthereumAddress
  sum : ℤ
  maxAllowedEarnings : ℤ

/-- `compareBigInts`. -/
def compareBigInts (a b : ℤ) : ℤ := if a < b then -1 else if b < a then 1 else 0

/-- The sponsorships that have earned enough. -/
def admissible (response : SponsorshipsAndEarnings ContractAddress)
    (minSponsorshipEarningsInWithdraw : ℤ) : List (Sponsorship ContractAddress) :=
  (List.zipWith Sponsorship.mk response.addresses response.earnings).filter fun sponsorship ↦
    minSponsorshipEarningsInWithdraw ≤ sponsorship.earnings

/-- The sponsorships that have earned enough, sorted. -/
def sorted (response : SponsorshipsAndEarnings ContractAddress)
    (minSponsorshipEarningsInWithdraw : ℤ) : List (Sponsorship ContractAddress) :=
  (admissible response minSponsorshipEarningsInWithdraw).insertionSort fun a b ↦
    compareBigInts a.earnings b.earnings ≤ 0

/-- `getEarnings`, with the conversion of the addresses of the contract. -/
def getEarnings (toEthereumAddress : ContractAddress → EthereumAddress)
    (response : SponsorshipsAndEarnings ContractAddress) (minSponsorshipEarningsInWithdraw : ℤ)
    (maxSponsorshipsInWithdraw : ℕ) : EarningsData EthereumAddress :=
  let sponsorships :=
    (sorted response minSponsorshipEarningsInWithdraw).take maxSponsorshipsInWithdraw
  { sponsorshipAddresses := sponsorships.map fun sponsorship ↦
      toEthereumAddress sponsorship.address
    sum := sponsorships.foldl (fun sum sponsorship ↦ sum + sponsorship.earnings) 0
    maxAllowedEarnings := response.maxAllowedEarnings }

/-! ### The callers -/

/-- What a caller does: it withdraws from some sponsorships, or does not, or throws. -/
inductive Outcome (EthereumAddress : Type)
  | withdrawn (sponsorshipAddresses : List EthereumAddress)
  | skipped
  | threw
  deriving DecidableEq

/-- `PRECISION`. -/
def PRECISION : ℤ := 10 ^ 18

/-- `multiplyWeiAmount`, where `BigInt` throws when its argument is not an integer. -/
def multiplyWeiAmount (val1 : ℤ) (val2 : ℚ) : Option ℤ :=
  let scaled := Binary64.round (PRECISION * val2)
  if scaled.den = 1 then some ((val1 * scaled.num).tdiv PRECISION) else none

/-- `triggerWithdrawLimit` of `maintainOperatorValue`. -/
def triggerWithdrawLimit (withdrawLimitSafetyFraction : ℚ) (maxAllowedEarnings : ℤ) : Option ℤ :=
  multiplyWeiAmount maxAllowedEarnings (Binary64.round (1 - withdrawLimitSafetyFraction))

variable (toEthereumAddress : ContractAddress → EthereumAddress)

/-- `maintainOperatorValue`. -/
def maintainOperatorValue (withdrawLimitSafetyFraction : ℚ)
    (minSponsorshipEarningsInWithdraw : ℤ) (maxSponsorshipsInWithdraw : ℕ)
    (response : SponsorshipsAndEarnings ContractAddress) : Outcome EthereumAddress :=
  let data := getEarnings toEthereumAddress response minSponsorshipEarningsInWithdraw
    maxSponsorshipsInWithdraw
  match triggerWithdrawLimit withdrawLimitSafetyFraction data.maxAllowedEarnings with
  | none => .threw
  | some limit => if limit < data.sum then .withdrawn data.sponsorshipAddresses else .skipped

/-- `checkOperatorValueBreach`, from the target on. -/
def checkOperatorValueBreach (minSponsorshipEarningsInWithdraw : ℤ)
    (maxSponsorshipsInWithdraw : ℕ) (response : SponsorshipsAndEarnings ContractAddress) :
    Outcome EthereumAddress :=
  let data := getEarnings toEthereumAddress response minSponsorshipEarningsInWithdraw
    maxSponsorshipsInWithdraw
  if data.maxAllowedEarnings < data.sum then .withdrawn data.sponsorshipAddresses else .skipped

/-! ### The selection -/

/-- The earnings of sponsorships. -/
def amounts (sponsorships : List (Sponsorship ContractAddress)) : List ℤ :=
  sponsorships.map Sponsorship.earnings

/-- The sponsorships with the most earnings: they have earned enough, they are not too many, none
that has earned enough and is left out has more than one of them, and the sum is theirs. -/
def SelectsMost (response : SponsorshipsAndEarnings ContractAddress)
    (minSponsorshipEarningsInWithdraw : ℤ) (maxSponsorshipsInWithdraw : ℕ)
    (data : EarningsData EthereumAddress) : Prop :=
  ∃ taken left : List (Sponsorship ContractAddress),
    (taken ++ left).Perm (admissible response minSponsorshipEarningsInWithdraw) ∧
    taken.length ≤ maxSponsorshipsInWithdraw ∧
    (∀ out ∈ left, ∀ sponsorship ∈ taken, out.earnings ≤ sponsorship.earnings) ∧
    data.sponsorshipAddresses = taken.map (fun sponsorship ↦
      toEthereumAddress sponsorship.address) ∧
    data.sum = (amounts taken).sum

/-- A caller withdraws whenever some sponsorships that have earned enough, as many as were selected,
are together above a limit. -/
def WithdrawsAbove (limit : ℤ) (response : SponsorshipsAndEarnings ContractAddress)
    (minSponsorshipEarningsInWithdraw : ℤ) (data : EarningsData EthereumAddress)
    (outcome : Outcome EthereumAddress) : Prop :=
  ∀ sponsorships : List (Sponsorship ContractAddress),
    sponsorships.Subperm (admissible response minSponsorshipEarningsInWithdraw) →
    sponsorships.length = data.sponsorshipAddresses.length →
    limit < (amounts sponsorships).sum → outcome = .withdrawn data.sponsorshipAddresses

/-- The sponsorships that have earned enough are not too many, or have all earned the same. -/
def NothingToChoose (response : SponsorshipsAndEarnings ContractAddress)
    (minSponsorshipEarningsInWithdraw : ℤ) (maxSponsorshipsInWithdraw : ℕ) : Prop :=
  (admissible response minSponsorshipEarningsInWithdraw).length ≤ maxSponsorshipsInWithdraw ∨
    ∀ first ∈ admissible response minSponsorshipEarningsInWithdraw,
      ∀ second ∈ admissible response minSponsorshipEarningsInWithdraw,
        first.earnings = second.earnings

/-! ### What is selected -/

theorem compareBigInts_nonpos_iff {a b : ℤ} : compareBigInts a b ≤ 0 ↔ a ≤ b := by
  unfold compareBigInts
  split_ifs <;> omega

section Selected

variable (response : SponsorshipsAndEarnings ContractAddress)
  (minSponsorshipEarningsInWithdraw : ℤ) (maxSponsorshipsInWithdraw : ℕ)

theorem sorted_perm : (sorted response minSponsorshipEarningsInWithdraw).Perm
    (admissible response minSponsorshipEarningsInWithdraw) :=
  List.perm_insertionSort _ _

theorem pairwise_sorted : (sorted response minSponsorshipEarningsInWithdraw).Pairwise
    fun first second ↦ first.earnings ≤ second.earnings := by
  have htotal : Std.Total fun a b : Sponsorship ContractAddress ↦
      compareBigInts a.earnings b.earnings ≤ 0 :=
    ⟨fun a b ↦ by
      rw [compareBigInts_nonpos_iff, compareBigInts_nonpos_iff]
      exact le_total a.earnings b.earnings⟩
  have htrans : IsTrans (Sponsorship ContractAddress) fun a b ↦
      compareBigInts a.earnings b.earnings ≤ 0 :=
    ⟨fun a b c ↦ by
      rw [compareBigInts_nonpos_iff, compareBigInts_nonpos_iff, compareBigInts_nonpos_iff]
      exact le_trans⟩
  exact (List.pairwise_insertionSort _ _).imp compareBigInts_nonpos_iff.mp

/-- The sponsorships that are taken are the lower part. -/
theorem isCut_sorted : IsCut (amounts (admissible response minSponsorshipEarningsInWithdraw))
    (amounts ((sorted response minSponsorshipEarningsInWithdraw).drop maxSponsorshipsInWithdraw))
    (amounts
      ((sorted response minSponsorshipEarningsInWithdraw).take maxSponsorshipsInWithdraw)) := by
  refine ⟨?_, ?_⟩
  · refine List.perm_append_comm.trans ?_
    rw [amounts, amounts, ← List.map_append, List.take_append_drop]
    exact (sorted_perm response minSponsorshipEarningsInWithdraw).map _
  · intro low hlow high hhigh
    obtain ⟨taken, htaken, rfl⟩ := List.mem_map.mp hlow
    obtain ⟨left, hleft, rfl⟩ := List.mem_map.mp hhigh
    have hpairwise := pairwise_sorted response minSponsorshipEarningsInWithdraw
    rw [← List.take_append_drop maxSponsorshipsInWithdraw (sorted _ _),
      List.pairwise_append] at hpairwise
    exact hpairwise.2.2 taken htaken left hleft

theorem getEarnings_sum : (getEarnings toEthereumAddress response minSponsorshipEarningsInWithdraw
    maxSponsorshipsInWithdraw).sum = (amounts ((sorted response
      minSponsorshipEarningsInWithdraw).take maxSponsorshipsInWithdraw)).sum := by
  rw [List.sum_eq_foldl, amounts, List.foldl_map]
  rfl

end Selected

variable {toEthereumAddress} {response : SponsorshipsAndEarnings ContractAddress}
  {minSponsorshipEarningsInWithdraw : ℤ} {maxSponsorshipsInWithdraw : ℕ}
  {data : EarningsData EthereumAddress}

omit data in
/-- The sponsorships of a selection of the most earnings are the upper part. -/
theorem isCut_of_most {taken left : List (Sponsorship ContractAddress)}
    (hperm : (taken ++ left).Perm (admissible response minSponsorshipEarningsInWithdraw))
    (hmost : ∀ out ∈ left, ∀ sponsorship ∈ taken, out.earnings ≤ sponsorship.earnings) :
    IsCut (amounts (admissible response minSponsorshipEarningsInWithdraw)) (amounts taken)
      (amounts left) := by
  refine ⟨?_, ?_⟩
  · rw [amounts, amounts, ← List.map_append]
    exact hperm.map _
  · intro low hlow high hhigh
    obtain ⟨out, hout, rfl⟩ := List.mem_map.mp hlow
    obtain ⟨sponsorship, hmem, rfl⟩ := List.mem_map.mp hhigh
    exact hmost out hout sponsorship hmem

/-- A selection of the most earnings is at least as much as any other one of its size. -/
theorem SelectsMost.le_sum
    (h : SelectsMost toEthereumAddress response minSponsorshipEarningsInWithdraw
      maxSponsorshipsInWithdraw data) {sponsorships : List (Sponsorship ContractAddress)}
    (hsubperm : sponsorships.Subperm (admissible response minSponsorshipEarningsInWithdraw))
    (hlength : sponsorships.length = data.sponsorshipAddresses.length) :
    (amounts sponsorships).sum ≤ data.sum := by
  obtain ⟨taken, left, hperm, _, hmost, haddresses, hsum⟩ := h
  rw [haddresses, List.length_map] at hlength
  obtain ⟨chosen, hchosen, hsublist⟩ := hsubperm
  rw [hsum]
  refine (isCut_of_most hperm hmost).sum_le ⟨_, hchosen.map _, hsublist.map _⟩ ?_
  rw [amounts, amounts, List.length_map, List.length_map, hlength]

/-- With a selection of the most earnings, `maintainOperatorValue` withdraws. -/
theorem withdrawsAbove_maintainOperatorValue {withdrawLimitSafetyFraction : ℚ} {limit : ℤ}
    (h : SelectsMost toEthereumAddress response minSponsorshipEarningsInWithdraw
      maxSponsorshipsInWithdraw (getEarnings toEthereumAddress response
        minSponsorshipEarningsInWithdraw maxSponsorshipsInWithdraw))
    (hlimit : triggerWithdrawLimit withdrawLimitSafetyFraction response.maxAllowedEarnings =
      some limit) :
    WithdrawsAbove limit response minSponsorshipEarningsInWithdraw
      (getEarnings toEthereumAddress response minSponsorshipEarningsInWithdraw
        maxSponsorshipsInWithdraw)
      (maintainOperatorValue toEthereumAddress withdrawLimitSafetyFraction
        minSponsorshipEarningsInWithdraw maxSponsorshipsInWithdraw response) := by
  intro sponsorships hsubperm hlength habove
  have hsum := habove.trans_le (h.le_sum hsubperm hlength)
  rw [maintainOperatorValue]
  show (match triggerWithdrawLimit withdrawLimitSafetyFraction response.maxAllowedEarnings with
    | none => _ | some limit => _) = _
  rw [hlimit]
  exact if_pos hsum

/-- With a selection of the most earnings, `checkOperatorValueBreach` withdraws. -/
theorem withdrawsAbove_checkOperatorValueBreach
    (h : SelectsMost toEthereumAddress response minSponsorshipEarningsInWithdraw
      maxSponsorshipsInWithdraw (getEarnings toEthereumAddress response
        minSponsorshipEarningsInWithdraw maxSponsorshipsInWithdraw)) :
    WithdrawsAbove response.maxAllowedEarnings response minSponsorshipEarningsInWithdraw
      (getEarnings toEthereumAddress response minSponsorshipEarningsInWithdraw
        maxSponsorshipsInWithdraw)
      (checkOperatorValueBreach toEthereumAddress minSponsorshipEarningsInWithdraw
        maxSponsorshipsInWithdraw response) := by
  intro sponsorships hsubperm hlength habove
  exact if_pos (habove.trans_le (h.le_sum hsubperm hlength))

/-- The lower part is a selection of the most earnings when it is everything, or when all earnings
are the same. -/
theorem selectsMost_getEarnings
    (h : NothingToChoose response minSponsorshipEarningsInWithdraw maxSponsorshipsInWithdraw) :
    SelectsMost toEthereumAddress response minSponsorshipEarningsInWithdraw
      maxSponsorshipsInWithdraw (getEarnings toEthereumAddress response
        minSponsorshipEarningsInWithdraw maxSponsorshipsInWithdraw) := by
  have hperm := sorted_perm response minSponsorshipEarningsInWithdraw
  refine ⟨(sorted response minSponsorshipEarningsInWithdraw).take maxSponsorshipsInWithdraw,
    (sorted response minSponsorshipEarningsInWithdraw).drop maxSponsorshipsInWithdraw, ?_,
    List.length_take_le _ _, ?_, rfl, getEarnings_sum _ _ _ _⟩
  · rw [List.take_append_drop]
    exact hperm
  · intro out hout sponsorship hmem
    rcases h with hall | hsame
    · rw [List.drop_eq_nil_of_le (hperm.length_eq.trans_le hall)] at hout
      exact absurd hout List.not_mem_nil
    · apply le_of_eq
      exact hsame out (hperm.mem_iff.mp (List.mem_of_mem_drop hout)) sponsorship
        (hperm.mem_iff.mp (List.mem_of_mem_take hmem))

/-- The lower part is a selection of the most earnings in no other case. -/
theorem SelectsMost.nothingToChoose (hmax : 1 ≤ maxSponsorshipsInWithdraw)
    (h : SelectsMost toEthereumAddress response minSponsorshipEarningsInWithdraw
      maxSponsorshipsInWithdraw (getEarnings toEthereumAddress response
        minSponsorshipEarningsInWithdraw maxSponsorshipsInWithdraw)) :
    NothingToChoose response minSponsorshipEarningsInWithdraw maxSponsorshipsInWithdraw := by
  obtain ⟨taken, left, hperm, htaken, hmost, haddresses, hsum⟩ := h
  apply or_iff_not_imp_left.mpr
  intro hmore
  have hsorted := (sorted_perm response minSponsorshipEarningsInWithdraw).length_eq
  have hlengths : taken.length = maxSponsorshipsInWithdraw := by
    have hmapped := congrArg List.length haddresses
    simp only [getEarnings, List.length_map, List.length_take] at hmapped
    omega
  have hlength := hperm.length_eq
  rw [List.length_append] at hlength
  have hvalues := (isCut_of_most hperm hmost).eq_of_sum_eq
    (isCut_sorted response minSponsorshipEarningsInWithdraw maxSponsorshipsInWithdraw)
    (by simp only [amounts, List.length_map, List.length_take]; omega)
    ((getEarnings_sum _ _ _ _).symm.trans hsum)
    (by
      apply List.length_pos_iff.mp
      rw [amounts, List.length_map]
      omega)
    (by
      apply List.length_pos_iff.mp
      rw [amounts, List.length_map]
      omega)
  intro first hfirst second hsecond
  exact hvalues _ (List.mem_map_of_mem hfirst) _ (List.mem_map_of_mem hsecond)

variable (toEthereumAddress response minSponsorshipEarningsInWithdraw)

/-- `getEarnings` selects the sponsorships with the most earnings, and `maintainOperatorValue`
withdraws whenever as many of them are together above its trigger, exactly when those that have
earned enough are not too many or have all earned the same. -/
theorem selectsMost_getEarnings_iff (withdrawLimitSafetyFraction : ℚ)
    (hmax : 1 ≤ maxSponsorshipsInWithdraw) :
    (SelectsMost toEthereumAddress response minSponsorshipEarningsInWithdraw
        maxSponsorshipsInWithdraw (getEarnings toEthereumAddress response
          minSponsorshipEarningsInWithdraw maxSponsorshipsInWithdraw) ∧
      ∀ limit, triggerWithdrawLimit withdrawLimitSafetyFraction response.maxAllowedEarnings =
          some limit →
        WithdrawsAbove limit response minSponsorshipEarningsInWithdraw
          (getEarnings toEthereumAddress response minSponsorshipEarningsInWithdraw
            maxSponsorshipsInWithdraw)
          (maintainOperatorValue toEthereumAddress withdrawLimitSafetyFraction
            minSponsorshipEarningsInWithdraw maxSponsorshipsInWithdraw response)) ↔
    NothingToChoose response minSponsorshipEarningsInWithdraw maxSponsorshipsInWithdraw := by
  refine ⟨fun h ↦ h.1.nothingToChoose hmax, ?_⟩
  intro h
  have hmost := @selectsMost_getEarnings _ _ toEthereumAddress _ _ _ h
  exact ⟨hmost, fun limit hlimit ↦ withdrawsAbove_maintainOperatorValue hmost hlimit⟩

/-- Two sponsorships, of which the second has more earnings and is above the limit. -/
def twoSponsorships : SponsorshipsAndEarnings ℕ := ⟨[0, 1], [5, 7], 6, rfl⟩

theorem getEarnings_takes_least :
    (getEarnings id twoSponsorships 1 1).sponsorshipAddresses = [0] ∧
      (getEarnings id twoSponsorships 1 1).sum = 5 ∧
      maintainOperatorValue id 0 1 1 twoSponsorships = .skipped ∧
      ¬ SelectsMost id twoSponsorships 1 1 (getEarnings id twoSponsorships 1 1) := by
  refine ⟨by decide, by decide, by decide +kernel, ?_⟩
  intro hmost
  rcases hmost.nothingToChoose le_rfl with htwo | hsame
  · exact absurd htwo (by decide)
  · exact absurd (hsame ⟨0, 5⟩ (.head _) ⟨1, 7⟩ (.tail _ (.head _))) (by decide)

theorem selectsMost_getEarnings_two :
    SelectsMost id twoSponsorships 1 2 (getEarnings id twoSponsorships 1 2) ∧
      ∀ limit, triggerWithdrawLimit 0 6 = some limit →
        WithdrawsAbove limit twoSponsorships 1 (getEarnings id twoSponsorships 1 2)
          (maintainOperatorValue id 0 1 2 twoSponsorships) :=
  (selectsMost_getEarnings_iff id twoSponsorships 1 0 (by decide)).mpr (.inl (by decide))

end PomboStorageNode.Operator.Earnings
