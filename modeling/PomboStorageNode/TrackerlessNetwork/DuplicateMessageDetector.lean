import PomboStorageNode.Library.Intervals
import Mathlib.Data.Prod.Lex
import Mathlib.Order.WithBot
import Mathlib.Order.Fin.Basic
import Mathlib.Data.List.Basic

/-!
# The duplicate message detector

`DuplicateMessageDetector.ts` keeps the gaps between the messages of a publisher that were seen:
half-open intervals of number pairs that can still contain unseen messages, in ascending order, the
last one ending at infinity. A call marks the message with the numbers `number`, whose predecessor
in the stream has the numbers `previousNumber`: it looks for the gap that contains both, from the
last gap downwards, and takes the interval between them out of it.

The numbers are a linear order to which infinity is added. `markAndCheck_cases` says what one call
can do, and `Sound.carve` what the gaps cover afterwards. `gaps_stay_disjoint` is about calls with
any numbers, and `answers_of_chain` about messages that are numbered consistently and delivered in
any order, where `Tracks` relates the gaps to the messages that were delivered.
-/

set_option autoImplicit false

namespace PomboStorageNode.TrackerlessNetwork.DuplicateMessageDetector

open Library.Intervals

/-! ### Number pairs -/

/-- `NumberPair`, with numbers that are finite or infinity. -/
structure NumberPair (Number : Type*) where
  a : WithTop Number
  b : WithTop Number
  deriving DecidableEq

variable {Number : Type*} [LinearOrder Number]

namespace NumberPair

/-- `compareTo`. -/
def compareTo (pair otherPair : NumberPair Number) : ℤ :=
  if pair.a > otherPair.a then 1
  else if pair.a < otherPair.a then -1
  else if pair.b > otherPair.b then 1
  else if pair.b < otherPair.b then -1
  else 0

/-- `greaterThan`. -/
def greaterThan (pair otherPair : NumberPair Number) : Bool := pair.compareTo otherPair = 1

/-- `equalTo`. -/
def equalTo (pair otherPair : NumberPair Number) : Bool := pair.compareTo otherPair = 0

/-- `greaterThanOrEqual`. -/
def greaterThanOrEqual (pair otherPair : NumberPair Number) : Bool :=
  pair.greaterThan otherPair || pair.equalTo otherPair

/-- The pairs in the order of their first numbers and then their second ones. -/
instance : LinearOrder (NumberPair Number) :=
  LinearOrder.lift' (fun pair ↦ toLex (pair.a, pair.b)) fun first second heq ↦ by
    obtain ⟨ha, hb⟩ := Prod.mk.inj (toLex.injective heq)
    cases first
    cases second
    simp_all

theorem lt_iff {first second : NumberPair Number} :
    first < second ↔ first.a < second.a ∨ (first.a = second.a ∧ first.b < second.b) :=
  Prod.lex_iff

theorem greaterThan_iff {pair otherPair : NumberPair Number} :
    pair.greaterThan otherPair = true ↔ otherPair < pair := by
  rw [greaterThan, decide_eq_true_eq, lt_iff, compareTo]
  grind

theorem equalTo_iff {pair otherPair : NumberPair Number} :
    pair.equalTo otherPair = true ↔ pair = otherPair := by
  obtain ⟨a, b⟩ := pair
  obtain ⟨otherA, otherB⟩ := otherPair
  rw [equalTo, decide_eq_true_eq, compareTo, mk.injEq]
  grind

theorem greaterThanOrEqual_iff {pair otherPair : NumberPair Number} :
    pair.greaterThanOrEqual otherPair = true ↔ otherPair ≤ pair := by
  rw [greaterThanOrEqual, Bool.or_eq_true, greaterThan_iff, equalTo_iff, le_iff_lt_or_eq]
  exact or_congr_right eq_comm

/-- A pair of finite numbers. -/
def finite (numbers : Number × Number) : NumberPair Number := ⟨numbers.1, numbers.2⟩

/-- `new NumberPair(Infinity, Infinity)`. -/
def infinity : NumberPair Number := ⟨⊤, ⊤⟩

theorem finite_lt_infinity (numbers : Number × Number) : finite numbers < infinity :=
  lt_iff.mpr (Or.inl (WithTop.coe_lt_top numbers.1))

end NumberPair

open NumberPair

/-! ### The detector -/

/-- What `markAndCheck` throws, with the data of the message. -/
inductive MarkError (Number : Type*)
  | invalidNumberingError
  | gapMisMatchError (state : List (NumberPair Number × NumberPair Number))
      (previousNumber number : NumberPair Number)
  deriving DecidableEq

/-- The gaps of a `DuplicateMessageDetector`, and, of the past, those that were dropped. -/
structure Detector (Number : Type*) where
  gaps : List (NumberPair Number × NumberPair Number)
  dropped : List (NumberPair Number × NumberPair Number)
  deriving DecidableEq

/-- A new detector. -/
def Detector.create : Detector Number := ⟨[], []⟩

/-- The gaps after the gap at an index was replaced, as the branches of `markAndCheck` do it. -/
def replaceGap (gaps : List (NumberPair Number × NumberPair Number)) (index : ℕ)
    (lowerBound upperBound previousNumber number : NumberPair Number) :
    List (NumberPair Number × NumberPair Number) :=
  if previousNumber.equalTo lowerBound then
    if number.equalTo upperBound then gaps.eraseIdx index
    else gaps.set index (number, upperBound)
  else if number.equalTo upperBound then gaps.set index (lowerBound, previousNumber)
  else gaps.take index ++ [(lowerBound, previousNumber), (number, upperBound)] ++
    gaps.drop (index + 1)

/-- The loop of `markAndCheck` over the gaps below an index, from the highest one downwards: the
gaps after it when the message was not seen, and `none` when it was. -/
def checkGaps (gaps : List (NumberPair Number × NumberPair Number))
    (previousNumber number : NumberPair Number) :
    ℕ → Except (MarkError Number) (Option (List (NumberPair Number × NumberPair Number)))
  | 0 => .ok none
  | index + 1 =>
    match gaps[index]? with
    | none => .ok none
    | some (lowerBound, upperBound) =>
      if previousNumber.greaterThanOrEqual upperBound then .ok none
      else if previousNumber.greaterThanOrEqual lowerBound then
        if number.greaterThan upperBound then
          .error (.gapMisMatchError gaps previousNumber number)
        else .ok (some (replaceGap gaps index lowerBound upperBound previousNumber number))
      else if number.greaterThan lowerBound then
        .error (.gapMisMatchError gaps previousNumber number)
      else checkGaps gaps previousNumber number index

/-- `dropLowestGapIfOverMaxGapCount`. -/
def dropLowestGapIfOverMaxGapCount (maxGapCount : ℕ) (detector : Detector Number) :
    Detector Number :=
  if maxGapCount < detector.gaps.length then
    ⟨detector.gaps.tail, detector.dropped ++ detector.gaps.take 1⟩
  else detector

/-- `markAndCheck`. -/
def markAndCheck (maxGapCount : ℕ) (detector : Detector Number)
    (previousNumber : Option (NumberPair Number)) (number : NumberPair Number) :
    Except (MarkError Number) Bool × Detector Number :=
  if previousNumber.any fun previous ↦ previous.greaterThanOrEqual number then
    (.error .invalidNumberingError, detector)
  else if detector.gaps.length = 0 then
    (.ok true, { detector with gaps := [(number, infinity)] })
  else
    match previousNumber with
    | none =>
      match detector.gaps.getLast? with
      | some (lowerBound, upperBound) =>
        if number.greaterThan lowerBound then
          (.ok true, { detector with gaps := detector.gaps.dropLast ++ [(number, upperBound)] })
        else (.ok false, detector)
      | none => (.ok false, detector)
    | some previous =>
      match checkGaps detector.gaps previous number detector.gaps.length with
      | .error err => (.error err, detector)
      | .ok none => (.ok false, detector)
      | .ok (some gaps) =>
        (.ok true, dropLowestGapIfOverMaxGapCount maxGapCount { detector with gaps := gaps })

/-! ### What a call does -/

/-- Gaps in ascending order, none of them empty and no two of them overlapping, the last one ending
at infinity. -/
structure WellFormed (gaps : List (NumberPair Number × NumberPair Number)) : Prop
    extends Ascending gaps where
  last : ∀ gap, gaps.getLast? = some gap → gap.2 = infinity

variable {front back gaps marked : List (NumberPair Number × NumberPair Number)}
  {gap : NumberPair Number × NumberPair Number} {previousNumber number : NumberPair Number}

/-- All branches take the interval between the two numbers out of the gap. -/
theorem replaceGap_eq (front back : List (NumberPair Number × NumberPair Number))
    (gap : NumberPair Number × NumberPair Number) (previousNumber number : NumberPair Number) :
    replaceGap (front ++ gap :: back) front.length gap.1 gap.2 previousNumber number =
      front ++ carve gap previousNumber number ++ back := by
  unfold replaceGap carve
  by_cases hlower : previousNumber = gap.1
  · by_cases hupper : number = gap.2
    · simp only [equalTo_iff.mpr hlower, equalTo_iff.mpr hupper, if_pos hlower, if_pos hupper,
        if_true, List.append_nil]
      rw [List.eraseIdx_append_of_length_le le_rfl, Nat.sub_self, List.eraseIdx_cons_zero]
    · simp only [equalTo_iff.mpr hlower, mt equalTo_iff.mp hupper, if_pos hlower, if_neg hupper,
        if_true, Bool.false_eq_true, if_false]
      simp
  · by_cases hupper : number = gap.2
    · simp only [mt equalTo_iff.mp hlower, equalTo_iff.mpr hupper, if_neg hlower, if_pos hupper,
        if_true, Bool.false_eq_true, if_false]
      simp
    · simp only [mt equalTo_iff.mp hlower, mt equalTo_iff.mp hupper, if_neg hlower, if_neg hupper,
        Bool.false_eq_true, if_false]
      simp

/-- What the loop finds: two numbers that do not fit the gaps, a number that no gap covers, or the
gap that contains both numbers. Assumes: the gaps at and above the index begin at or above the
number. -/
theorem checkGaps_spec (hascending : Ascending gaps) (hlt : previousNumber < number) :
    ∀ {index : ℕ}, index ≤ gaps.length → (∀ gap ∈ gaps.drop index, number ≤ gap.1) →
      match checkGaps gaps previousNumber number index with
      | .error _ => ∃ gap ∈ gaps, (gap.1 ≤ previousNumber ∧ previousNumber < gap.2 ∧
          gap.2 < number) ∨ (previousNumber < gap.1 ∧ gap.1 < number)
      | .ok none => ¬ Covers gaps number
      | .ok (some marked) => ∃ front gap back, gaps = front ++ gap :: back ∧
          gap.1 ≤ previousNumber ∧ number ≤ gap.2 ∧
          marked = front ++ carve gap previousNumber number ++ back := by
  intro index
  induction index with
  | zero =>
    rintro - habove ⟨gap, hgap, hin⟩
    exact (habove gap (by simpa using hgap)).not_gt hin.1
  | succ index ih =>
    intro hindex habove
    have hbound : index < gaps.length := hindex
    have hgap := List.getElem?_eq_getElem hbound
    have hmem : gaps[index] ∈ gaps := List.getElem_mem hbound
    have hsplit : gaps = gaps.take index ++ gaps[index] :: gaps.drop (index + 1) := by
      rw [List.getElem_cons_drop, List.take_append_drop]
    rw [checkGaps, hgap]
    dsimp only
    split_ifs with hpast hinside hover hunder
    · -- The number is above this gap and all below it, and at or below those above it.
      rw [greaterThanOrEqual_iff] at hpast
      rintro ⟨other, hother, hin⟩
      rw [hsplit] at hother hascending
      rcases List.mem_append.mp hother with hfront | hrest
      · have hle := (List.pairwise_append.mp hascending.apart).2.2 other hfront _
          List.mem_cons_self
        have hself := hascending.nonempty _ (List.mem_append_right _ List.mem_cons_self)
        exact (hin.2.trans hle).not_gt (hself.trans_le (hpast.trans hlt.le))
      · rcases List.mem_cons.mp hrest with rfl | hback
        · exact hin.2.not_gt (hpast.trans_lt hlt)
        · exact (habove other hback).not_gt hin.1
    · rw [greaterThanOrEqual_iff, not_le] at hpast
      rw [greaterThanOrEqual_iff] at hinside
      exact ⟨gaps[index], hmem, Or.inl ⟨hinside, hpast, greaterThan_iff.mp hover⟩⟩
    · rw [greaterThanOrEqual_iff] at hinside
      rw [greaterThan_iff, not_lt] at hover
      refine ⟨gaps.take index, gaps[index], gaps.drop (index + 1), hsplit, hinside, hover, ?_⟩
      have hlength : (gaps.take index).length = index := List.length_take_of_le hbound.le
      calc replaceGap gaps index gaps[index].1 gaps[index].2 previousNumber number
          = replaceGap (gaps.take index ++ gaps[index] :: gaps.drop (index + 1))
              (gaps.take index).length gaps[index].1 gaps[index].2 previousNumber number := by
            rw [← hsplit, hlength]
        _ = _ := replaceGap_eq _ _ _ _ _
    · rw [greaterThanOrEqual_iff, not_le] at hinside
      exact ⟨gaps[index], hmem, Or.inr ⟨hinside, greaterThan_iff.mp hunder⟩⟩
    · rw [greaterThan_iff, not_lt] at hunder
      refine ih hbound.le fun other hother ↦ ?_
      rw [← List.getElem_cons_drop hbound] at hother
      rcases List.mem_cons.mp hother with rfl | hback
      · exact hunder
      · exact habove other hback

/-- What a call can do: throw, because the numbers do not fit, which changes nothing; answer that
the message was seen, which changes nothing either; begin with the first gap; or take an interval
that ends with the number out of a gap. Assumes: the gaps are well formed and not too many, and the
number is finite. -/
theorem markAndCheck_cases {maxGapCount : ℕ} {detector : Detector Number}
    (hformed : WellFormed detector.gaps) (hcount : detector.gaps.length ≤ maxGapCount)
    (hfinite : number < infinity) (previous : Option (NumberPair Number)) :
    (∃ err, markAndCheck maxGapCount detector previous number = (.error err, detector) ∧
      ∃ low, previous = some low ∧ (low < number → ∃ gap ∈ detector.gaps,
        (gap.1 ≤ low ∧ low < gap.2 ∧ gap.2 < number) ∨ (low < gap.1 ∧ gap.1 < number))) ∨
    (markAndCheck maxGapCount detector previous number = (.ok false, detector) ∧
      detector.gaps ≠ [] ∧ (previous ≠ none → ¬ Covers detector.gaps number)) ∨
    (markAndCheck maxGapCount detector previous number =
        (.ok true, { detector with gaps := [(number, infinity)] }) ∧ detector.gaps = []) ∨
    ∃ front gap back low, detector.gaps = front ++ gap :: back ∧ gap.1 ≤ low ∧ low < number ∧
      number ≤ gap.2 ∧ (∀ value, previous = some value → value = low) ∧
      markAndCheck maxGapCount detector previous number =
        (.ok true, dropLowestGapIfOverMaxGapCount maxGapCount
          { detector with gaps := front ++ carve gap low number ++ back }) := by
  unfold markAndCheck
  split_ifs with hinvalid hempty
  · rw [Option.any_eq_true] at hinvalid
    obtain ⟨low, rfl, hlow⟩ := hinvalid
    refine Or.inl ⟨_, rfl, low, rfl, fun hlt ↦ ?_⟩
    exact absurd hlt (greaterThanOrEqual_iff.mp hlow).not_gt
  · exact Or.inr (Or.inr (Or.inl ⟨rfl, List.length_eq_zero_iff.mp hempty⟩))
  · have hnil : detector.gaps ≠ [] := fun heq ↦ hempty (List.length_eq_zero_iff.mpr heq)
    cases previous with
    | none =>
      obtain ⟨last, hlast⟩ : ∃ last, detector.gaps.getLast? = some last :=
        ⟨_, List.getLast?_eq_some_getLast hnil⟩
      obtain ⟨front, hfront⟩ := List.getLast?_eq_some_iff.mp hlast
      have hinfinite : last.2 = infinity := hformed.last last hlast
      simp only [hlast]
      split_ifs with hlower
      · rw [greaterThan_iff] at hlower
        refine Or.inr (Or.inr (Or.inr ⟨front, last, [], last.1, hfront, le_rfl, hlower,
          hinfinite ▸ hfinite.le, nofun, ?_⟩))
        have hcarve : carve last last.1 number = [(number, last.2)] := by
          rw [carve, if_pos rfl, if_neg (hinfinite ▸ hfinite.ne), List.nil_append]
        rw [hcarve, List.append_nil, hfront, List.dropLast_concat,
          dropLowestGapIfOverMaxGapCount, if_neg]
        rw [hfront, List.length_append] at hcount
        rw [List.length_append]
        exact not_lt.mpr hcount
      · exact Or.inr (Or.inl ⟨rfl, hnil, fun hsome ↦ absurd rfl hsome⟩)
    | some low =>
      have hlt : low < number := by
        simpa [greaterThanOrEqual_iff] using hinvalid
      have hspec := checkGaps_spec hformed.toAscending hlt le_rfl
        (by simp only [List.drop_length, List.not_mem_nil, false_imp_iff, implies_true])
      dsimp only
      split at hspec
      · rename_i err herr
        exact Or.inl ⟨err, rfl, low, rfl, fun _ ↦ hspec⟩
      · exact Or.inr (Or.inl ⟨rfl, hnil, fun _ ↦ hspec⟩)
      · obtain ⟨front, gap, back, hgaps, hlow, hhigh, rfl⟩ := hspec
        exact Or.inr (Or.inr (Or.inr ⟨front, gap, back, low, hgaps, hlow, hlt, hhigh,
          fun value hvalue ↦ (Option.some.inj hvalue).symm, rfl⟩))

/-- Taking an interval that ends with a finite number out of a gap keeps the gaps well formed, and
some gap is left. -/
theorem WellFormed.carve {low : NumberPair Number} (hformed : WellFormed (front ++ gap :: back))
    (hlow : gap.1 ≤ low) (hlt : low < number) (hhigh : number ≤ gap.2)
    (hfinite : number < infinity) :
    WellFormed (front ++ Library.Intervals.carve gap low number ++ back) ∧
      front ++ Library.Intervals.carve gap low number ++ back ≠ [] := by
  have hascending := hformed.toAscending.carve hlow hlt hhigh
  cases back with
  | nil =>
    have hlast : gap.2 = infinity := hformed.last gap List.getLast?_concat
    obtain ⟨start, hstart⟩ := exists_carve_eq_append low (hlast ▸ hfinite.ne : number ≠ gap.2)
    rw [hstart, List.append_nil, ← List.append_assoc] at hascending ⊢
    refine ⟨⟨hascending, fun other hother ↦ ?_⟩, by simp⟩
    rw [List.getLast?_concat, Option.some.injEq] at hother
    rw [← hother]
    exact hlast
  | cons first rest =>
    refine ⟨⟨hascending, fun other hother ↦ ?_⟩, by simp⟩
    refine hformed.last other ?_
    rw [List.getLast?_append_of_ne_nil _ (List.cons_ne_nil _ _)] at hother
    rw [List.getLast?_append_of_ne_nil _ (List.cons_ne_nil _ _), List.getLast?_cons_cons]
    exact hother

/-- Dropping the lowest gap: well formed gaps of which some is left stay so, what they cover is
covered by them or was dropped, and there are not too many. Assumes: at most one gap too many, and
a positive maximum. -/
theorem dropLowest_spec {maxGapCount : ℕ} (hmax : 1 ≤ maxGapCount) {detector : Detector Number}
    (hformed : WellFormed detector.gaps) (hnil : detector.gaps ≠ [])
    (hcount : detector.gaps.length ≤ maxGapCount + 1) :
    let after := dropLowestGapIfOverMaxGapCount maxGapCount detector
    WellFormed after.gaps ∧ after.gaps ≠ [] ∧ after.gaps.length ≤ maxGapCount ∧
      after.gaps ⊆ detector.gaps ∧
      (∀ value, Covers after.gaps value → Covers detector.gaps value) ∧
      (∀ value, Covers detector.gaps value → Covers after.gaps value ∨
        Covers after.dropped value) ∧
      ∀ value, Covers detector.dropped value → Covers after.dropped value := by
  intro after
  by_cases hover : maxGapCount < detector.gaps.length
  · have hafter : after = ⟨detector.gaps.tail, detector.dropped ++ detector.gaps.take 1⟩ :=
      if_pos hover
    obtain ⟨lowest, rest, hgaps⟩ := List.exists_cons_of_ne_nil hnil
    rw [hgaps] at hover hformed hcount
    have hrest : rest ≠ [] := by
      rintro rfl
      rw [List.length_singleton] at hover
      omega
    simp only [hafter, hgaps, List.tail_cons, List.take_succ_cons, List.take_zero]
    refine ⟨⟨hformed.toAscending.sublist (List.sublist_cons_self _ _), fun gap hgap ↦ ?_⟩, hrest,
      ?_, List.subset_cons_self _ _, fun value ↦ ?_, fun value ↦ ?_, fun value hvalue ↦ ?_⟩
    · refine hformed.last gap ?_
      obtain ⟨second, others, rfl⟩ := List.exists_cons_of_ne_nil hrest
      rw [List.getLast?_cons_cons]
      exact hgap
    · rw [List.length_cons] at hcount
      omega
    · rw [covers_cons]
      exact Or.inr
    · rw [covers_cons, covers_append, covers_cons]
      rintro (hlowest | hothers)
      · exact Or.inr (Or.inr (Or.inl hlowest))
      · exact Or.inl hothers
    · rw [covers_append]
      exact Or.inl hvalue
  · have hafter : after = detector := if_neg hover
    rw [hafter]
    exact ⟨hformed, hnil, not_lt.mp hover, List.Subset.refl _, fun _ ↦ id, fun _ ↦ Or.inl,
      fun _ ↦ id⟩

/-! ### Any calls -/

/-- The arguments of a call: finite numbers, where `previousNumber` is `none` for null. -/
structure Call (Number : Type*) where
  previousNumber : Option (Number × Number)
  number : Number × Number

/-- One call. -/
def mark (maxGapCount : ℕ) (detector : Detector Number) (call : Call Number) :
    Except (MarkError Number) Bool × Detector Number :=
  markAndCheck maxGapCount detector (call.previousNumber.map finite) (finite call.number)

/-- The detector after a sequence of calls. -/
def detectorAfter (maxGapCount : ℕ) (calls : List (Call Number)) : Detector Number :=
  calls.foldl (fun detector call ↦ (mark maxGapCount detector call).2) Detector.create

/-- What a call answers after other calls. -/
def answer (maxGapCount : ℕ) (before : List (Call Number)) (call : Call Number) :
    Except (MarkError Number) Bool :=
  (mark maxGapCount (detectorAfter maxGapCount before) call).1

/-- The gaps are well formed and not too many. -/
structure Sound (maxGapCount : ℕ) (detector : Detector Number) : Prop
    extends WellFormed detector.gaps where
  count : detector.gaps.length ≤ maxGapCount

/-- What every call keeps to. -/
structure Keeps (maxGapCount : ℕ) (detector : Detector Number) (number : NumberPair Number)
    (outcome : Except (MarkError Number) Bool × Detector Number) : Prop where
  sound : Sound maxGapCount outcome.2
  unchanged : ∀ err, outcome.1 = .error err → outcome.2 = detector
  begun : ∀ value, outcome.1 = .ok value → outcome.2.gaps ≠ []
  shrinks : detector.gaps ≠ [] →
    outcome.2.gaps ≠ [] ∧ ∀ value, Covers outcome.2.gaps value → Covers detector.gaps value
  unseen : outcome.1 = .ok true →
    ¬ Covers outcome.2.gaps number ∧ (detector.gaps ≠ [] → Covers detector.gaps number)

/-- A detector that does not change. -/
theorem keeps_of_unchanged {maxGapCount : ℕ} {detector : Detector Number}
    (hsound : Sound maxGapCount detector) (number : NumberPair Number)
    {result : Except (MarkError Number) Bool} (hresult : result ≠ .ok true)
    (hbegun : ∀ value, result = .ok value → detector.gaps ≠ []) :
    Keeps maxGapCount detector number (result, detector) :=
  ⟨hsound, fun _ _ ↦ rfl, hbegun, fun hnil ↦ ⟨hnil, fun _ ↦ id⟩,
    fun htrue ↦ absurd htrue hresult⟩

/-- A gap after the number covers what is above it. -/
theorem wellFormed_singleton (hfinite : number < infinity) :
    WellFormed [(number, infinity)] where
  nonempty gap hgap := List.mem_singleton.mp hgap ▸ hfinite
  apart := List.pairwise_singleton _ _
  last gap hgap := by
    rw [List.getLast?_singleton, Option.some.injEq] at hgap
    exact hgap ▸ rfl

/-- What is left when a number and those down to `low` are carved out of a gap and the lowest gap is
dropped if there are too many.
Assumes: `low` and the number lie in the gap. -/
theorem Sound.carve {maxGapCount : ℕ} (hmax : 1 ≤ maxGapCount) {detector : Detector Number}
    (hsound : Sound maxGapCount detector) {low : NumberPair Number}
    (hgaps : detector.gaps = front ++ gap :: back) (hlow : gap.1 ≤ low) (hlt : low < number)
    (hhigh : number ≤ gap.2) (hfinite : number < infinity) :
    let marked := front ++ Library.Intervals.carve gap low number ++ back
    let after := dropLowestGapIfOverMaxGapCount maxGapCount ⟨marked, detector.dropped⟩
    Sound maxGapCount after ∧ after.gaps ≠ [] ∧ after.gaps ⊆ marked ∧
      (∀ value, Covers after.gaps value →
        Covers detector.gaps value ∧ ¬(low < value ∧ value ≤ number)) ∧
      (∀ value, Covers detector.gaps value → ¬(low < value ∧ value ≤ number) →
        Covers after.gaps value ∨ Covers after.dropped value) ∧
      ∀ value, Covers detector.dropped value → Covers after.dropped value := by
  intro marked after
  have hformed := hsound.toWellFormed
  rw [hgaps] at hformed
  have hcovers : ∀ value, Covers marked value ↔
      Covers detector.gaps value ∧ ¬(low < value ∧ value ≤ number) := by
    intro value
    rw [hgaps]
    exact covers_carve hformed.toAscending hlow hlt hhigh
  obtain ⟨hmarked, hnil⟩ := hformed.carve hlow hlt hhigh hfinite
  have hlength : marked.length ≤ maxGapCount + 1 := by
    have hcount := hsound.count
    have htwo := length_carve_le gap low number
    rw [hgaps, List.length_append, List.length_cons] at hcount
    rw [List.length_append, List.length_append]
    omega
  obtain ⟨hafter, hleft, hcount, hsubset, hsub, hkept, hdropped⟩ :=
    @dropLowest_spec _ _ maxGapCount hmax ⟨marked, detector.dropped⟩ hmarked hnil hlength
  refine ⟨⟨hafter, hcount⟩, hleft, hsubset, fun value hvalue ↦ ?_, fun value hvalue hout ↦ ?_,
    hdropped⟩
  · exact (hcovers value).mp (hsub value hvalue)
  · exact hkept value ((hcovers value).mpr ⟨hvalue, hout⟩)

/-- A call keeps the gaps well formed, and what they cover does not grow. -/
theorem Sound.mark {maxGapCount : ℕ} (hmax : 1 ≤ maxGapCount) {detector : Detector Number}
    (hsound : Sound maxGapCount detector) (call : Call Number) :
    Keeps maxGapCount detector (finite call.number) (mark maxGapCount detector call) := by
  have hfinite := finite_lt_infinity call.number
  unfold DuplicateMessageDetector.mark
  rcases markAndCheck_cases hsound.toWellFormed hsound.count hfinite
    (call.previousNumber.map finite) with ⟨err, heq, -⟩ | ⟨heq, hnil, -⟩ | ⟨heq, hempty⟩ |
      ⟨front, gap, back, low, hgaps, hlow, hlt, hhigh, -, heq⟩
  · rw [heq]
    exact keeps_of_unchanged hsound _ nofun nofun
  · rw [heq]
    exact keeps_of_unchanged hsound _ nofun fun _ _ ↦ hnil
  · rw [heq]
    refine ⟨⟨wellFormed_singleton hfinite, hmax⟩, nofun, fun _ _ ↦ List.cons_ne_nil _ _,
      fun hnil ↦ absurd hempty hnil, fun _ ↦ ⟨?_, fun hnil ↦ absurd hempty hnil⟩⟩
    rintro ⟨gap, hgap, hin⟩
    rw [List.mem_singleton.mp hgap] at hin
    exact lt_irrefl _ hin.1
  · obtain ⟨hafter, hleft, -, hsub, -, -⟩ := hsound.carve hmax hgaps hlow hlt hhigh hfinite
    rw [heq]
    refine ⟨hafter, nofun, fun _ _ ↦ hleft, fun _ ↦ ⟨hleft, fun value hvalue ↦ ?_⟩,
      fun _ ↦ ⟨fun hvalue ↦ ?_, fun _ ↦ ?_⟩⟩
    · exact (hsub value hvalue).1
    · exact (hsub _ hvalue).2 ⟨hlt, le_rfl⟩
    · rw [hgaps]
      exact ⟨gap, List.mem_append_right _ List.mem_cons_self, hlow.trans_lt hlt, hhigh⟩

theorem sound_create (maxGapCount : ℕ) : Sound maxGapCount (Detector.create : Detector Number) where
  nonempty := nofun
  apart := List.Pairwise.nil
  last := nofun
  count := Nat.zero_le _

/-- The gaps are well formed after any calls from a sound detector, and once there is a gap what
they cover does not grow. -/
theorem Sound.run {maxGapCount : ℕ} (hmax : 1 ≤ maxGapCount) {detector : Detector Number}
    (hsound : Sound maxGapCount detector) (calls : List (Call Number)) :
    let after := calls.foldl (fun detector call ↦ (DuplicateMessageDetector.mark maxGapCount
      detector call).2) detector
    Sound maxGapCount after ∧ (detector.gaps ≠ [] →
      after.gaps ≠ [] ∧ ∀ value, Covers after.gaps value → Covers detector.gaps value) := by
  induction calls generalizing detector with
  | nil => exact ⟨hsound, fun hnil ↦ ⟨hnil, fun _ ↦ id⟩⟩
  | cons call calls ih =>
    have hcall := hsound.mark hmax call
    obtain ⟨hafter, hshrinks⟩ := ih hcall.sound
    refine ⟨hafter, fun hnil ↦ ?_⟩
    obtain ⟨hfirst, hfirstCovers⟩ := hcall.shrinks hnil
    obtain ⟨hrest, hrestCovers⟩ := hshrinks hfirst
    exact ⟨hrest, fun value hvalue ↦ hfirstCovers value (hrestCovers value hvalue)⟩

theorem detectorAfter_append (maxGapCount : ℕ) (before after : List (Call Number)) :
    detectorAfter maxGapCount (before ++ after) =
      after.foldl (fun detector call ↦ (mark maxGapCount detector call).2)
        (detectorAfter maxGapCount before) :=
  List.foldl_append

/-- What holds of the gaps after any calls with finite numbers, consistent or not. They are not
empty, ascending and disjoint, the last one ends at infinity, and there are at most `maxGapCount` of
them. A call that throws leaves them as they are. From the first call that does not throw on, what
they cover never grows. And no number is answered with `true` twice. -/
theorem gaps_stay_disjoint {maxGapCount : ℕ} (hmax : 1 ≤ maxGapCount)
    (calls : List (Call Number)) :
    (Ascending (detectorAfter maxGapCount calls).gaps ∧
      (∀ gap, (detectorAfter maxGapCount calls).gaps.getLast? = some gap → gap.2 = infinity) ∧
      (detectorAfter maxGapCount calls).gaps.length ≤ maxGapCount) ∧
    (∀ before call after err, calls = before ++ call :: after →
      answer maxGapCount before call = .error err →
      (detectorAfter maxGapCount (before ++ [call])).gaps =
        (detectorAfter maxGapCount before).gaps) ∧
    (∀ before call between after value, calls = before ++ call :: between ++ after →
      answer maxGapCount before call = .ok value → ∀ number,
      Covers (detectorAfter maxGapCount calls).gaps number →
        Covers (detectorAfter maxGapCount (before ++ call :: between)).gaps number) ∧
    ∀ before first between second after,
      calls = before ++ first :: between ++ second :: after →
      answer maxGapCount before first = .ok true →
      answer maxGapCount (before ++ first :: between) second = .ok true →
      first.number ≠ second.number := by
  have hsound : ∀ calls : List (Call Number), Sound maxGapCount (detectorAfter maxGapCount calls) :=
    fun calls ↦ ((sound_create maxGapCount).run hmax calls).1
  have hbegun : ∀ (before : List (Call Number)) (call : Call Number)
      (between : List (Call Number)) (value : Bool), answer maxGapCount before call = .ok value →
      (detectorAfter maxGapCount (before ++ call :: between)).gaps ≠ [] ∧
      ∀ number, Covers (detectorAfter maxGapCount (before ++ call :: between)).gaps number →
        Covers (mark maxGapCount (detectorAfter maxGapCount before) call).2.gaps number := by
    intro before call between value hvalue
    have hcall := (hsound before).mark hmax call
    rw [detectorAfter_append, List.foldl_cons]
    exact (hcall.sound.run hmax between).2 (hcall.begun value hvalue)
  refine ⟨⟨(hsound calls).toAscending, (hsound calls).last, (hsound calls).count⟩, ?_, ?_, ?_⟩
  · intro before call after err _ herr
    rw [detectorAfter_append]
    exact congrArg _ (((hsound before).mark hmax call).unchanged err herr)
  · intro before call between after value hcalls hvalue number hcovers
    rw [hcalls, detectorAfter_append] at hcovers
    exact ((hsound _).run hmax after).2 (hbegun before call between value hvalue).1 |>.2 number
      hcovers
  · intro before first between second after _ hfirst hsecond heq
    obtain ⟨hnil, hcovered⟩ := hbegun before first between true hfirst
    have hstill := (((hsound _).mark hmax second).unseen hsecond).2 hnil
    rw [← heq] at hstill
    exact (((hsound before).mark hmax first).unseen hfirst).1 (hcovered _ hstill)

/-- When the first call throws, the gaps cover nothing after it and more after the second one. -/
theorem covered_grows_after_throwing : ∃ number : NumberPair ℕ,
    (∃ err, answer 1 [] ⟨some (5, 0), (5, 0)⟩ = .error err) ∧
    ¬ Covers (detectorAfter 1 [⟨some (5, 0), (5, 0)⟩]).gaps number ∧
    Covers (detectorAfter 1 [⟨some (5, 0), (5, 0)⟩, ⟨none, (3, 0)⟩]).gaps number := by
  refine ⟨finite (4, 0), ⟨.invalidNumberingError, by decide⟩, ?_, ?_⟩
  · rintro ⟨gap, hgap, -⟩
    have hempty : (detectorAfter 1 [(⟨some (5, 0), (5, 0)⟩ : Call ℕ)]).gaps = [] := by decide
    rw [hempty] at hgap
    cases hgap
  · refine ⟨(finite (3, 0), infinity), by decide, by decide, by decide⟩

/-- Four messages that arrive out of order, with at most two gaps. -/
theorem gaps_stay_disjoint_dropped :
    ((detectorAfter 2 ([⟨none, (1, 0)⟩, ⟨some (3, 0), (4, 0)⟩, ⟨some (6, 0), (7, 0)⟩,
      ⟨some (4, 0), (5, 0)⟩] : List (Call ℕ))).gaps =
        [(finite (5, 0), finite (6, 0)), (finite (7, 0), infinity)]) ∧
    Ascending (detectorAfter 2 ([⟨none, (1, 0)⟩, ⟨some (3, 0), (4, 0)⟩, ⟨some (6, 0), (7, 0)⟩,
      ⟨some (4, 0), (5, 0)⟩] : List (Call ℕ))).gaps :=
  ⟨by decide, (gaps_stay_disjoint (by decide) _).1.1⟩

/-! ### Messages of one chain -/

/-- The numbers of a message of the chain. -/
def numberOf (numbers : List (Number × Number)) (index : Fin numbers.length) : NumberPair Number :=
  finite (numbers.get index)

/-- The call for a message of the chain, which names the numbers of the message in front of it. -/
def callOf (numbers : List (Number × Number)) (index : Fin numbers.length) : Call Number :=
  ⟨if index.val = 0 then none else numbers[index.val - 1]?, numbers.get index⟩

variable {numbers : List (Number × Number)}

/-- The numbers ascend strictly. -/
def Ascends (numbers : List (Number × Number)) : Prop :=
  numbers.Pairwise fun earlier later ↦ finite earlier < finite later

theorem Ascends.lt_iff (hascends : Ascends numbers) {first second : Fin numbers.length} :
    numberOf numbers first < numberOf numbers second ↔ first < second := by
  have hmono : ∀ {low high : Fin numbers.length}, low < high →
      numberOf numbers low < numberOf numbers high := fun {low high} hlt ↦
    List.pairwise_iff_get.mp hascends low high hlt
  refine ⟨fun hlt ↦ ?_, hmono⟩
  by_contra hnot
  rcases (not_lt.mp hnot).lt_or_eq with hgt | rfl
  · exact hlt.asymm (hmono hgt)
  · exact lt_irrefl _ hlt

omit [LinearOrder Number] in
/-- The message in front of one that is not the first. -/
theorem previousNumber_callOf {index : Fin numbers.length} (hindex : index.val ≠ 0) :
    ∃ previous : Fin numbers.length, previous.val + 1 = index.val ∧
      (callOf numbers index).previousNumber.map finite = some (numberOf numbers previous) := by
  have hlt := index.isLt
  refine ⟨⟨index.val - 1, by omega⟩, by simp only; omega, ?_⟩
  simp only [callOf, if_neg hindex, numberOf, List.get_eq_getElem]
  rw [List.getElem?_eq_getElem (by omega), Option.map_some]

/-- How the gaps are related to the messages that were delivered, of which `first` was the first:
their bounds are numbers of the chain, they cover only newer messages that were not delivered, and
every such message is covered by them or by a gap that was dropped. -/
structure Tracks (maxGapCount : ℕ) (numbers : List (Number × Number))
    (first : Fin numbers.length) (delivered : List (Fin numbers.length))
    (detector : Detector Number) : Prop extends Sound maxGapCount detector where
  begun : detector.gaps ≠ []
  lower : ∀ gap ∈ detector.gaps, ∃ index, gap.1 = numberOf numbers index
  upper : ∀ gap ∈ detector.gaps, gap.2 = infinity ∨ ∃ index, gap.2 = numberOf numbers index
  covered : ∀ index, Covers detector.gaps (numberOf numbers index) →
    first < index ∧ index ∉ delivered
  missing : ∀ index, first < index → index ∉ delivered →
    Covers detector.gaps (numberOf numbers index) ∨
      Covers detector.dropped (numberOf numbers index)

variable {maxGapCount : ℕ} {first : Fin numbers.length} {delivered : List (Fin numbers.length)}
  {detector : Detector Number}

/-- The first delivery. -/
theorem tracks_first (hascends : Ascends numbers) (hmax : 1 ≤ maxGapCount)
    (first : Fin numbers.length) :
    ∃ detector, mark maxGapCount Detector.create (callOf numbers first) = (.ok true, detector) ∧
      Tracks maxGapCount numbers first [first] detector := by
  have hfinite := finite_lt_infinity (numbers.get first)
  have hvalid : ((callOf numbers first).previousNumber.map finite).any
      (fun previous ↦ previous.greaterThanOrEqual (finite (callOf numbers first).number)) =
        false := by
    by_cases hindex : first.val = 0
    · simp [callOf, hindex]
    · obtain ⟨previous, hprevious, heq⟩ := previousNumber_callOf hindex
      have hlt : numberOf numbers previous < numberOf numbers first :=
        hascends.lt_iff.mpr (Fin.lt_def.mpr (by omega))
      rw [heq, Option.any_some, Bool.eq_false_iff, ne_eq, greaterThanOrEqual_iff, not_le]
      exact hlt
  refine ⟨⟨[(numberOf numbers first, infinity)], []⟩, ?_, ⟨wellFormed_singleton hfinite, hmax⟩,
    List.cons_ne_nil _ _, fun gap hgap ↦ ?_, fun gap hgap ↦ ?_, fun index hcovers ↦ ?_,
    fun index hlt _ ↦ ?_⟩
  · unfold mark markAndCheck
    rw [hvalid]
    rfl
  · exact ⟨first, List.mem_singleton.mp hgap ▸ rfl⟩
  · exact Or.inl (List.mem_singleton.mp hgap ▸ rfl)
  · obtain ⟨gap, hgap, hin⟩ := hcovers
    rw [List.mem_singleton.mp hgap] at hin
    have hlt := hascends.lt_iff.mp hin.1
    exact ⟨hlt, fun hmem ↦ hlt.ne' (List.mem_singleton.mp hmem)⟩
  · refine Or.inl ⟨_, List.mem_singleton.mpr rfl, hascends.lt_iff.mpr hlt, ?_⟩
    exact (finite_lt_infinity (numbers.get index)).le

/-- A delivered message that no gap covers changes nothing. -/
theorem Tracks.deliver_seen (htracks : Tracks maxGapCount numbers first delivered detector)
    {index : Fin numbers.length} (hnot : ¬ Covers detector.gaps (numberOf numbers index)) :
    Tracks maxGapCount numbers first (delivered ++ [index]) detector := by
  refine ⟨htracks.toSound, htracks.begun, htracks.lower, htracks.upper, fun other hcovers ↦ ?_,
    fun other hnewer hother ↦ ?_⟩
  · refine (htracks.covered other hcovers).imp_right fun hfresh hmem ↦ ?_
    rcases List.mem_append.mp hmem with hold | hnew
    · exact hfresh hold
    · exact hnot (List.mem_singleton.mp hnew ▸ hcovers)
  · exact htracks.missing other hnewer fun hmem ↦ hother (List.mem_append_left _ hmem)

/-- The bounds of the gaps are numbers of the chain, and none lies between two neighbours, so no
message of the chain has a predecessor in another gap or below its own.
Assumes: `previous` comes right before `index`. -/
theorem Tracks.fits (hascends : Ascends numbers)
    (htracks : Tracks maxGapCount numbers first delivered detector)
    {previous index : Fin numbers.length} (hprevious : previous.val + 1 = index.val)
    {gap : NumberPair Number × NumberPair Number} (hgap : gap ∈ detector.gaps) :
    ¬(numberOf numbers previous < gap.2 ∧ gap.2 < numberOf numbers index) ∧
      ¬(numberOf numbers previous < gap.1 ∧ gap.1 < numberOf numbers index) := by
  have hfinite : numberOf numbers index < infinity := finite_lt_infinity (numbers.get index)
  constructor
  · intro hover
    rcases htracks.upper gap hgap with hinfinite | ⟨bound, hbound⟩
    · exact absurd hover.2 (hinfinite ▸ hfinite.asymm)
    · rw [hbound, hascends.lt_iff, hascends.lt_iff, Fin.lt_def, Fin.lt_def] at hover
      omega
  · intro hunder
    obtain ⟨bound, hbound⟩ := htracks.lower gap hgap
    rw [hbound, hascends.lt_iff, hascends.lt_iff, Fin.lt_def, Fin.lt_def] at hunder
    omega

/-- A delivered message that a gap covers is carved out of it, with what lies between it and its
predecessor, where the chain has no message.
Assumes: `previous` comes right before `index`, and both numbers lie in the gap. -/
theorem Tracks.deliver_carved (hascends : Ascends numbers) (hmax : 1 ≤ maxGapCount)
    (htracks : Tracks maxGapCount numbers first delivered detector)
    {previous index : Fin numbers.length} (hprevious : previous.val + 1 = index.val)
    {front back : List (NumberPair Number × NumberPair Number)}
    {gap : NumberPair Number × NumberPair Number} (hgaps : detector.gaps = front ++ gap :: back)
    (hlow : gap.1 ≤ numberOf numbers previous) (hhigh : numberOf numbers index ≤ gap.2) :
    Tracks maxGapCount numbers first (delivered ++ [index])
      (dropLowestGapIfOverMaxGapCount maxGapCount { detector with
        gaps := front ++ carve gap (numberOf numbers previous) (numberOf numbers index) ++
          back }) := by
  have hlt : numberOf numbers previous < numberOf numbers index :=
    hascends.lt_iff.mpr (Fin.lt_def.mpr (by omega))
  obtain ⟨hafter, hleft, hsubset, hsub, hkept, hdropped⟩ :=
    htracks.toSound.carve hmax hgaps hlow hlt hhigh (finite_lt_infinity (numbers.get index))
  have hgapMem : gap ∈ detector.gaps := hgaps ▸ List.mem_append_right _ List.mem_cons_self
  have hparts : ∀ part ∈ front ++ carve gap (numberOf numbers previous)
      (numberOf numbers index) ++ back, part ∈ detector.gaps ∨
        part = (gap.1, numberOf numbers previous) ∨ part = (numberOf numbers index, gap.2) := by
    intro part hpart
    rw [hgaps, List.mem_append, List.mem_cons]
    rw [List.mem_append, List.mem_append, mem_carve] at hpart
    tauto
  refine ⟨hafter, hleft, fun part hpart ↦ ?_, fun part hpart ↦ ?_, fun other hother ↦ ?_,
    fun other hnewer hother ↦ ?_⟩
  · rcases hparts part (hsubset hpart) with hold | rfl | rfl
    · exact htracks.lower part hold
    · exact htracks.lower gap hgapMem
    · exact ⟨index, rfl⟩
  · rcases hparts part (hsubset hpart) with hold | rfl | rfl
    · exact htracks.upper part hold
    · exact Or.inr ⟨previous, rfl⟩
    · exact htracks.upper gap hgapMem
  · obtain ⟨hold, hout⟩ := hsub _ hother
    refine (htracks.covered other hold).imp_right fun hfresh hmem ↦ ?_
    rcases List.mem_append.mp hmem with hearlier | hnew
    · exact hfresh hearlier
    · rw [List.mem_singleton.mp hnew] at hout
      exact hout ⟨hlt, le_rfl⟩
  · have hne : other ≠ index := fun heq ↦
      hother (List.mem_append_right _ (List.mem_singleton.mpr heq))
    have hundelivered : other ∉ delivered := fun hmem ↦ hother (List.mem_append_left _ hmem)
    rcases htracks.missing other hnewer hundelivered with hold | hlost
    · refine hkept _ hold fun hbetween ↦ hne ?_
      rw [hascends.lt_iff, ← not_lt, hascends.lt_iff, Fin.lt_def, Fin.lt_def] at hbetween
      exact Fin.ext (by omega)
    · exact Or.inr (hdropped _ hlost)

/-- A further delivery: it is answered with `true` exactly when a gap covers the message, and the
gaps are related to the deliveries as before. -/
theorem Tracks.deliver (hascends : Ascends numbers) (hmax : 1 ≤ maxGapCount)
    (htracks : Tracks maxGapCount numbers first delivered detector) (index : Fin numbers.length) :
    ∃ value after, mark maxGapCount detector (callOf numbers index) = (.ok value, after) ∧
      (value = true ↔ Covers detector.gaps (numberOf numbers index)) ∧
      Tracks maxGapCount numbers first (delivered ++ [index]) after := by
  have hfinite : numberOf numbers index < infinity := finite_lt_infinity (numbers.get index)
  have hnumber : finite (callOf numbers index).number = numberOf numbers index := rfl
  unfold mark
  rw [hnumber]
  rcases markAndCheck_cases htracks.toWellFormed htracks.count hfinite
    ((callOf numbers index).previousNumber.map finite) with ⟨err, -, low, hlow, hmisfit⟩ |
      ⟨heq, -, hunseen⟩ | ⟨-, hempty⟩ |
      ⟨front, gap, back, low, hgaps, hlow, hlt, hhigh, hvalue, heq⟩
  · exfalso
    have hindex : index.val ≠ 0 := by
      intro hzero
      simp [callOf, hzero] at hlow
    obtain ⟨previous, hprevious, hprev⟩ := previousNumber_callOf hindex
    obtain rfl := Option.some.inj (hlow.symm.trans hprev)
    obtain ⟨gap, hgap, hover | hunder⟩ :=
      hmisfit (hascends.lt_iff.mpr (Fin.lt_def.mpr (by omega)))
    · exact (htracks.fits hascends hprevious hgap).1 hover.2
    · exact (htracks.fits hascends hprevious hgap).2 hunder
  · have hnot : ¬ Covers detector.gaps (numberOf numbers index) := by
      by_cases hindex : index.val = 0
      · intro hcovers
        have hnewer := Fin.lt_def.mp (htracks.covered index hcovers).1
        omega
      · obtain ⟨previous, -, hprev⟩ := previousNumber_callOf hindex
        exact hunseen (hprev ▸ nofun)
    exact ⟨false, detector, heq, by simp [hnot], htracks.deliver_seen hnot⟩
  · exact absurd hempty htracks.begun
  · have hgapMem : gap ∈ detector.gaps := hgaps ▸ List.mem_append_right _ List.mem_cons_self
    have hindex : index.val ≠ 0 := by
      intro hzero
      obtain ⟨bound, hbound⟩ := htracks.lower gap hgapMem
      have hbelow := hlow.trans_lt hlt
      rw [hbound, hascends.lt_iff, Fin.lt_def] at hbelow
      omega
    obtain ⟨previous, hprevious, hprev⟩ := previousNumber_callOf hindex
    obtain rfl := hvalue _ hprev
    have hcovered : Covers detector.gaps (numberOf numbers index) :=
      ⟨gap, hgapMem, hlow.trans_lt hlt, hhigh⟩
    exact ⟨true, _, heq, iff_of_true rfl hcovered,
      htracks.deliver_carved hascends hmax hprevious hgaps hlow hhigh⟩

/-- The gaps are related to any deliveries, the first of which was `first`. -/
theorem Tracks.run (hascends : Ascends numbers) (hmax : 1 ≤ maxGapCount)
    (htracks : Tracks maxGapCount numbers first delivered detector)
    (later : List (Fin numbers.length)) :
    Tracks maxGapCount numbers first (delivered ++ later)
      ((later.map (callOf numbers)).foldl
        (fun detector call ↦ (mark maxGapCount detector call).2) detector) := by
  induction later generalizing delivered detector with
  | nil => exact (List.append_nil delivered).symm ▸ htracks
  | cons index later ih =>
    obtain ⟨value, after, hmark, -, hafter⟩ := htracks.deliver hascends hmax index
    have hrest := ih hafter
    rw [List.append_assoc, List.singleton_append] at hrest
    rw [List.map_cons, List.foldl_cons, hmark]
    exact hrest

/-- Messages of a chain with strictly ascending numbers are delivered in any order and with any
repetitions. After the deliveries `before`, the delivery of the message `index` is answered and
never throws. As long as no gap was dropped, the answer is `true` exactly when the message is newer
than the first one that was delivered (or is that first one) and was not delivered before. In any
case it is `true` only if the message was not delivered before, and `false` for a newer message that
was not delivered only if its number lies in a gap that was dropped. -/
theorem answers_of_chain {maxGapCount : ℕ} (hmax : 1 ≤ maxGapCount)
    {numbers : List (Number × Number)}
    (hascends : numbers.Pairwise fun earlier later ↦ finite earlier < finite later)
    (before : List (Fin numbers.length)) (index : Fin numbers.length) :
    ∃ value, answer maxGapCount (before.map (callOf numbers)) (callOf numbers index) = .ok value ∧
      ((detectorAfter maxGapCount (before.map (callOf numbers))).dropped = [] →
        (value = true ↔
          (∀ first, (before ++ [index]).head? = some first → first ≤ index) ∧ index ∉ before)) ∧
      (value = true → index ∉ before) ∧
      (value = false → index ∉ before → (∀ first, before.head? = some first → first < index) →
        Covers (detectorAfter maxGapCount (before.map (callOf numbers))).dropped
          (finite (numbers.get index))) := by
  cases before with
  | nil =>
    obtain ⟨detector, hmark, -⟩ := tracks_first hascends hmax index
    refine ⟨true, congrArg Prod.fst hmark, fun _ ↦ ?_, fun _ ↦ List.not_mem_nil, nofun⟩
    simp
  | cons first later =>
    obtain ⟨detector, hmark, hfirst⟩ := tracks_first hascends hmax first
    have hdetector : detectorAfter maxGapCount ((first :: later).map (callOf numbers)) =
        (later.map (callOf numbers)).foldl
          (fun detector call ↦ (mark maxGapCount detector call).2) detector := by
      rw [detectorAfter, List.map_cons, List.foldl_cons, hmark]
    have htracks := hfirst.run hascends hmax later
    rw [← hdetector, List.singleton_append] at htracks
    obtain ⟨value, after, hdelivered, hvalue, -⟩ := htracks.deliver hascends hmax index
    refine ⟨value, congrArg Prod.fst hdelivered, fun hnone ↦ ?_, fun htrue ↦ ?_,
      fun hfalse hfresh hnewer ↦ ?_⟩
    · rw [hvalue]
      refine ⟨fun hcovers ↦ ?_, fun hfresh ↦ ?_⟩
      · obtain ⟨hnewer, hundelivered⟩ := htracks.covered index hcovers
        refine ⟨fun other hother ↦ ?_, hundelivered⟩
        rw [List.cons_append, List.head?_cons, Option.some.injEq] at hother
        exact hother ▸ hnewer.le
      · have hle : first ≤ index := hfresh.1 first rfl
        have hne : first ≠ index := fun heq ↦ hfresh.2 (heq ▸ List.mem_cons_self)
        refine (htracks.missing index (lt_of_le_of_ne hle hne) hfresh.2).resolve_right ?_
        rintro ⟨gap, hgap, -⟩
        rw [hnone] at hgap
        cases hgap
    · exact (htracks.covered index (hvalue.mp htrue)).2
    · refine (htracks.missing index (hnewer first rfl) hfresh).resolve_left fun hcovers ↦ ?_
      rw [hvalue.mpr hcovers] at hfalse
      cases hfalse

/-- Of four messages the second one was delivered, then the fourth; the third is delivered. -/
theorem answers_of_chain_late :
    let numbers : List (ℕ × ℕ) := [(1, 0), (1, 1), (2, 0), (5, 0)]
    ∃ value, answer 1 (([1, 3] : List (Fin 4)).map (callOf numbers)) (callOf numbers 2) =
        .ok value ∧ (value = true → (2 : Fin 4) ∉ ([1, 3] : List (Fin 4))) ∧
      (value = false → Covers (detectorAfter 1 (([1, 3] : List (Fin 4)).map
        (callOf numbers))).dropped (finite (2, 0))) := by
  intro numbers
  obtain ⟨value, hvalue, -, htrue, hfalse⟩ :=
    @answers_of_chain ℕ _ 1 le_rfl numbers (by decide) [1, 3] 2
  exact ⟨value, hvalue, htrue, fun hseen ↦ hfalse hseen (by decide) (by decide)⟩

/-- With no gap allowed, the only gap is dropped, and a message that was delivered is taken for the
first one. -/
theorem delivered_twice_without_gaps :
    let numbers : List (ℕ × ℕ) := [(0, 0), (1, 0)]
    answer 0 (([0, 1] : List (Fin 2)).map (callOf numbers)) (callOf numbers 1) = .ok true ∧
      (1 : Fin 2) ∈ ([0, 1] : List (Fin 2)) := by
  exact ⟨by decide, by decide⟩

end PomboStorageNode.TrackerlessNetwork.DuplicateMessageDetector
