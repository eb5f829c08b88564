import PomboStorageNode.Library.NumberText

/-!
# Integers as texts

`parseInt` reads an integer off the front of a text and ignores what follows, in the host language.
The texts that `numberToString` makes of the integers that doubles represent one by one are read
back (`parseInt_numberToString`).
-/

set_option autoImplicit false

namespace PomboStorageNode.Library.IntegerText

open Binary64 NumberText

/-- `Number.isSafeInteger`: doubles represent the number and none of its neighbours as it. -/
abbrev SafeInteger := {value : ℤ // |value| < 2 ^ 53}

/-- `String`, of a safe integer. -/
def numberToString (value : ℤ) : String :=
  String.ofList (if value < 0 then '-' :: Nat.toDigits 10 value.natAbs
    else Nat.toDigits 10 value.natAbs)

/-- The digits at the front of a text without a sign, in the base that a prefix announces. -/
def leadingDigits : List Char → Option ℕ
  | '0' :: 'x' :: rest | '0' :: 'X' :: rest =>
    natural 16 (rest.takeWhile fun digit ↦ digitValue digit < 16)
  | rest => natural 10 (rest.takeWhile fun digit ↦ digitValue digit < 10)

/-- The number at the front of a text, behind its sign. -/
def parseDigits (negative : Bool) (text : List Char) : JsNumber :=
  match leadingDigits text with
  | some value => ofRat (if negative then -(value : ℤ) else (value : ℤ) : ℤ)
  | none => .nan

/-- `parseInt`, without a radix. -/
def parseInt (text : String) : JsNumber :=
  match text.toList.dropWhile isWhiteSpace with
  | '-' :: rest => parseDigits true rest
  | '+' :: rest => parseDigits false rest
  | rest => parseDigits false rest

example : parseInt " -12.5px" = .finite (-12) := by decide +kernel

example : parseInt "0x1Fg" = .finite 31 := by decide +kernel

example : parseInt "px" = .nan := by decide +kernel

/-- Integers are not below the normal numbers. -/
theorem nearest_intCast {value : ℤ} (hsafe : |value| < 2 ^ 53) : nearest value = value := by
  unfold nearest
  split_ifs with hsmall
  · have hlt : (|value| : ℚ) < 1 := by
      rw [twoPow_eq] at hsmall
      exact hsmall.trans (zpow_lt_one_of_neg₀ (by norm_num) (by norm_num))
    have habs : |value| < 1 := by exact_mod_cast hlt
    obtain rfl : value = 0 := Int.abs_lt_one_iff.mp habs
    have hzero := roundHalfEven_intCast 0
    rw [Int.cast_zero] at hzero ⊢
    rw [zero_div, hzero, Int.cast_zero, zero_mul]
  · exact round_intCast hsafe

theorem ofRat_intCast {value : ℤ} (hsafe : |value| < 2 ^ 53) : ofRat value = .finite value := by
  have hbound : (|value| : ℚ) < twoPow 1024 := by
    have hlt : (|value| : ℚ) < 2 ^ (53 : ℤ) := by exact_mod_cast hsafe
    rw [twoPow_eq]
    exact hlt.trans (zpow_lt_zpow_right₀ (by norm_num) (by norm_num))
  obtain ⟨hlower, hupper⟩ := abs_lt.mp hbound
  rw [ofRat, nearest_intCast hsafe, if_neg hupper.not_ge, if_neg hlower.not_ge]

theorem leadingDigits_toDigits (number : ℕ) :
    leadingDigits (Nat.toDigits 10 number) = some number := by
  obtain ⟨hne, hdigits, -⟩ := isNumeral_iff.mp (isNumeral_toDigits number)
  have hall : ∀ c ∈ Nat.toDigits 10 number, c.isDigit = true := List.all_eq_true.mp hdigits
  have htake : (Nat.toDigits 10 number).takeWhile (fun digit ↦ digitValue digit < 10) =
      Nat.toDigits 10 number := by
    refine List.takeWhile_eq_self_iff.mpr fun c hmem ↦ decide_eq_true ?_
    have hcode := toNat_of_isDigit (hall c hmem)
    rw [digitValue_of_isDigit (hall c hmem)]
    change c.toNat - 48 < 10
    omega
  have hnatural : natural 10 (Nat.toDigits 10 number) = some number := by
    rw [natural_of_isDigit hne hdigits, Nat.ofDigitChars_ten_toDigits]
  unfold leadingDigits
  split
  · rename_i rest heq
    exact absurd (hall 'x' (heq ▸ List.mem_cons_of_mem _ List.mem_cons_self)) (by decide)
  · rename_i rest heq
    exact absurd (hall 'X' (heq ▸ List.mem_cons_of_mem _ List.mem_cons_self)) (by decide)
  · rw [htake, hnatural]

/-- The text of a safe integer is read as this integer. -/
theorem parseInt_numberToString {value : ℤ} (hsafe : |value| < 2 ^ 53) :
    parseInt (numberToString value) = .finite value := by
  have hhead : ∃ first rest, Nat.toDigits 10 value.natAbs = first :: rest ∧
      first.isDigit = true := by
    obtain ⟨hne, hdigits, -⟩ := isNumeral_iff.mp (isNumeral_toDigits value.natAbs)
    obtain ⟨first, rest, hcons⟩ := List.exists_cons_of_ne_nil hne
    exact ⟨first, rest, hcons, List.all_eq_true.mp hdigits _ (hcons ▸ List.mem_cons_self)⟩
  obtain ⟨first, rest, hcons, hfirst⟩ := hhead
  have hread (negative : Bool) : parseDigits negative (first :: rest) =
      ofRat (if negative then -(value.natAbs : ℤ) else (value.natAbs : ℤ) : ℤ) := by
    rw [parseDigits, ← hcons, leadingDigits_toDigits]
  rw [parseInt, numberToString, String.toList_ofList, hcons]
  split_ifs with hnegative
  · rw [List.dropWhile_cons_of_neg (by decide)]
    refine (hread true).trans ?_
    rw [if_pos rfl, show -(value.natAbs : ℤ) = value by omega, ofRat_intCast hsafe]
  · rw [List.dropWhile_cons_of_neg (Bool.not_eq_true _ ▸ isWhiteSpace_of_isDigit hfirst)]
    have hpositive : parseDigits false (first :: rest) = .finite value := by
      rw [hread false, if_neg Bool.false_ne_true,
        show (value.natAbs : ℤ) = value by omega, ofRat_intCast hsafe]
    split
    · rename_i heq
      exact absurd hfirst ((List.cons.inj heq).1 ▸ by decide)
    · rename_i heq
      exact absurd hfirst ((List.cons.inj heq).1 ▸ by decide)
    · exact hpositive

end PomboStorageNode.Library.IntegerText
