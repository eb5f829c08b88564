import PomboStorageNode.Library.JsNumber
import PomboStorageNode.Library.Binary64
import Mathlib.Data.List.TakeWhile

/-!
# Numbers read from texts

`stringToNumber` is the conversion of a text to a number in the host language. It strips white
space, reads an empty text as zero, and takes signs, fractions, exponents, the word `Infinity` and
the prefixes of three other bases, so many texts stand for one number. `eq_toDigits_iff` is the
exception: of the texts that are read as a small natural number exactly one is a numeral, its own
decimal expansion. Negative zero is not told apart from zero.
-/

set_option autoImplicit false

namespace PomboStorageNode.Library.NumberText

open Binary64

/-! ### Conversion -/

/-- White space and line terminators. -/
def isWhiteSpace (character : Char) : Bool :=
  let code := character.toNat
  (9 ≤ code && code ≤ 13) || (0x2000 ≤ code && code ≤ 0x200a) ||
    code ∈ [0x20, 0xa0, 0x1680, 0x2028, 0x2029, 0x202f, 0x205f, 0x3000, 0xfeff]

/-- The text without the white space at its two ends. -/
def trim (text : List Char) : List Char :=
  ((text.dropWhile isWhiteSpace).reverse.dropWhile isWhiteSpace).reverse

/-- What a digit or letter stands for; other characters are above every base. -/
def digitValue (character : Char) : ℕ :=
  let code := character.toNat
  if 48 ≤ code ∧ code ≤ 57 then code - 48
  else if 97 ≤ code ∧ code ≤ 122 then code - 87
  else if 65 ≤ code ∧ code ≤ 90 then code - 55
  else 36

/-- The number that a non-empty sequence of digits stands for. -/
def natural (base : ℕ) (digits : List Char) : Option ℕ :=
  if digits ≠ [] ∧ digits.all (fun digit ↦ digitValue digit < base) = true then
    some (digits.foldl (fun value digit ↦ base * value + digitValue digit) 0)
  else none

/-- A sequence of digits behind an optional sign. -/
def signedInteger : List Char → Option ℤ
  | '-' :: digits => (natural 10 digits).map fun value ↦ -value
  | '+' :: digits => (natural 10 digits).map fun value ↦ value
  | digits => (natural 10 digits).map fun value ↦ value

/-- A number times a power of ten. -/
def shift (digits : ℕ) : ℤ → ℚ
  | .ofNat places => digits * 10 ^ places
  | .negSucc places => digits / 10 ^ (places + 1)

/-- The value of a decimal literal without a sign: digits with at most one point and at most one
exponent. -/
def decimal (text : List Char) : Option ℚ :=
  let isMantissa (character : Char) : Bool := character ≠ 'e' && character ≠ 'E'
  let mantissa := text.takeWhile isMantissa
  let whole := mantissa.takeWhile fun character ↦ character ≠ '.'
  let fraction := (mantissa.dropWhile fun character ↦ character ≠ '.').tail
  let power :=
    match text.dropWhile isMantissa with
    | [] => some 0
    | _ :: digits => signedInteger digits
  match natural 10 (whole ++ fraction), power with
  | some digits, some power => some (shift digits (power - fraction.length))
  | _, _ => none

/-- The nearest number of unlimited size. Below the normal numbers neighbours are equally far
apart. -/
def nearest (value : ℚ) : ℚ :=
  if |value| < twoPow (-1022) then roundHalfEven (value / twoPow (-1074)) * twoPow (-1074)
  else Binary64.round value

/-- The number nearest to a rational; what is rounded above the greatest number is infinite. -/
def ofRat (value : ℚ) : JsNumber :=
  if twoPow 1024 ≤ nearest value then .positiveInfinity
  else if nearest value ≤ -twoPow 1024 then .negativeInfinity
  else .finite (nearest value)

/-- A decimal literal behind its sign. -/
def signed (negative : Bool) (text : List Char) : JsNumber :=
  if text = "Infinity".toList then
    if negative then .negativeInfinity else .positiveInfinity
  else
    match decimal text with
    | some value => ofRat (if negative then -value else value)
    | none => .nan

/-- The base that a letter behind a leading zero announces. -/
def radix (letter : Char) : Option ℕ :=
  if letter = 'b' ∨ letter = 'B' then some 2
  else if letter = 'o' ∨ letter = 'O' then some 8
  else if letter = 'x' ∨ letter = 'X' then some 16
  else none

/-- An integer literal in another base, which has no sign. -/
def nonDecimal (base : ℕ) (digits : List Char) : JsNumber :=
  match natural base digits with
  | some value => ofRat value
  | none => .nan

/-- `Number`, of a text. -/
def stringToNumber (text : List Char) : JsNumber :=
  match trim text with
  | [] => .finite 0
  | '+' :: rest => signed false rest
  | '-' :: rest => signed true rest
  | '0' :: letter :: digits =>
    match radix letter with
    | some base => nonDecimal base digits
    | none => signed false ('0' :: letter :: digits)
  | rest => signed false rest

example : stringToNumber " -1.5e1\n".toList = .finite (-15) := by decide +kernel

example : stringToNumber "0x1F".toList = .finite 31 := by decide +kernel

example : stringToNumber "1e400".toList = .positiveInfinity := by decide +kernel

example : stringToNumber "1_0".toList = .nan := by decide +kernel

/-! ### Numerals -/

/-- The codes of the digits. -/
theorem toNat_of_isDigit {character : Char} (hdigit : character.isDigit = true) :
    48 ≤ character.toNat ∧ character.toNat ≤ 57 := by
  simpa [Char.isDigit, UInt32.le_iff_toNat_le] using hdigit

/-- A digit is none of the other characters of a literal. -/
theorem ne_of_isDigit {character other : Char} (hdigit : character.isDigit = true)
    (hother : other.isDigit = false) : character ≠ other := by
  rintro rfl
  exact Bool.false_ne_true (hother.symm.trans hdigit)

theorem isWhiteSpace_of_isDigit {character : Char} (hdigit : character.isDigit = true) :
    isWhiteSpace character = false := by
  have hcode := toNat_of_isDigit hdigit
  simp only [isWhiteSpace, List.mem_cons, List.not_mem_nil, or_false, Bool.or_eq_false_iff,
    Bool.and_eq_false_iff, decide_eq_false_iff_not]
  omega

theorem radix_of_isDigit {character : Char} (hdigit : character.isDigit = true) :
    radix character = none := by
  rw [radix, if_neg, if_neg, if_neg]
  · exact not_or.mpr ⟨ne_of_isDigit hdigit rfl, ne_of_isDigit hdigit rfl⟩
  · exact not_or.mpr ⟨ne_of_isDigit hdigit rfl, ne_of_isDigit hdigit rfl⟩
  · exact not_or.mpr ⟨ne_of_isDigit hdigit rfl, ne_of_isDigit hdigit rfl⟩

theorem digitValue_of_isDigit {character : Char} (hdigit : character.isDigit = true) :
    digitValue character = character.toNat - '0'.toNat := by
  have hcode := toNat_of_isDigit hdigit
  simp only [digitValue, if_pos hcode]
  rfl

/-- A text without white space is not trimmed. -/
theorem trim_eq_self {text : List Char} (htext : ∀ c ∈ text, isWhiteSpace c = false) :
    trim text = text := by
  have hdrop : ∀ text : List Char, (∀ c ∈ text, isWhiteSpace c = false) →
      text.dropWhile isWhiteSpace = text := by
    intro text htext
    cases text with
    | nil => rfl
    | cons first rest =>
      rw [List.dropWhile_cons_of_neg]
      exact Bool.not_eq_true _ ▸ htext first List.mem_cons_self
  rw [trim, hdrop text htext, hdrop _ fun c hmem ↦ htext c (List.mem_reverse.mp hmem),
    List.reverse_reverse]

section Digits

variable {text : List Char} (hne : text ≠ []) (hdigits : text.all Char.isDigit = true)

include hne hdigits

theorem natural_of_isDigit : natural 10 text = some (Nat.ofDigitChars 10 text 0) := by
  have hall : ∀ c ∈ text, c.isDigit = true := List.all_eq_true.mp hdigits
  have hvalue : ∀ (text : List Char) (start : ℕ), (∀ c ∈ text, c.isDigit = true) →
      text.foldl (fun value digit ↦ 10 * value + digitValue digit) start =
        Nat.ofDigitChars 10 text start := by
    intro text
    induction text with
    | nil => exact fun _ _ ↦ rfl
    | cons first rest ih =>
      intro start hall
      rw [List.foldl_cons, Nat.ofDigitChars_cons,
        digitValue_of_isDigit (hall first List.mem_cons_self)]
      exact ih _ fun c hmem ↦ hall c (List.mem_cons_of_mem first hmem)
  rw [natural, if_pos, hvalue text 0 hall]
  refine ⟨hne, List.all_eq_true.mpr fun c hmem ↦ decide_eq_true ?_⟩
  have hcode := toNat_of_isDigit (hall c hmem)
  rw [digitValue_of_isDigit (hall c hmem)]
  change c.toNat - 48 < 10
  omega

theorem decimal_of_isDigit : decimal text = some (Nat.ofDigitChars 10 text 0 : ℕ) := by
  have hall : ∀ c ∈ text, c.isDigit = true := List.all_eq_true.mp hdigits
  have hmantissa : text.all (fun c ↦ c ≠ 'e' && c ≠ 'E') = true := by
    refine List.all_eq_true.mpr fun c hmem ↦ ?_
    have he : c ≠ 'e' := ne_of_isDigit (hall c hmem) rfl
    have hE : c ≠ 'E' := ne_of_isDigit (hall c hmem) rfl
    simp [he, hE]
  have hwhole : text.all (fun c ↦ c ≠ '.') = true := by
    refine List.all_eq_true.mpr fun c hmem ↦ ?_
    have hpoint : c ≠ '.' := ne_of_isDigit (hall c hmem) rfl
    simp [hpoint]
  have htake : ∀ {isPart : Char → Bool}, text.all isPart = true →
      text.takeWhile isPart = text ∧ text.dropWhile isPart = [] := by
    intro isPart hpart
    exact ⟨List.takeWhile_eq_self_iff.mpr (List.all_eq_true.mp hpart),
      List.dropWhile_eq_nil_iff.mpr (List.all_eq_true.mp hpart)⟩
  simp only [decimal, (htake hmantissa).1, (htake hmantissa).2, (htake hwhole).1,
    (htake hwhole).2, List.tail_nil, List.append_nil, natural_of_isDigit hne hdigits,
    List.length_nil]
  simp [shift]

/-- A sequence of digits is read as the number it stands for. -/
theorem stringToNumber_of_isDigit :
    stringToNumber text = ofRat (Nat.ofDigitChars 10 text 0 : ℕ) := by
  have hall : ∀ c ∈ text, c.isDigit = true := List.all_eq_true.mp hdigits
  have hsigned : signed false text = ofRat (Nat.ofDigitChars 10 text 0 : ℕ) := by
    rw [signed, if_neg, decimal_of_isDigit hne hdigits]
    · rfl
    · rintro rfl
      exact absurd hdigits (by decide)
  rw [stringToNumber, trim_eq_self fun c hmem ↦ isWhiteSpace_of_isDigit (hall c hmem)]
  split
  · exact absurd rfl hne
  · exact absurd (hall '+' List.mem_cons_self) (by decide)
  · exact absurd (hall '-' List.mem_cons_self) (by decide)
  · rename_i letter digits
    have hletter := hall letter (List.mem_cons_of_mem _ List.mem_cons_self)
    rw [radix_of_isDigit hletter]
    exact hsigned
  · exact hsigned

end Digits

/-! ### One numeral for each number -/

/-- A decimal numeral: digits, of which the first is no zero unless it is the only one. -/
def isNumeral (text : List Char) : Bool :=
  text = ['0'] ∨ text ≠ [] ∧ text.head? ≠ some '0' ∧ text.all Char.isDigit = true

theorem isNumeral_iff {text : List Char} : isNumeral text = true ↔
    text ≠ [] ∧ text.all Char.isDigit = true ∧ (text.head? = some '0' → text = ['0']) := by
  rw [isNumeral, decide_eq_true_eq]
  constructor
  · rintro (rfl | ⟨hne, hhead, hdigits⟩)
    · exact ⟨List.cons_ne_nil _ _, rfl, fun _ ↦ rfl⟩
    · exact ⟨hne, hdigits, fun hzero ↦ absurd hzero hhead⟩
  · rintro ⟨hne, hdigits, hzero⟩
    by_cases hhead : text.head? = some '0'
    · exact .inl (hzero hhead)
    · exact .inr ⟨hne, hhead, hdigits⟩

theorem digitChar_of_isDigit {character : Char} (hdigit : character.isDigit = true) :
    Nat.digitChar (character.toNat - '0'.toNat) = character := by
  have hcode := toNat_of_isDigit hdigit
  apply Char.toNat_inj.mp
  change (Nat.digitChar (character.toNat - 48)).toNat = _
  rw [Nat.toNat_digitChar_of_lt_ten (by omega)]
  omega

/-- More digits behind a positive number. -/
theorem toDigits_append {text : List Char} {start : ℕ} (hstart : 0 < start)
    (hdigits : ∀ c ∈ text, c.isDigit = true) :
    Nat.toDigits 10 start ++ text = Nat.toDigits 10 (Nat.ofDigitChars 10 text start) := by
  induction text generalizing start with
  | nil => rw [List.append_nil, Nat.ofDigitChars_nil]
  | cons first rest ih =>
    have hfirst := hdigits first List.mem_cons_self
    have hcode := toNat_of_isDigit hfirst
    have hdigit : first.toNat - '0'.toNat < 10 := by
      change first.toNat - 48 < 10
      omega
    have hnext := Nat.toDigits_append_toDigits (b := 10) (by decide) hstart hdigit
    rw [Nat.toDigits_of_lt_base hdigit, digitChar_of_isDigit hfirst] at hnext
    rw [Nat.ofDigitChars_cons, ← ih (by omega) fun c hmem ↦ hdigits c (List.mem_cons_of_mem _ hmem),
      ← hnext, List.append_assoc, List.singleton_append]

/-- A numeral is the decimal expansion of the number it stands for. -/
theorem toDigits_ofDigitChars {text : List Char} (hnumeral : isNumeral text = true) :
    Nat.toDigits 10 (Nat.ofDigitChars 10 text 0) = text := by
  obtain ⟨hne, hdigits, hzero⟩ := isNumeral_iff.mp hnumeral
  have hall : ∀ c ∈ text, c.isDigit = true := List.all_eq_true.mp hdigits
  cases text with
  | nil => exact absurd rfl hne
  | cons first rest =>
    have hfirst := hall first List.mem_cons_self
    by_cases hhead : first = '0'
    · rw [hzero (congrArg some hhead)]
      rfl
    · have hcode := toNat_of_isDigit hfirst
      have hpos : 0 < first.toNat - '0'.toNat := by
        have hne : first.toNat ≠ 48 := fun heq ↦ hhead (Char.toNat_inj.mp heq)
        change 0 < first.toNat - 48
        omega
      have hlt : first.toNat - '0'.toNat < 10 := by
        change first.toNat - 48 < 10
        omega
      rw [Nat.ofDigitChars_cons, Nat.mul_zero, Nat.zero_add,
        ← toDigits_append hpos fun c hmem ↦ hall c (List.mem_cons_of_mem _ hmem),
        Nat.toDigits_of_lt_base hlt, digitChar_of_isDigit hfirst, List.singleton_append]

theorem isNumeral_toDigits (number : ℕ) : isNumeral (Nat.toDigits 10 number) = true := by
  refine isNumeral_iff.mpr ⟨Nat.toDigits_ne_nil, List.all_eq_true.mpr fun c hmem ↦
    Nat.isDigit_of_mem_toDigits (by decide) (by decide) hmem, ?_⟩
  induction number using Nat.strong_induction_on with
  | h number ih =>
    rw [Nat.toDigits_eq_if (by decide)]
    split_ifs with hsmall
    · intro hhead
      exact congrArg (fun first ↦ [first]) (Option.some.inj hhead)
    · intro hhead
      rw [List.head?_append_of_ne_nil _ Nat.toDigits_ne_nil] at hhead
      have hfront := congrArg (Nat.ofDigitChars 10 · 0) (ih (number / 10) (by omega) hhead)
      have hzero : number / 10 = 0 := Nat.ofDigitChars_ten_toDigits.symm.trans hfront
      omega

/-! ### Small numbers -/

/-- Natural numbers are not below the normal numbers. -/
theorem nearest_natCast (number : ℕ) : nearest number = Binary64.round number := by
  unfold nearest
  split_ifs with hsmall
  · have hlt : (number : ℚ) < 1 := by
      rw [Nat.abs_cast, twoPow_eq] at hsmall
      exact hsmall.trans (zpow_lt_one_of_neg₀ (by norm_num) (by norm_num))
    obtain rfl : number = 0 := Nat.lt_one_iff.mp (by exact_mod_cast hlt)
    rw [Nat.cast_zero, zero_div, Binary64.round, if_pos rfl]
    have hzero := roundHalfEven_intCast 0
    rw [Int.cast_zero] at hzero
    rw [hzero, Int.cast_zero, zero_mul]
  · rfl

/-- Integers of at most 53 digits are read exactly. -/
theorem ofRat_natCast {number : ℕ} (hsmall : number < 2 ^ 53) :
    ofRat number = .finite number := by
  have hround : nearest number = number := by
    rw [nearest_natCast]
    have hexact := @round_intCast number (by rw [Nat.abs_cast]; exact_mod_cast hsmall)
    exact_mod_cast hexact
  have hbound : (number : ℚ) < twoPow 1024 := by
    have hlt : (number : ℚ) < 2 ^ (53 : ℤ) := by exact_mod_cast hsmall
    rw [twoPow_eq]
    exact hlt.trans (zpow_lt_zpow_right₀ (by norm_num) (by norm_num))
  have hneg : -twoPow 1024 < number := by
    have hnonneg : (0 : ℚ) ≤ number := Nat.cast_nonneg number
    linarith
  rw [ofRat, hround, if_neg hbound.not_ge, if_neg hneg.not_ge]

/-- A greater integer is not read as a smaller one. -/
theorem eq_of_ofRat_natCast {number value : ℕ} (hvalue : value < 2 ^ 53 - 1)
    (hread : ofRat number = .finite value) : number = value := by
  by_cases hsmall : number < 2 ^ 53
  · rw [ofRat_natCast hsmall] at hread
    exact_mod_cast JsNumber.finite.inj hread
  · have hnearest : Binary64.round number = value := by
      rw [ofRat, nearest_natCast] at hread
      split_ifs at hread
      exact JsNumber.finite.inj hread
    have herror := (abs_le.mp (abs_round_sub_le (number : ℚ))).1
    rw [hnearest, Nat.abs_cast] at herror
    have hlarge : (2 : ℚ) ^ 53 ≤ number := by exact_mod_cast not_lt.mp hsmall
    have hless : (value : ℚ) < 2 ^ 53 - 1 := by
      have hsucc : value + 1 < 2 ^ 53 := by omega
      have hcast : (value : ℚ) + 1 < 2 ^ 53 := by exact_mod_cast hsucc
      linarith
    linarith

/-- Of the texts that are read as a small natural number exactly one is a numeral. -/
theorem eq_toDigits_iff {text : List Char} {value : ℕ} (hvalue : value < 2 ^ 53 - 1) :
    text = Nat.toDigits 10 value ↔
      isNumeral text = true ∧ stringToNumber text = .finite value := by
  constructor
  · rintro rfl
    have hnumeral := isNumeral_toDigits value
    obtain ⟨hne, hdigits, -⟩ := isNumeral_iff.mp hnumeral
    rw [stringToNumber_of_isDigit hne hdigits, Nat.ofDigitChars_ten_toDigits]
    exact ⟨hnumeral, ofRat_natCast (hvalue.trans (by norm_num))⟩
  · rintro ⟨hnumeral, hread⟩
    obtain ⟨hne, hdigits, -⟩ := isNumeral_iff.mp hnumeral
    rw [stringToNumber_of_isDigit hne hdigits] at hread
    rw [← eq_of_ofRat_natCast hvalue hread, toDigits_ofDigitChars hnumeral]

end PomboStorageNode.Library.NumberText
