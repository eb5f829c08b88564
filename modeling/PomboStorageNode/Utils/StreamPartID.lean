import PomboStorageNode.Library.Delimited
import PomboStorageNode.Library.NumberText
import PomboStorageNode.Library.Throwing
import PomboStorageNode.Utils

/-!
# Stream part ids

`parse` accepts a text when the part before its last `#` is a stream id and the part behind it
converts to a valid partition, and returns the text as it stands. It neither uses the normal form
that `toStreamID` made of the id nor asks how the partition was written, so a text that it accepts
need not be the one that `toStreamPartID` makes. `InNormalForm` says which texts are, and
`parse_canonical_iff` that the accepted texts are the ids that `toStreamPartID` makes exactly where
what is accepted is in normal form.

Texts are lists of characters, and `toLowerCase` may be any function on them.
-/

set_option autoImplicit false

namespace PomboStorageNode.Utils.StreamPartID

open Library Library.Delimited Library.NumberText

/-! ### Errors -/

/-- The errors that are thrown. -/
inductive IdError
  /-- `stream id may not be empty` -/
  | emptyStreamID
  /-- `path-only format "…" provided without domain` -/
  | pathOnlyWithoutDomain (streamIdOrPath : List Char)
  /-- `not a valid Ethereum address: "…"` -/
  | notEthereumAddress (text : List Char)
  /-- `invalid streamPartId string: …` -/
  | invalidStreamPartID (streamPartIdAsStr : List Char)
  /-- `invalid streamPartition value: …` -/
  | invalidStreamPartition (streamPartition : Option JsNumber)
  deriving DecidableEq

/-! ### Partitions -/

/-- `MAX_PARTITION_COUNT`. -/
def maxPartitionCount : ℕ := 100

/-- `Number.isSafeInteger`. -/
def isSafeInteger : JsNumber → Bool
  | .finite value => value.den = 1 ∧ |value| ≤ 2 ^ 53 - 1
  | _ => false

/-- `ensureValidStreamPartitionIndex`; it returns the partition as a natural number. -/
def ensureValidStreamPartitionIndex (streamPartition : Option JsNumber) : Except IdError ℕ :=
  match streamPartition with
  | some (.finite value) =>
    if isSafeInteger (.finite value) = false ∨ value < 0 ∨ (maxPartitionCount : ℚ) ≤ value then
      .error (.invalidStreamPartition streamPartition)
    else .ok value.num.toNat
  | _ => .error (.invalidStreamPartition streamPartition)

/-- The valid partitions are the natural numbers below the bound. -/
theorem ensureValidStreamPartitionIndex_eq_ok_iff {streamPartition : Option JsNumber}
    {index : ℕ} : ensureValidStreamPartitionIndex streamPartition = .ok index ↔
      streamPartition = some (.finite index) ∧ index < maxPartitionCount := by
  constructor
  · intro hvalid
    unfold ensureValidStreamPartitionIndex at hvalid
    split at hvalid
    · rename_i value
      split_ifs at hvalid with hinvalid
      simp only [not_or, not_lt, not_le, Bool.not_eq_false, isSafeInteger,
        decide_eq_true_eq] at hinvalid
      obtain ⟨⟨hden, -⟩, hnonneg, hlt⟩ := hinvalid
      have hvalue : (value.num.toNat : ℚ) = value := by
        have hnum : (value.num.toNat : ℤ) = value.num :=
          Int.toNat_of_nonneg (Rat.num_nonneg.mpr hnonneg)
        have hcast : (value.num.toNat : ℚ) = value.num := by exact_mod_cast hnum
        exact hcast.trans (Rat.coe_int_num_of_den_eq_one hden)
      obtain rfl := Except.ok.inj hvalid
      rw [hvalue]
      rw [← hvalue] at hlt
      exact ⟨rfl, by exact_mod_cast hlt⟩
    · cases hvalid
  · rintro ⟨rfl, hlt⟩
    have hrat : (index : ℚ) < maxPartitionCount := by exact_mod_cast hlt
    have hnonneg : (0 : ℚ) ≤ index := Nat.cast_nonneg index
    have hsafe : isSafeInteger (.finite index) = true := by
      refine decide_eq_true ⟨Rat.den_natCast index, ?_⟩
      rw [Nat.abs_cast]
      exact hrat.le.trans (by norm_num [maxPartitionCount])
    rw [ensureValidStreamPartitionIndex, if_neg, Rat.num_natCast, Int.toNat_natCast]
    rw [hsafe]
    exact not_or.mpr ⟨Bool.false_ne_true.symm, not_or.mpr ⟨hnonneg.not_gt, hrat.not_ge⟩⟩

/-! ### Stream ids -/

section Ids

variable (toLowerCase : List Char → List Char)

/-- `isENSNameFormatIgnoreCase`: there is a dot, and not at the start. -/
def isENSNameFormatIgnoreCase (text : List Char) : Bool :=
  match splitFirst '.' text with
  | some (before, _) => before ≠ []
  | none => false

/-- `toEthereumAddress`, on a list of characters. -/
def toEthereumAddress (text : List Char) : Except IdError (List Char) :=
  if isEthereumAddress (String.ofList text) = true then .ok (toLowerCase text)
  else .error (.notEthereumAddress text)

/-- `toEthereumAddressOrENSName`; the check of `toENSName` has been made. -/
def toEthereumAddressOrENSName (text : List Char) : Except IdError (List Char) :=
  if isENSNameFormatIgnoreCase text = true then .ok (toLowerCase text)
  else toEthereumAddress toLowerCase text

/-- `toStreamID`. -/
def toStreamID (streamIdOrPath : List Char) (domain : Option (List Char)) :
    Except IdError (List Char) :=
  if streamIdOrPath = [] then .error .emptyStreamID
  else
    match splitFirst '/' streamIdOrPath with
    | none => .ok streamIdOrPath
    | some ([], _) =>
      match domain with
      | none => .error (.pathOnlyWithoutDomain streamIdOrPath)
      | some domain => .ok (domain ++ streamIdOrPath)
    | some (name, path) =>
      (toEthereumAddressOrENSName toLowerCase name).map fun domain ↦ domain ++ '/' :: path

/-- `StreamIDUtils.getDomain`: the part before the first slash. -/
def getDomain (streamId : List Char) : Option (List Char) :=
  (splitFirst '/' streamId).map Prod.fst

/-! ### Stream part ids -/

/-- `toStreamPartID`. -/
def toStreamPartID (streamId : List Char) (streamPartition : Option JsNumber) :
    Except IdError (List Char) := do
  let index ← ensureValidStreamPartitionIndex streamPartition
  return streamId ++ '#' :: Nat.toDigits 10 index

/-- `StreamPartIDUtils.parseRawElements`. -/
def parseRawElements (text : List Char) : List Char × Option JsNumber :=
  match splitLast '#' text with
  | none => (text, none)
  | some (_, []) => (text, none)
  | some (streamId, streamPartition) => (streamId, some (stringToNumber streamPartition))

/-- `StreamPartIDUtils.parse`. -/
def parse (streamPartIdAsStr : List Char) : Except IdError (List Char) :=
  match parseRawElements streamPartIdAsStr with
  | (_, none) => .error (.invalidStreamPartID streamPartIdAsStr)
  | (streamId, some streamPartition) => do
    let _ ← toStreamID toLowerCase streamId none
    let _ ← ensureValidStreamPartitionIndex (some streamPartition)
    return streamPartIdAsStr

/-- `StreamPartIDUtils.getStreamID`. -/
def getStreamID (streamPartId : List Char) : List Char := (parseRawElements streamPartId).1

/-- `StreamPartIDUtils.getStreamPartition`. -/
def getStreamPartition (streamPartId : List Char) : Option JsNumber :=
  (parseRawElements streamPartId).2

/-- The parts of an accepted text. -/
structure Reads (text streamId partition : List Char) (index : ℕ) : Prop where
  text_eq : text = streamId ++ '#' :: partition
  notMem : '#' ∉ partition
  ne_nil : partition ≠ []
  valid : ∃ normal, toStreamID toLowerCase streamId none = .ok normal
  number : stringToNumber partition = .finite index
  lt : index < maxPartitionCount

variable {toLowerCase}

theorem parseRawElements_of_append {streamId partition : List Char} (hnotMem : '#' ∉ partition)
    (hne : partition ≠ []) : parseRawElements (streamId ++ '#' :: partition) =
      (streamId, some (stringToNumber partition)) := by
  rw [parseRawElements, splitLast_eq_some_iff.mpr ⟨rfl, hnotMem⟩]
  cases partition with
  | nil => exact absurd rfl hne
  | cons first rest => rfl

theorem Reads.parseRawElements {text streamId partition : List Char} {index : ℕ}
    (hreads : Reads toLowerCase text streamId partition index) :
    parseRawElements text = (streamId, some (.finite index)) := by
  rw [hreads.text_eq, parseRawElements_of_append hreads.notMem hreads.ne_nil, hreads.number]

theorem parseRawElements_eq_some {text streamId : List Char} {number : JsNumber}
    (hraw : parseRawElements text = (streamId, some number)) : ∃ partition,
      text = streamId ++ '#' :: partition ∧ '#' ∉ partition ∧ partition ≠ [] ∧
        number = stringToNumber partition := by
  unfold parseRawElements at hraw
  split at hraw
  · cases hraw
  · cases hraw
  · rename_i front partition hne hsplit
    obtain ⟨heq, hnotMem⟩ := splitLast_eq_some_iff.mp hsplit
    obtain ⟨rfl, hnumber⟩ := Prod.mk.inj hraw
    exact ⟨partition, heq, hnotMem, hne, (Option.some.inj hnumber).symm⟩

/-- What the parser accepts, it returns as it stands. -/
theorem parse_eq_ok_iff {text parsed : List Char} : parse toLowerCase text = .ok parsed ↔
    parsed = text ∧ ∃ streamId partition index,
      Reads toLowerCase text streamId partition index := by
  constructor
  · intro hparse
    unfold parse at hparse
    split at hparse
    · cases hparse
    · rename_i streamId number hraw
      obtain ⟨partition, heq, hnotMem, hne, rfl⟩ := parseRawElements_eq_some hraw
      obtain ⟨normal, hnormal, hparse⟩ := bind_eq_ok_iff.mp hparse
      obtain ⟨index, hindex, hparse⟩ := bind_eq_ok_iff.mp hparse
      obtain ⟨hnumber, hlt⟩ := ensureValidStreamPartitionIndex_eq_ok_iff.mp hindex
      exact ⟨(Except.ok.inj hparse).symm, streamId, partition, index, heq, hnotMem, hne,
        ⟨normal, hnormal⟩, Option.some.inj hnumber, hlt⟩
  · rintro ⟨rfl, streamId, partition, index, hreads⟩
    obtain ⟨normal, hnormal⟩ := hreads.valid
    have hindex := ensureValidStreamPartitionIndex_eq_ok_iff.mpr ⟨rfl, hreads.lt⟩
    rw [parse, hreads.parseRawElements]
    exact bind_eq_ok_iff.mpr ⟨normal, hnormal, bind_eq_ok_iff.mpr ⟨index, hindex, rfl⟩⟩

/-! ### Normal forms -/

variable (toLowerCase) in
/-- `toStreamPartID` makes the text of a stream id that `toStreamID` leaves as it is. -/
def IsCanonical (text : List Char) : Prop :=
  ∃ streamId index, toStreamID toLowerCase streamId none = .ok streamId ∧
    index < maxPartitionCount ∧ toStreamPartID streamId (some (.finite (index : ℕ))) = .ok text

variable (toLowerCase) in
/-- The partition is written as a numeral, and the domain of the stream id in lower case. -/
def InNormalForm (streamId partition : List Char) : Prop :=
  isNumeral partition = true ∧
    ∀ domain, getDomain streamId = some domain → toLowerCase domain = domain

theorem toEthereumAddressOrENSName_eq_ok {text normal : List Char}
    (hnormal : toEthereumAddressOrENSName toLowerCase text = .ok normal) :
    normal = toLowerCase text := by
  unfold toEthereumAddressOrENSName toEthereumAddress at hnormal
  split_ifs at hnormal
  · exact (Except.ok.inj hnormal).symm
  · exact (Except.ok.inj hnormal).symm

/-- `toStreamID` changes nothing but the domain. -/
theorem toStreamID_eq_ok {streamId normal : List Char}
    (hnormal : toStreamID toLowerCase streamId none = .ok normal) :
    normal = streamId ∧ getDomain streamId = none ∨ ∃ domain path,
      streamId = domain ++ '/' :: path ∧ getDomain streamId = some domain ∧
        normal = toLowerCase domain ++ '/' :: path := by
  unfold toStreamID at hnormal
  unfold getDomain
  split_ifs at hnormal
  split at hnormal
  · rename_i hsplit
    rw [hsplit]
    exact .inl ⟨(Except.ok.inj hnormal).symm, rfl⟩
  · cases hnormal
  · rename_i domain path _ hsplit
    cases hname : toEthereumAddressOrENSName toLowerCase domain with
    | error error =>
      rw [hname] at hnormal
      cases hnormal
    | ok name =>
      rw [hname] at hnormal
      rw [hsplit]
      refine .inr ⟨domain, path, (splitFirst_eq_some_iff.mp hsplit).1, rfl, ?_⟩
      rw [← toEthereumAddressOrENSName_eq_ok hname]
      exact (Except.ok.inj hnormal).symm

/-- A stream id is left as it is exactly if it is accepted and its domain is in lower case. -/
theorem toStreamID_eq_self_iff {streamId : List Char} :
    toStreamID toLowerCase streamId none = .ok streamId ↔
      (∃ normal, toStreamID toLowerCase streamId none = .ok normal) ∧
        ∀ domain, getDomain streamId = some domain → toLowerCase domain = domain := by
  constructor
  · intro hself
    refine ⟨⟨streamId, hself⟩, fun domain hdomain ↦ ?_⟩
    rcases toStreamID_eq_ok hself with ⟨-, hnone⟩ | ⟨name, path, heq, hname, hnormal⟩
    · rw [hnone] at hdomain
      cases hdomain
    · obtain rfl := Option.some.inj (hname.symm.trans hdomain)
      exact (List.append_cancel_right (heq.symm.trans hnormal)).symm
  · rintro ⟨⟨normal, hnormal⟩, hlower⟩
    rw [hnormal]
    rcases toStreamID_eq_ok hnormal with ⟨rfl, -⟩ | ⟨name, path, heq, hname, rfl⟩
    · rfl
    · rw [hlower name hname, ← heq]

theorem toStreamPartID_of_lt {streamId : List Char} {index : ℕ} (hlt : index < maxPartitionCount) :
    toStreamPartID streamId (some (.finite index)) =
      .ok (streamId ++ '#' :: Nat.toDigits 10 index) := by
  rw [toStreamPartID, ensureValidStreamPartitionIndex_eq_ok_iff.mpr ⟨rfl, hlt⟩]
  rfl

theorem delimiter_notMem_toDigits (index : ℕ) : '#' ∉ Nat.toDigits 10 index := by
  intro hmem
  exact absurd (Nat.isDigit_of_mem_toDigits (by decide) (by decide) hmem) (by decide)

theorem number_toDigits {index : ℕ} (hlt : index < maxPartitionCount) :
    stringToNumber (Nat.toDigits 10 index) = .finite index :=
  ((eq_toDigits_iff (hlt.trans (by norm_num [maxPartitionCount]))).mp rfl).2

/-- What `toStreamPartID` makes of an accepted stream id is accepted. -/
theorem reads_of_lt {streamId normal : List Char} {index : ℕ}
    (hid : toStreamID toLowerCase streamId none = .ok normal) (hlt : index < maxPartitionCount) :
    Reads toLowerCase (streamId ++ '#' :: Nat.toDigits 10 index) streamId
      (Nat.toDigits 10 index) index where
  text_eq := rfl
  notMem := delimiter_notMem_toDigits index
  ne_nil := Nat.toDigits_ne_nil
  valid := ⟨normal, hid⟩
  number := number_toDigits hlt
  lt := hlt

theorem IsCanonical.reads {text : List Char} (hcanonical : IsCanonical toLowerCase text) :
    ∃ streamId index, toStreamID toLowerCase streamId none = .ok streamId ∧
      Reads toLowerCase text streamId (Nat.toDigits 10 index) index := by
  obtain ⟨streamId, index, hid, hlt, htext⟩ := hcanonical
  rw [toStreamPartID_of_lt hlt] at htext
  obtain rfl := Except.ok.inj htext
  exact ⟨streamId, index, hid, reads_of_lt hid hlt⟩

section Reads

variable {text streamId partition : List Char} {index : ℕ}
  (hreads : Reads toLowerCase text streamId partition index)

include hreads

/-- A text is read in one way only. -/
theorem Reads.unique {otherId otherPartition : List Char} {otherIndex : ℕ}
    (hother : Reads toLowerCase text otherId otherPartition otherIndex) :
    streamId = otherId ∧ partition = otherPartition ∧ index = otherIndex := by
  have hsplit : ∀ {streamId partition : List Char} {index : ℕ},
      Reads toLowerCase text streamId partition index →
        splitLast '#' text = some (streamId, partition) :=
    fun hreads ↦ splitLast_eq_some_iff.mpr ⟨hreads.text_eq, hreads.notMem⟩
  obtain ⟨rfl, rfl⟩ := Prod.mk.inj (Option.some.inj ((hsplit hreads).symm.trans (hsplit hother)))
  have hnumber := JsNumber.finite.inj (hreads.number.symm.trans hother.number)
  exact ⟨rfl, rfl, by exact_mod_cast hnumber⟩

theorem Reads.partition_eq_iff :
    partition = Nat.toDigits 10 index ↔ isNumeral partition = true := by
  rw [eq_toDigits_iff (hreads.lt.trans (by norm_num [maxPartitionCount]))]
  exact and_iff_left hreads.number

/-- An accepted text is canonical exactly if it is in normal form. -/
theorem Reads.isCanonical_iff :
    IsCanonical toLowerCase text ↔ InNormalForm toLowerCase streamId partition := by
  constructor
  · intro hcanonical
    obtain ⟨otherId, otherIndex, hid, hother⟩ := hcanonical.reads
    obtain ⟨rfl, rfl, rfl⟩ := hreads.unique hother
    exact ⟨hreads.partition_eq_iff.mp rfl, (toStreamID_eq_self_iff.mp hid).2⟩
  · rintro ⟨hnumeral, hdomain⟩
    refine ⟨streamId, index, toStreamID_eq_self_iff.mpr ⟨hreads.valid, hdomain⟩, hreads.lt, ?_⟩
    rw [toStreamPartID_of_lt hreads.lt, ← hreads.partition_eq_iff.mpr hnumeral, ← hreads.text_eq]

/-- The text that is made of the parts of an accepted one. -/
theorem Reads.toStreamPartID_parts :
    toStreamPartID (getStreamID text) (getStreamPartition text) =
      .ok (streamId ++ '#' :: Nat.toDigits 10 index) := by
  rw [getStreamID, getStreamPartition, hreads.parseRawElements, toStreamPartID_of_lt hreads.lt]

end Reads

/-- For every accepted text there is one with a numeral behind the delimiter that is accepted as
well and names the same stream and partition. -/
theorem exists_parse_parts {text parsed : List Char}
    (hparse : parse toLowerCase text = .ok parsed) : ∃ other,
      toStreamPartID (getStreamID text) (getStreamPartition text) = .ok other ∧
        parse toLowerCase other = .ok other ∧ getStreamID other = getStreamID text ∧
          getStreamPartition other = getStreamPartition text := by
  obtain ⟨-, streamId, partition, index, hreads⟩ := parse_eq_ok_iff.mp hparse
  obtain ⟨normal, hid⟩ := hreads.valid
  have hother := reads_of_lt hid hreads.lt
  refine ⟨_, hreads.toStreamPartID_parts, parse_eq_ok_iff.mpr ⟨rfl, _, _, _, hother⟩, ?_, ?_⟩
  · rw [getStreamID, getStreamID, hother.parseRawElements, hreads.parseRawElements]
  · rw [getStreamPartition, getStreamPartition, hother.parseRawElements, hreads.parseRawElements]

/-- A text whose reading is in normal form is accepted exactly if it is canonical. -/
theorem accepted_iff_isCanonical {text : List Char}
    (hnormal : ∀ streamId partition index, Reads toLowerCase text streamId partition index →
      InNormalForm toLowerCase streamId partition) :
    (∃ parsed, parse toLowerCase text = .ok parsed) ↔ IsCanonical toLowerCase text := by
  constructor
  · rintro ⟨parsed, hparse⟩
    obtain ⟨-, streamId, partition, index, hreads⟩ := parse_eq_ok_iff.mp hparse
    exact hreads.isCanonical_iff.mpr (hnormal _ _ _ hreads)
  · intro hcanonical
    obtain ⟨streamId, index, -, hreads⟩ := hcanonical.reads
    exact ⟨text, parse_eq_ok_iff.mpr ⟨rfl, _, _, _, hreads⟩⟩

/-- A text in normal form is made of its own parts again. -/
theorem Reads.toStreamPartID_eq_self {text streamId partition : List Char} {index : ℕ}
    (hreads : Reads toLowerCase text streamId partition index)
    (hnumeral : isNumeral partition = true) :
    toStreamPartID (getStreamID text) (getStreamPartition text) = .ok text := by
  rw [hreads.toStreamPartID_parts, ← hreads.partition_eq_iff.mpr hnumeral, ← hreads.text_eq]

/-- Two texts in normal form that name the same stream part are equal. -/
theorem Reads.eq_of_names_eq {first firstId firstPartition second secondId secondPartition :
    List Char} {firstIndex secondIndex : ℕ}
    (hfirst : Reads toLowerCase first firstId firstPartition firstIndex)
    (hsecond : Reads toLowerCase second secondId secondPartition secondIndex)
    (hfirstNormal : InNormalForm toLowerCase firstId firstPartition)
    (hsecondNormal : InNormalForm toLowerCase secondId secondPartition)
    (hid : toStreamID toLowerCase (getStreamID first) none =
      toStreamID toLowerCase (getStreamID second) none)
    (hpartition : getStreamPartition first = getStreamPartition second) : first = second := by
  rw [getStreamID, getStreamID, hfirst.parseRawElements, hsecond.parseRawElements,
    toStreamID_eq_self_iff.mpr ⟨hfirst.valid, hfirstNormal.2⟩,
    toStreamID_eq_self_iff.mpr ⟨hsecond.valid, hsecondNormal.2⟩] at hid
  rw [getStreamPartition, getStreamPartition, hfirst.parseRawElements,
    hsecond.parseRawElements] at hpartition
  have hnumber := JsNumber.finite.inj (Option.some.inj hpartition)
  have hindex : firstIndex = secondIndex := by exact_mod_cast hnumber
  rw [hfirst.text_eq, hsecond.text_eq, hfirst.partition_eq_iff.mpr hfirstNormal.1,
    hsecond.partition_eq_iff.mpr hsecondNormal.1, Except.ok.inj hid, hindex]

/-- The accepted texts are the canonical ones, and are made of their own parts again, exactly where
what is accepted is in normal form; two accepted texts in normal form name different stream
parts. -/
theorem parse_canonical_iff (toLowerCase : List Char → List Char) :
    (∀ text, (((∃ parsed, parse toLowerCase text = .ok parsed) ↔ IsCanonical toLowerCase text) ∧
        ∀ parsed, parse toLowerCase text = .ok parsed → parsed = text ∧
          toStreamPartID (getStreamID text) (getStreamPartition text) = .ok text) ↔
      ∀ streamId partition index, Reads toLowerCase text streamId partition index →
        InNormalForm toLowerCase streamId partition) ∧
    ∀ first second,
      parse toLowerCase first = .ok first → parse toLowerCase second = .ok second →
      (∀ text ∈ [first, second], ∀ streamId partition index,
        Reads toLowerCase text streamId partition index →
          InNormalForm toLowerCase streamId partition) →
      toStreamID toLowerCase (getStreamID first) none =
        toStreamID toLowerCase (getStreamID second) none →
      getStreamPartition first = getStreamPartition second → first = second := by
  constructor
  · intro text
    constructor
    · rintro ⟨haccepted, -⟩ streamId partition index hreads
      refine hreads.isCanonical_iff.mp (haccepted.mp ⟨text, ?_⟩)
      exact parse_eq_ok_iff.mpr ⟨rfl, _, _, _, hreads⟩
    · intro hnormal
      refine ⟨accepted_iff_isCanonical hnormal, fun parsed hparse ↦ ?_⟩
      obtain ⟨rfl, streamId, partition, index, hreads⟩ := parse_eq_ok_iff.mp hparse
      exact ⟨rfl, hreads.toStreamPartID_eq_self (hnormal _ _ _ hreads).1⟩
  · intro first second hfirst hsecond hnormal hid hpartition
    obtain ⟨-, firstId, firstPartition, firstIndex, hfirst⟩ := parse_eq_ok_iff.mp hfirst
    obtain ⟨-, secondId, secondPartition, secondIndex, hsecond⟩ := parse_eq_ok_iff.mp hsecond
    have hfirstNormal := hnormal first List.mem_cons_self _ _ _ hfirst
    have hsecondNormal := hnormal second (List.mem_cons_of_mem _ List.mem_cons_self) _ _ _ hsecond
    exact hfirst.eq_of_names_eq hsecond hfirstNormal hsecondNormal hid hpartition

/-- A leading zero and a domain in capitals are accepted, and not canonical. -/
theorem parse_not_canonical :
    let toLowerCase : List Char → List Char := List.map Char.toLower
    let padded := "s#01".toList
    let capital := "A.b/c#1".toList
    parse toLowerCase padded = .ok padded ∧ ¬ IsCanonical toLowerCase padded ∧
      toStreamPartID (getStreamID padded) (getStreamPartition padded) = .ok "s#1".toList ∧
      parse toLowerCase "s#1".toList = .ok "s#1".toList ∧
      getStreamID padded = getStreamID "s#1".toList ∧
      getStreamPartition padded = getStreamPartition "s#1".toList ∧
      parse toLowerCase capital = .ok capital ∧ ¬ IsCanonical toLowerCase capital := by
  intro toLowerCase padded capital
  have hpadded : Reads toLowerCase padded "s".toList "01".toList 1 := by
    refine ⟨rfl, by decide, by decide, ⟨_, rfl⟩, by decide +kernel, by decide⟩
  have hplain : Reads toLowerCase "s#1".toList "s".toList "1".toList 1 := by
    refine ⟨rfl, by decide, by decide, ⟨_, rfl⟩, by decide +kernel, by decide⟩
  have hcapital : Reads toLowerCase capital "A.b/c".toList "1".toList 1 := by
    refine ⟨rfl, by decide, by decide, ⟨_, rfl⟩, by decide +kernel, by decide⟩
  refine ⟨parse_eq_ok_iff.mpr ⟨rfl, _, _, _, hpadded⟩, ?_, hpadded.toStreamPartID_parts,
    parse_eq_ok_iff.mpr ⟨rfl, _, _, _, hplain⟩, ?_, ?_,
    parse_eq_ok_iff.mpr ⟨rfl, _, _, _, hcapital⟩, ?_⟩
  · rw [hpadded.isCanonical_iff]
    rintro ⟨hnumeral, -⟩
    exact absurd hnumeral (by decide)
  · rw [getStreamID, getStreamID, hpadded.parseRawElements, hplain.parseRawElements]
  · rw [getStreamPartition, getStreamPartition, hpadded.parseRawElements, hplain.parseRawElements]
  · rw [hcapital.isCanonical_iff]
    rintro ⟨-, hdomain⟩
    exact absurd (hdomain "A.b".toList rfl) (by decide)

end Ids

end PomboStorageNode.Utils.StreamPartID
