import PomboStorageNode.Library.OrderedMap
import Mathlib.Data.List.Infix

/-!
# Utilities

The parts of the utility package that the storage plugin uses. An `EthereumAddress` is a text that
`toEthereumAddress` made, so it has the length of one. `MapWithTtl` is a map whose entries a timer
removes when their time to live has elapsed: an entry is there exactly while its deadline lies in
the future (`has_iff`).
-/

set_option autoImplicit false

namespace PomboStorageNode.Utils

open Library

/-! ### Ethereum addresses -/

/-- `PREFIXED_STRING_LENGTH`. -/
def prefixedStringLength : ℕ := 42

/-- The characters that the regular expression of an address admits after its first two. -/
def isHexDigit (character : Char) : Bool :=
  character ∈ "abcdefABCDEF0123456789".toList

/-- `REGEX.test`. -/
def isEthereumAddress (text : String) : Bool :=
  match text.toList with
  | '0' :: 'x' :: digits => digits.length = 40 ∧ digits.all isHexDigit = true
  | _ => false

/-- `EthereumAddress`: a text in lower case, of the length of an address. -/
structure EthereumAddress where
  text : String
  length_eq : text.toList.length = prefixedStringLength
  deriving DecidableEq

theorem length_of_isEthereumAddress {text : String} (haddress : isEthereumAddress text = true) :
    text.toList.length = prefixedStringLength := by
  unfold isEthereumAddress at haddress
  split at haddress
  · rename_i digits hdigits
    rw [decide_eq_true_eq] at haddress
    rw [hdigits, List.length_cons, List.length_cons, haddress.1]
    rfl
  · cases haddress

/-- `toEthereumAddress`: the address in lower case; another text makes it throw. -/
def toEthereumAddress (text : String) : Option EthereumAddress :=
  if haddress : isEthereumAddress text = true then
    some ⟨String.ofList (text.toList.map Char.toLower), by
      rw [String.toList_ofList, List.length_map, length_of_isEthereumAddress haddress]⟩
  else none

/-- `toLowerCase`. -/
def toLowerCase (text : String) : String := String.ofList (text.toList.map Char.toLower)

/-- An address is in lower case. -/
theorem toLowerCase_of_toEthereumAddress {text : String} {address : EthereumAddress}
    (haddress : toEthereumAddress text = some address) :
    toLowerCase address.text = address.text := by
  unfold toEthereumAddress at haddress
  split_ifs at haddress with hvalid
  obtain rfl := Option.some.inj haddress
  have hlower : ('0' :: 'x' :: "abcdefABCDEF0123456789".toList).all (fun character ↦
      character.toLower.toLower = character.toLower) = true := by
    decide
  have hcharacter : ∀ character ∈ text.toList,
      character ∈ '0' :: 'x' :: "abcdefABCDEF0123456789".toList := by
    unfold isEthereumAddress at hvalid
    split at hvalid
    · rename_i digits hdigits
      obtain ⟨-, hall⟩ := of_decide_eq_true hvalid
      intro character hmem
      rw [hdigits] at hmem
      refine List.mem_cons.mpr ((List.mem_cons.mp hmem).imp_right fun hmem ↦ ?_)
      refine List.mem_cons.mpr ((List.mem_cons.mp hmem).imp_right fun hmem ↦ ?_)
      exact of_decide_eq_true (List.all_eq_true.mp hall character hmem)
    · cases hvalid
  rw [toLowerCase, String.toList_ofList, List.map_map]
  refine congrArg String.ofList (List.map_congr_left fun character hmem ↦ ?_)
  exact of_decide_eq_true (List.all_eq_true.mp hlower character (hcharacter character hmem))

/-! ### Maps with a time to live -/

/-- `MapWithTtl`: every value with the moment at which its timer fires. -/
structure MapWithTtl (Key Value : Type*) where
  delegate : OrderedMap Key (Value × ℤ)
  getTtl : Value → ℤ

namespace MapWithTtl

variable {Key Value : Type*} [DecidableEq Key]

/-- `get`, at the clock value `now`. -/
def get? (map : MapWithTtl Key Value) (now : ℤ) (key : Key) : Option Value :=
  match map.delegate.get? key with
  | some (value, deadline) => if now < deadline then some value else none
  | none => none

/-- `has`, at the clock value `now`. -/
def has (map : MapWithTtl Key Value) (now : ℤ) (key : Key) : Bool := (map.get? now key).isSome

/-- `set`, at the clock value `now`: the timer of the key starts again. -/
def set (map : MapWithTtl Key Value) (now : ℤ) (key : Key) (value : Value) :
    MapWithTtl Key Value :=
  { map with delegate := map.delegate.set key (value, now + map.getTtl value) }

@[simp] theorem delegate_set (map : MapWithTtl Key Value) (now : ℤ) (key : Key) (value : Value) :
    (map.set now key value).delegate = map.delegate.set key (value, now + map.getTtl value) := rfl

/-- An entry is there exactly while its deadline lies in the future. -/
theorem has_iff {map : MapWithTtl Key Value} {now : ℤ} {key : Key} :
    map.has now key = true ↔ ∃ value deadline,
      map.delegate.get? key = some (value, deadline) ∧ now < deadline := by
  unfold has get?
  cases hentry : map.delegate.get? key with
  | none => simp
  | some entry =>
    obtain ⟨value, deadline⟩ := entry
    by_cases hlater : now < deadline
    · simp [hlater]
    · simp [hlater]

end MapWithTtl

end PomboStorageNode.Utils
