import PomboStorageNode.Utils

/-!
# User ids

`toUserId` of a text puts a valid one in lower case. A `UserID` is a text that it made, and so it
makes the same of it again.
-/

set_option autoImplicit false

namespace PomboStorageNode.Utils

/-- `isValidUserId`. -/
def isValidUserId (input : String) : Bool :=
  match input.toList with
  | '0' :: 'x' :: digits => digits ≠ [] ∧ digits.all isHexDigit = true
  | _ => false

/-- `UserID`: a valid text in lower case. -/
structure UserID where
  text : String
  valid : isValidUserId text = true
  lower : toLowerCase text = text
  deriving DecidableEq

theorem isHexDigit_toLower {character : Char} (hdigit : isHexDigit character = true) :
    isHexDigit character.toLower = true ∧ character.toLower.toLower = character.toLower := by
  have hall : "abcdefABCDEF0123456789".toList.all (fun character ↦
      isHexDigit character.toLower && character.toLower.toLower = character.toLower) = true := by
    decide
  have hboth := List.all_eq_true.mp hall character (of_decide_eq_true hdigit)
  exact ⟨(Bool.and_eq_true_iff.mp hboth).1, of_decide_eq_true (Bool.and_eq_true_iff.mp hboth).2⟩

theorem isValidUserId_iff {input : String} : isValidUserId input = true ↔
    ∃ digits, input.toList = '0' :: 'x' :: digits ∧ digits ≠ [] ∧
      ∀ digit ∈ digits, isHexDigit digit = true := by
  unfold isValidUserId
  split
  · rename_i digits heq
    simp [heq, List.all_eq_true]
  · rename_i hother
    refine iff_of_false Bool.false_ne_true ?_
    rintro ⟨digits, heq, -⟩
    exact hother digits heq

theorem isValidUserId_toLowerCase {input : String} (hvalid : isValidUserId input = true) :
    isValidUserId (toLowerCase input) = true ∧
      toLowerCase (toLowerCase input) = toLowerCase input := by
  obtain ⟨digits, heq, hne, hdigits⟩ := isValidUserId_iff.mp hvalid
  have hlower : (toLowerCase input).toList = '0' :: 'x' :: digits.map Char.toLower := by
    rw [toLowerCase, String.toList_ofList, heq]
    rfl
  refine ⟨isValidUserId_iff.mpr ⟨_, hlower, mt List.map_eq_nil_iff.mp hne, ?_⟩, ?_⟩
  · intro digit hdigit
    obtain ⟨character, hmem, rfl⟩ := List.mem_map.mp hdigit
    exact (isHexDigit_toLower (hdigits character hmem)).1
  · have hsame : (digits.map Char.toLower).map Char.toLower = digits.map Char.toLower := by
      rw [List.map_map]
      exact List.map_congr_left fun character hmem ↦ (isHexDigit_toLower (hdigits character hmem)).2
    apply String.toList_injective
    rw [toLowerCase, String.toList_ofList, hlower, List.map_cons, List.map_cons, hsame]
    rfl

/-- `toUserId` of a text; a text that is not valid makes it throw. -/
def toUserId (input : String) : Option UserID :=
  if hvalid : isValidUserId input = true then
    some ⟨toLowerCase input, (isValidUserId_toLowerCase hvalid).1,
      (isValidUserId_toLowerCase hvalid).2⟩
  else none

theorem toUserId_text (userId : UserID) : toUserId userId.text = some userId := by
  obtain ⟨text, hvalid, hlower⟩ := userId
  rw [toUserId, dif_pos hvalid]
  simp only [hlower]

end PomboStorageNode.Utils
