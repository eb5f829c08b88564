import PomboStorageNode.Storage.IngestValidator

/-!
# Identifiers of nodes and data

A `DhtAddress` is the text of twenty bytes in hexadecimal digits. Here it is the bytes, and `text`
gives the digits: all texts have the same length (`length_text`), and different addresses have
different texts (`text_injective`). The distance of two addresses is computed by the k-bucket
package; `kBucketDistance` is what it computes where numbers are exact.
-/

set_option autoImplicit false

namespace PomboStorageNode.Dht

open Storage.IngestValidator

/-- `KADEMLIA_ID_LENGTH_IN_BYTES`. -/
def kademliaIdLengthInBytes : ℕ := 20

/-- `DhtAddress`, as its raw form. -/
abbrev DhtAddress := {raw : List UInt8 // raw.length = kademliaIdLengthInBytes}

namespace DhtAddress

instance : LawfulBEq DhtAddress := inferInstance

theorem length_small (last : UInt8) :
    (List.replicate 19 0 ++ [last]).length = kademliaIdLengthInBytes := rfl

/-- `toDhtAddress` of the raw form. -/
def text (address : DhtAddress) : List Char := binaryToHex address.val

theorem length_text (address : DhtAddress) : address.text.length = 40 := by
  rw [text, length_binaryToHex, address.property]
  rfl

end DhtAddress

/-! ### Different addresses have different texts -/

theorem hexDigit_injective : ∀ first < 16, ∀ second < 16,
    hexDigit first = hexDigit second → first = second := by
  decide

theorem binaryToHex_injective {first second : List UInt8}
    (htext : binaryToHex first = binaryToHex second) : first = second := by
  induction first generalizing second with
  | nil =>
    have hlength := congrArg List.length htext
    rw [length_binaryToHex, length_binaryToHex, List.length_nil] at hlength
    exact (List.eq_nil_of_length_eq_zero (by omega)).symm
  | cons byte rest ih =>
    cases second with
    | nil =>
      have hlength := congrArg List.length htext
      rw [length_binaryToHex, length_binaryToHex, List.length_nil, List.length_cons] at hlength
      omega
    | cons other others =>
      simp only [binaryToHex, List.flatMap_cons, List.cons_append, List.nil_append,
        List.cons.injEq] at htext
      obtain ⟨hhigh, hlow, hrest⟩ := htext
      have hbyte := byte.toNat_lt
      have hother := other.toNat_lt
      have hhigh := hexDigit_injective _ (by omega) _ (by omega) hhigh
      have hlow := hexDigit_injective _ (by omega) _ (by omega) hlow
      have hsame : byte = other := UInt8.toNat_inj.mp (by omega)
      rw [hsame, ih hrest]

theorem DhtAddress.text_injective {first second : DhtAddress}
    (htext : first.text = second.text) : first = second :=
  Subtype.ext (binaryToHex_injective htext)

/-! ### Distances -/

/-- `KBucket.distance`, where no number is rounded: the bytes of the exclusive or, read as one
number. -/
def kBucketDistance (first second : DhtAddress) : ℕ :=
  (List.zipWith (· ^^^ ·) first.val second.val).foldl
    (fun distance byte ↦ distance * 256 + byte.toNat) 0

/-- Bytes of which there are equally many are read as different numbers. -/
theorem foldl_byte_injective {first second : List UInt8} (hlength : first.length = second.length)
    {start other : ℕ}
    (hsame : first.foldl (fun distance byte ↦ distance * 256 + byte.toNat) start =
      second.foldl (fun distance byte ↦ distance * 256 + byte.toNat) other) :
    start = other ∧ first = second := by
  induction first generalizing second start other with
  | nil =>
    obtain rfl := List.eq_nil_of_length_eq_zero hlength.symm
    exact ⟨hsame, rfl⟩
  | cons byte first ih =>
    obtain ⟨otherByte, second, rfl⟩ := List.exists_cons_of_length_eq_add_one hlength.symm
    obtain ⟨hstart, hrest⟩ := ih (Nat.succ.inj hlength) hsame
    dsimp only at hstart
    have hbyte := byte.toNat_lt
    have hother := otherByte.toNat_lt
    have hbytes : byte = otherByte := UInt8.toNat_inj.mp (by omega)
    exact ⟨by omega, by rw [hbytes, hrest]⟩

theorem zipWith_xor_injective {reference first second : List UInt8}
    (hfirst : first.length = reference.length) (hsecond : second.length = reference.length)
    (hsame : List.zipWith (· ^^^ ·) reference first = List.zipWith (· ^^^ ·) reference second) :
    first = second := by
  refine List.ext_getElem (hfirst.trans hsecond.symm) fun index hindex hother ↦ ?_
  have hbyte := congrArg (·[index]?) hsame
  simpa [List.getElem?_zipWith, hindex, hother, hfirst ▸ hindex] using hbyte

/-- Different addresses have different distances to any address. -/
theorem kBucketDistance_injective (reference : DhtAddress) :
    Function.Injective (kBucketDistance reference) := by
  intro first second hsame
  have hfirst : first.val.length = reference.val.length :=
    first.property.trans reference.property.symm
  have hsecond : second.val.length = reference.val.length :=
    second.property.trans reference.property.symm
  refine Subtype.ext (zipWith_xor_injective hfirst hsecond (foldl_byte_injective ?_ hsame).2)
  rw [List.length_zipWith, List.length_zipWith, hfirst, hsecond]

end PomboStorageNode.Dht
