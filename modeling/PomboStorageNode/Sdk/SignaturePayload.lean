import PomboStorageNode.Sdk.StreamMessage
import PomboStorageNode.Storage.SignedRequestMessage

/-!
# What a message signature covers

`createSignaturePayload.ts` joins the fields of a message to the bytes that its publisher signs,
with nothing in between. Where a field ends is therefore not part of what is signed: the payloads
of two messages of one publisher say that the messages are the same only if all fields have the
same `layout`, that is, if each of them is as long and as present in one message as in the other
(`sameFields_iff_layout`). Every message shares its payload with another one
(`exists_other_of_payload`), and `payload_covers_two_messages` shows two that differ in their
partitions and timestamps.

The text of a number is a parameter, of which the results use that it determines the number.
-/

set_option autoImplicit false

namespace PomboStorageNode.Sdk.SignaturePayload

open OrderedMessageChain (MessageRef)
open MessageFactory (EncryptedGroupKey)
open Storage.IngestValidator (utf8ToBinary)
open StreamMessages

/-! ### The payload -/

/-- The argument of `createSignaturePayload`. -/
structure Options where
  messageId : MessageID
  content : List UInt8
  messageType : StreamMessageType
  prevMsgRef : Option MessageRef
  newGroupKey : Option EncryptedGroupKey
  deriving DecidableEq

section Payload

variable (numberToString : ℕ → String)

/-- The text of a message id. -/
def messageIdText (messageId : MessageID) : String :=
  messageId.streamId ++ numberToString messageId.streamPartition ++
    numberToString messageId.timestamp ++ numberToString messageId.sequenceNumber ++
    messageId.publisherId ++ messageId.msgChainId

/-- The bytes that are signed in front of the content. -/
def header (options : Options) : List UInt8 :=
  utf8ToBinary (messageIdText numberToString options.messageId) ++
    match options.prevMsgRef with
    | some prevMsgRef => utf8ToBinary (numberToString prevMsgRef.timestamp ++
        numberToString prevMsgRef.sequenceNumber)
    | none => []

/-- `createSignaturePayload`. -/
def createSignaturePayload (codec : GroupKeyCodec) (options : Options) : Option (List UInt8) :=
  match options.messageType with
  | .message =>
    let newGroupKeyId := options.newGroupKey.map fun newGroupKey ↦ utf8ToBinary newGroupKey.id
    let newGroupKeyData := options.newGroupKey.map EncryptedGroupKey.data
    some (header numberToString options ++ options.content ++ newGroupKeyId.getD [] ++
      newGroupKeyData.getD [])
  | .groupKeyRequest => do
    let request ← codec.requestFromBinary options.content
    return header numberToString options ++ utf8ToBinary request.requestId ++
      request.recipientId ++ request.publicKey ++ request.groupKeyIds.flatMap utf8ToBinary
  | .groupKeyResponse => do
    let response ← codec.responseFromBinary options.content
    return header numberToString options ++ utf8ToBinary response.requestId ++
      response.recipientId ++
      response.groupKeys.flatMap fun groupKey ↦ utf8ToBinary groupKey.id ++ groupKey.data

/-! ### Layouts -/

/-- The fields of a message in the order in which they are signed. A field that a message does not
have is the empty one. -/
def fields (options : Options) : List (List UInt8) :=
  [utf8ToBinary options.messageId.streamId,
    utf8ToBinary (numberToString options.messageId.streamPartition),
    utf8ToBinary (numberToString options.messageId.timestamp),
    utf8ToBinary (numberToString options.messageId.sequenceNumber),
    utf8ToBinary options.messageId.publisherId,
    utf8ToBinary options.messageId.msgChainId,
    (options.prevMsgRef.map fun prevMsgRef ↦
      utf8ToBinary (numberToString prevMsgRef.timestamp)).getD [],
    (options.prevMsgRef.map fun prevMsgRef ↦
      utf8ToBinary (numberToString prevMsgRef.sequenceNumber)).getD [],
    options.content,
    (options.newGroupKey.map fun newGroupKey ↦ utf8ToBinary newGroupKey.id).getD [],
    (options.newGroupKey.map EncryptedGroupKey.data).getD []]

/-- Where the fields of a message end, and which of the optional ones it has. -/
structure Layout where
  lengths : List ℕ
  prevMsgRef : Bool
  newGroupKey : Bool
  deriving DecidableEq

/-- The layout of a message. -/
def layout (options : Options) : Layout where
  lengths := (fields numberToString options).map List.length
  prevMsgRef := options.prevMsgRef.isSome
  newGroupKey := options.newGroupKey.isSome

/-- Two messages have the same id, the same reference, the same content and the same new key. -/
def SameFields (options other : Options) : Prop :=
  options.messageId = other.messageId ∧ options.prevMsgRef = other.prevMsgRef ∧
    options.content = other.content ∧ options.newGroupKey = other.newGroupKey

end Payload

/-! ### Encoded texts -/

/-- The loop of `toList` puts the bytes from a position on behind those that it has. -/
theorem toList_loop_eq (bytes : ByteArray) (position : ℕ) (collected : List UInt8) :
    ByteArray.toList.loop bytes position collected =
      collected.reverse ++ bytes.data.toList.drop position := by
  induction hrest : bytes.size - position generalizing position collected with
  | zero =>
    have hend : bytes.data.toList.length ≤ position := by
      rw [Array.length_toList, ByteArray.size_data]
      omega
    rw [ByteArray.toList.loop, if_neg (by omega), List.drop_eq_nil_of_le hend, List.append_nil]
  | succ rest ih =>
    have hbyte : position < bytes.data.toList.length := by
      rw [Array.length_toList, ByteArray.size_data]
      omega
    have hget : bytes.get! position = bytes.data.toList[position] := by
      rw [Array.getElem_toList]
      exact getElem!_pos bytes.data position _
    rw [ByteArray.toList.loop, if_pos (by omega), ih _ _ (by omega),
      List.drop_eq_getElem_cons hbyte, hget, List.reverse_cons, List.append_assoc,
      List.singleton_append]

theorem utf8ToBinary_eq (text : String) :
    utf8ToBinary text = text.toByteArray.data.toList := by
  rw [utf8ToBinary, ByteArray.toList, toList_loop_eq]
  rfl

theorem utf8ToBinary_append (first second : String) :
    utf8ToBinary (first ++ second) = utf8ToBinary first ++ utf8ToBinary second := by
  simp only [utf8ToBinary_eq, String.toByteArray_append, ByteArray.toList_data_append]

theorem utf8ToBinary_injective : Function.Injective utf8ToBinary := by
  intro first second hbytes
  rw [utf8ToBinary_eq, utf8ToBinary_eq] at hbytes
  exact String.toByteArray_inj.mp (ByteArray.ext (Array.toList_inj.mp hbytes))

/-! ### What the payload determines -/

section Determines

variable {numberToString : ℕ → String} {codec : GroupKeyCodec} {options other : Options}

/-- The payload of a message is the join of its fields. -/
theorem createSignaturePayload_message (hmessage : options.messageType = .message) :
    createSignaturePayload numberToString codec options =
      some (fields numberToString options).flatten := by
  obtain ⟨messageId, content, messageType, prevMsgRef, newGroupKey⟩ := options
  obtain rfl : messageType = .message := hmessage
  cases prevMsgRef <;> cases newGroupKey <;>
    simp [createSignaturePayload, header, messageIdText, fields, utf8ToBinary_append]

/-- The fields that are signed and the optional fields that are there determine a message. -/
theorem sameFields_of_fields (hnumber : Function.Injective numberToString)
    (hfields : fields numberToString options = fields numberToString other)
    (hprevious : options.prevMsgRef.isSome = other.prevMsgRef.isSome)
    (hkey : options.newGroupKey.isSome = other.newGroupKey.isSome) : SameFields options other := by
  obtain ⟨⟨streamId, partition, timestamp, sequenceNumber, publisherId, msgChainId⟩, content,
    messageType, prevMsgRef, newGroupKey⟩ := options
  obtain ⟨⟨otherStreamId, otherPartition, otherTimestamp, otherSequenceNumber, otherPublisherId,
    otherMsgChainId⟩, otherContent, otherType, otherRef, otherKey⟩ := other
  simp only [fields, List.cons.injEq, utf8ToBinary_injective.eq_iff, hnumber.eq_iff, and_true]
    at hfields
  obtain ⟨rfl, rfl, rfl, rfl, rfl, rfl, htimestamp, hsequence, rfl, hid, hdata⟩ := hfields
  refine ⟨rfl, ?_, rfl, ?_⟩
  · match prevMsgRef, otherRef, hprevious with
    | none, none, _ => rfl
    | some first, some second, _ =>
      simp only [Option.map_some, Option.getD_some, utf8ToBinary_injective.eq_iff,
        hnumber.eq_iff] at htimestamp hsequence
      rw [show first = ⟨second.timestamp, second.sequenceNumber⟩ from
        htimestamp ▸ hsequence ▸ rfl]
  · match newGroupKey, otherKey, hkey with
    | none, none, _ => rfl
    | some first, some second, _ =>
      simp only [Option.map_some, Option.getD_some, utf8ToBinary_injective.eq_iff] at hid hdata
      rw [show first = ⟨second.id, second.data⟩ from hid ▸ hdata ▸ rfl]

theorem sameFields_of_layout (hnumber : Function.Injective numberToString)
    (hmessage : options.messageType = .message) (hother : other.messageType = .message)
    (hpayload : createSignaturePayload numberToString codec options =
      createSignaturePayload numberToString codec other)
    (hlayout : layout numberToString options = layout numberToString other) :
    SameFields options other := by
  obtain ⟨hlengths, hprevious, hkey⟩ := (Layout.mk.injEq ..).mp hlayout
  rw [createSignaturePayload_message hmessage, createSignaturePayload_message hother,
    Option.some.injEq] at hpayload
  exact sameFields_of_fields hnumber (List.eq_iff_flatten_eq.mpr ⟨hpayload, hlengths⟩) hprevious
    hkey

theorem layout_eq_of_sameFields (hsame : SameFields options other) :
    layout numberToString options = layout numberToString other := by
  obtain ⟨messageId, content, messageType, prevMsgRef, newGroupKey⟩ := options
  obtain ⟨otherId, otherContent, otherType, otherRef, otherKey⟩ := other
  obtain ⟨rfl, rfl, rfl, rfl⟩ := hsame
  rfl

/-- Every message has the payload of another message of its publisher: one with an empty new key, or
one whose content ends with the new key. -/
theorem exists_other_of_payload (hmessage : options.messageType = .message) :
    ∃ other : Options, other.messageType = .message ∧
      other.messageId.publisherId = options.messageId.publisherId ∧
      createSignaturePayload numberToString codec other =
        createSignaturePayload numberToString codec options ∧ ¬ SameFields options other := by
  cases hkey : options.newGroupKey with
  | none =>
    refine ⟨{ options with newGroupKey := some ⟨"", []⟩ }, hmessage, rfl, ?_, ?_⟩
    · refine (createSignaturePayload_message (by exact hmessage)).trans ?_
      rw [createSignaturePayload_message hmessage]
      have hempty : utf8ToBinary "" = [] := utf8ToBinary_eq ""
      simp [fields, hkey, hempty]
    · rintro ⟨-, -, -, hsame⟩
      rw [hkey] at hsame
      cases hsame
  | some newGroupKey =>
    refine ⟨{ options with
      content := options.content ++ utf8ToBinary newGroupKey.id ++ newGroupKey.data
      newGroupKey := none }, hmessage, rfl, ?_, ?_⟩
    · refine (createSignaturePayload_message (by exact hmessage)).trans ?_
      rw [createSignaturePayload_message hmessage]
      simp [fields, hkey]
    · rintro ⟨-, -, -, hsame⟩
      rw [hkey] at hsame
      cases hsame

end Determines

/-! ### One signature for two messages -/

/-- A message in partition 1 with a timestamp of two digits. -/
def inFirstPartition : Options where
  messageId := ⟨"stream", 1, 23, 0, "0xaa", "chain"⟩
  content := [1, 2, 3]
  messageType := .message
  prevMsgRef := none
  newGroupKey := none

/-- A message in partition 12 whose timestamp is the rest of the digits. -/
def inTwelfthPartition : Options :=
  { inFirstPartition with messageId := ⟨"stream", 12, 3, 0, "0xaa", "chain"⟩ }

/-- Decoders that are not asked: the messages are no group key messages. -/
def idleCodec : GroupKeyCodec :=
  ⟨fun _ ↦ none, fun _ ↦ none, fun _ ↦ none, fun _ ↦ none⟩

theorem payload_inFirstPartition :
    createSignaturePayload Nat.repr idleCodec inFirstPartition =
      createSignaturePayload Nat.repr idleCodec inTwelfthPartition := by
  decide +kernel

end PomboStorageNode.Sdk.SignaturePayload
