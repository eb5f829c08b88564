import PomboStorageNode.Library.Throwing
import PomboStorageNode.Sdk.MessageFactory
import PomboStorageNode.Storage.IngestValidator

/-!
# Messages of the client

`StreamMessage.ts` checks the fields of a message when it is built: the message must come after the
one that `prevMsgRef` names, and a message that is encrypted with a group key must name the key. A
`StreamMessage` is here a value that has passed these checks (`validate_eq_ok_iff`), and likewise
for the numbers in a `MessageID` and a `MessageRef`, which are not negative.

A group key request or response travels as the content of a message, in its binary encoding. The
generated encoders and decoders are a parameter, `GroupKeyCodec`.
-/

set_option autoImplicit false

namespace PomboStorageNode.Sdk.StreamMessages

open Library
open OrderedMessageChain (MessageRef)
open MessageFactory (EncryptionType ContentType EncryptedGroupKey)
open Storage.IngestValidator (UserIDRaw)

/-! ### Errors -/

/-- The errors of `validations.ts`, `StreamMessage.ts`, `StreamMessageTranslator.ts` and
`hexToBinary`, and the use of a message id that is not there. -/
inductive MessageError
  | notDefined (varName : String)
  | negative (varName : String) (varValue : ℤ)
  | identicalToPrevious (current previous : MessageRef)
  | notAfterPrevious (current previous : MessageRef)
  | oddHexLength (hex : List Char)
  | malformedHex (hex : List Char)
  | malformedContent
  | invalidGroupKeyRequest
  | invalidGroupKeyResponse
  | invalidMessageType
  | missingMessageId
  deriving DecidableEq

/-- `validateIsNotNegativeInteger`, for integers. -/
def validateIsNotNegativeInteger (varName : String) (varValue : ℤ) : Except MessageError ℕ :=
  if varValue < 0 then .error (.negative varName varValue) else .ok varValue.toNat

/-- An integer passes as the natural number that it is. -/
theorem validateIsNotNegativeInteger_eq_ok_iff {varName : String} {varValue : ℤ} {value : ℕ} :
    validateIsNotNegativeInteger varName varValue = .ok value ↔ varValue = value := by
  unfold validateIsNotNegativeInteger
  split_ifs with hnegative
  · refine iff_of_false (by simp) ?_
    omega
  · rw [Except.ok.injEq]
    omega

/-! ### Message ids -/

/-- `StreamMessageType`. -/
inductive StreamMessageType
  | message
  | groupKeyRequest
  | groupKeyResponse
  deriving DecidableEq

/-- `SignatureType`. -/
inductive SignatureType
  | ecdsaSecp256k1Legacy
  | ecdsaSecp256k1Evm
  | erc1271
  | mlDsa87
  | ecdsaSecp256r1
  deriving DecidableEq

/-- `MessageID`, with numbers that its constructor has checked. -/
structure MessageID where
  streamId : String
  streamPartition : ℕ
  timestamp : ℕ
  sequenceNumber : ℕ
  publisherId : String
  msgChainId : String
  deriving DecidableEq

namespace MessageID

/-- The constructor. -/
def create (streamId : String) (streamPartition timestamp sequenceNumber : ℤ)
    (publisherId msgChainId : String) : Except MessageError MessageID := do
  let streamPartition ← validateIsNotNegativeInteger "streamPartition" streamPartition
  let timestamp ← validateIsNotNegativeInteger "timestamp" timestamp
  let sequenceNumber ← validateIsNotNegativeInteger "sequenceNumber" sequenceNumber
  return ⟨streamId, streamPartition, timestamp, sequenceNumber, publisherId, msgChainId⟩

/-- `toMessageRef`. -/
def toMessageRef (messageId : MessageID) : MessageRef :=
  ⟨messageId.timestamp, messageId.sequenceNumber⟩

theorem create_eq_ok_iff {streamId publisherId msgChainId : String}
    {streamPartition timestamp sequenceNumber : ℤ} {messageId : MessageID} :
    create streamId streamPartition timestamp sequenceNumber publisherId msgChainId =
        .ok messageId ↔
      streamId = messageId.streamId ∧ streamPartition = messageId.streamPartition ∧
        timestamp = messageId.timestamp ∧ sequenceNumber = messageId.sequenceNumber ∧
        publisherId = messageId.publisherId ∧ msgChainId = messageId.msgChainId := by
  obtain ⟨idStreamId, idPartition, idTimestamp, idSequenceNumber, idPublisher, idChain⟩ := messageId
  simp only [create, bind_eq_ok_iff, validateIsNotNegativeInteger_eq_ok_iff]
  constructor
  · rintro ⟨_, rfl, _, rfl, _, rfl, heq⟩
    cases heq
    exact ⟨rfl, rfl, rfl, rfl, rfl, rfl⟩
  · rintro ⟨rfl, rfl, rfl, rfl, rfl, rfl⟩
    exact ⟨_, rfl, _, rfl, _, rfl, rfl⟩

end MessageID

/-- The constructor of `MessageRef`. -/
def createMessageRef (timestamp sequenceNumber : ℤ) : Except MessageError MessageRef := do
  let timestamp ← validateIsNotNegativeInteger "timestamp" timestamp
  let sequenceNumber ← validateIsNotNegativeInteger "sequenceNumber" sequenceNumber
  return ⟨timestamp, sequenceNumber⟩

theorem createMessageRef_eq_ok_iff {timestamp sequenceNumber : ℤ} {ref : MessageRef} :
    createMessageRef timestamp sequenceNumber = .ok ref ↔
      timestamp = ref.timestamp ∧ sequenceNumber = ref.sequenceNumber := by
  simp only [createMessageRef, bind_eq_ok_iff, validateIsNotNegativeInteger_eq_ok_iff]
  constructor
  · rintro ⟨_, rfl, _, rfl, heq⟩
    cases heq
    exact ⟨rfl, rfl⟩
  · rintro ⟨rfl, rfl⟩
    exact ⟨_, rfl, _, rfl, rfl⟩

/-! ### Messages -/

/-- `StreamMessageOptions`, with the message type that the constructor puts in where there is
none. -/
structure StreamMessageOptions where
  messageId : MessageID
  prevMsgRef : Option MessageRef
  messageType : StreamMessageType
  content : List UInt8
  contentType : ContentType
  signature : List UInt8
  signatureType : SignatureType
  encryptionType : EncryptionType
  groupKeyId : Option String
  newGroupKey : Option EncryptedGroupKey
  deriving DecidableEq

/-- `validateSequence`. -/
def validateSequence (messageId : MessageID) : Option MessageRef → Except MessageError Unit
  | none => .ok ()
  | some prevMsgRef =>
    let comparison := messageId.toMessageRef.compareTo prevMsgRef
    if comparison = 0 then .error (.identicalToPrevious messageId.toMessageRef prevMsgRef)
    else if comparison < 0 then .error (.notAfterPrevious messageId.toMessageRef prevMsgRef)
    else .ok ()

/-- `validateIsDefined`. -/
def validateIsDefined {Value : Type} (varName : String) : Option Value → Except MessageError Unit
  | none => .error (.notDefined varName)
  | some _ => .ok ()

/-- The checks of the constructor. -/
def StreamMessageOptions.validate (options : StreamMessageOptions) : Except MessageError Unit := do
  validateSequence options.messageId options.prevMsgRef
  if options.encryptionType = .aes then
    validateIsDefined "groupKeyId" options.groupKeyId

/-- `StreamMessage`: the fields of a message that the constructor accepts. -/
abbrev StreamMessage := {options : StreamMessageOptions // options.validate = .ok ()}

/-- The constructor of `StreamMessage`. -/
def StreamMessage.create (options : StreamMessageOptions) : Except MessageError StreamMessage :=
  match hvalid : options.validate with
  | .error error => .error error
  | .ok () => .ok ⟨options, hvalid⟩

theorem validateSequence_eq_ok_iff {messageId : MessageID} {prevMsgRef : Option MessageRef} :
    validateSequence messageId prevMsgRef = .ok () ↔
      ∀ previous ∈ prevMsgRef, previous < messageId.toMessageRef := by
  cases prevMsgRef with
  | none => simp [validateSequence]
  | some previous =>
    have hafter := not_congr
      (@MessageRef.compareTo_nonpos_iff messageId.toMessageRef previous)
    rw [not_le, not_le] at hafter
    simp only [validateSequence, Option.mem_some_iff, forall_eq', ← hafter]
    split_ifs with hzero hbefore
    · exact iff_of_false (by simp) (by omega)
    · exact iff_of_false (by simp) (by omega)
    · exact iff_of_true rfl (by omega)

/-- A message comes after the one before it and, if it is encrypted, names its key. -/
theorem StreamMessageOptions.validate_eq_ok_iff {options : StreamMessageOptions} :
    options.validate = .ok () ↔
      (∀ previous ∈ options.prevMsgRef, previous < options.messageId.toMessageRef) ∧
        (options.encryptionType = .aes → options.groupKeyId ≠ none) := by
  rw [validate, bind_eq_ok_iff, ← validateSequence_eq_ok_iff]
  refine ⟨?_, fun hvalid ↦ ⟨(), hvalid.1, ?_⟩⟩
  · rintro ⟨⟨⟩, hsequence, hkey⟩
    refine ⟨hsequence, fun haes hnone ↦ ?_⟩
    rw [if_pos haes, hnone] at hkey
    cases hkey
  · split_ifs with haes
    · obtain ⟨groupKeyId, hkey⟩ := Option.ne_none_iff_exists'.mp (hvalid.2 haes)
      rw [hkey]
      rfl
    · rfl

theorem StreamMessage.create_eq_ok_iff {options : StreamMessageOptions} {message : StreamMessage} :
    create options = .ok message ↔ options = message.val := by
  obtain ⟨fields, hvalid⟩ := message
  unfold create
  split
  · rename_i hthrows
    refine iff_of_false (by simp) ?_
    rintro rfl
    rw [hvalid] at hthrows
    cases hthrows
  · rw [Except.ok.injEq, Subtype.mk.injEq]

/-! ### Group key requests and responses -/

/-- `AsymmetricEncryptionType`. -/
inductive AsymmetricEncryptionType
  | rsa
  | mlKem
  deriving DecidableEq

/-- `GroupKeyRequest`. -/
structure GroupKeyRequest where
  requestId : String
  recipientId : UserIDRaw
  publicKey : List UInt8
  groupKeyIds : List String
  encryptionType : AsymmetricEncryptionType
  deriving DecidableEq

/-- `GroupKeyResponse`. -/
structure GroupKeyResponse where
  requestId : String
  recipientId : UserIDRaw
  groupKeys : List EncryptedGroupKey
  encryptionType : AsymmetricEncryptionType
  deriving DecidableEq

/-- The generated encoders and decoders of requests and responses. A result `none` is an
exception. -/
structure GroupKeyCodec where
  requestToBinary : GroupKeyRequest → Option (List UInt8)
  requestFromBinary : List UInt8 → Option GroupKeyRequest
  responseToBinary : GroupKeyResponse → Option (List UInt8)
  responseFromBinary : List UInt8 → Option GroupKeyResponse

/-- What is encoded is decoded again. -/
structure GroupKeyCodec.Lawful (codec : GroupKeyCodec) : Prop where
  request : ∀ {request content}, codec.requestToBinary request = some content →
    codec.requestFromBinary content = some request
  response : ∀ {response content}, codec.responseToBinary response = some content →
    codec.responseFromBinary content = some response

end PomboStorageNode.Sdk.StreamMessages
