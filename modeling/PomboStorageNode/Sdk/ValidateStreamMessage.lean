import PomboStorageNode.Library.Throwing
import PomboStorageNode.Sdk.StreamMessage

/-!
# The validation of messages

`validateStreamMessage.ts` checks the signature of a message and asks the stream registry about the
permissions: the sender of a message must be a publisher of its stream, and of the two ends of a key
exchange one must be a publisher and the other a subscriber. The stream is the one that the message
names. A validation records which permissions the registry confirmed, so that results can speak of
what was confirmed on the way; `confirmed_of_validated` says what that is for a group key message.
-/

set_option autoImplicit false

namespace PomboStorageNode.Sdk.Validation

open Library StreamMessages
open Storage.IngestValidator (UserIDRaw toUserId)

/-! ### The parts that are asked -/

/-- Why a validation fails: the signature is not valid, the partition is out of range, a permission
is missing, or a lookup or the decoding of the content throws. -/
inductive ValidationError
  | invalidSignature
  | invalidPartition (partition partitionCount : ℕ)
  | notPublisher (userId streamId : String)
  | notSubscriber (userId streamId : String)
  | lookupFailed
  | malformedContent
  deriving DecidableEq

/-- The answers of the signature validator and of the stream registry; `none` is an exception. -/
structure Registry where
  isSignatureValid : StreamMessageOptions → Option Bool
  getPartitionCount : String → Option ℕ
  isStreamPublisher : String → String → Option Bool
  isStreamSubscriber : String → String → Option Bool

/-- `config.validation`. -/
structure ValidationConfig where
  permissions : Bool
  partitions : Bool
  deriving DecidableEq

/-- A permission that the registry confirmed. -/
inductive Confirmation
  | publisher (streamId userId : String)
  | subscriber (streamId userId : String)
  deriving DecidableEq

/-- A computation that may throw and records what was confirmed, the last first. -/
abbrev Validating (Value : Type) := Throwing ValidationError (List Confirmation) Value

/-- What a lookup answers. -/
def lookup {Value : Type} : Option Value → Validating Value
  | some value => pure value
  | none => throw .lookupFailed

/-- A decoded content. -/
def decode {Value : Type} : Option Value → Validating Value
  | some value => pure value
  | none => throw .malformedContent

/-- A permission that must be there. -/
def requirePermission (answer : Option Bool) (confirmation : Confirmation)
    (missing : ValidationError) : Validating Unit := do
  if ← lookup answer then modify (confirmation :: ·) else throw missing

/-! ### The validation -/

section Validate

variable (registry : Registry) (config : ValidationConfig) (codec : GroupKeyCodec)

/-- `assertSignatureIsValid`. -/
def assertSignatureIsValid (message : StreamMessageOptions) : Validating Unit := do
  if ← lookup (registry.isSignatureValid message) then pure () else throw .invalidSignature

/-- The check for a publisher. -/
def requirePublisher (streamId userId : String) : Validating Unit :=
  requirePermission (registry.isStreamPublisher streamId userId) (.publisher streamId userId)
    (.notPublisher userId streamId)

/-- The check for a subscriber. -/
def requireSubscriber (streamId userId : String) : Validating Unit :=
  requirePermission (registry.isStreamSubscriber streamId userId) (.subscriber streamId userId)
    (.notSubscriber userId streamId)

/-- `validateMessage`. The partition of a message is not negative. -/
def validateMessage (message : StreamMessageOptions) : Validating Unit := do
  if config.partitions then
    let partitionCount ← lookup (registry.getPartitionCount message.messageId.streamId)
    if partitionCount ≤ message.messageId.streamPartition then
      throw (.invalidPartition message.messageId.streamPartition partitionCount)
  if config.permissions then
    requirePublisher registry message.messageId.streamId message.messageId.publisherId

/-- `validateGroupKeyMessage`. -/
def validateGroupKeyMessage (message : StreamMessageOptions)
    (expectedPublisherId expectedSubscriberId : String) : Validating Unit := do
  if config.permissions then
    requirePublisher registry message.messageId.streamId expectedPublisherId
    requireSubscriber registry message.messageId.streamId expectedSubscriberId

/-- `doValidate`. -/
def validateStreamMessage (message : StreamMessageOptions) : Validating Unit := do
  assertSignatureIsValid registry message
  match message.messageType with
  | .message => validateMessage registry config message
  | .groupKeyRequest =>
    let request ← decode (codec.requestFromBinary message.content)
    validateGroupKeyMessage registry config message (toUserId request.recipientId)
      message.messageId.publisherId
  | .groupKeyResponse =>
    let response ← decode (codec.responseFromBinary message.content)
    validateGroupKeyMessage registry config message message.messageId.publisherId
      (toUserId response.recipientId)

end Validate

/-! ### What a validation confirms -/

section Confirmed

variable {registry : Registry} {config : ValidationConfig} {codec : GroupKeyCodec}
  {message : StreamMessageOptions} {before after : List Confirmation}

theorem exec_decode {Value : Type} {decoded : Option Value} {value : Value}
    (hdecode : (decode decoded).exec before = (.ok value, after)) :
    decoded = some value ∧ after = before := by
  cases decoded with
  | none => cases hdecode
  | some found =>
    cases hdecode
    exact ⟨rfl, rfl⟩

/-- A permission that was required and did not make the validation throw was confirmed. -/
theorem exec_requirePermission {answer : Option Bool} {confirmation : Confirmation}
    {missing : ValidationError}
    (hrequire : (requirePermission answer confirmation missing).exec before = (.ok (), after)) :
    answer = some true ∧ after = confirmation :: before := by
  rcases answer with _ | _ | _
  · cases hrequire
  · cases hrequire
  · cases hrequire
    exact ⟨rfl, rfl⟩

theorem exec_assertSignatureIsValid
    (hvalid : (assertSignatureIsValid registry message).exec before = (.ok (), after)) :
    registry.isSignatureValid message = some true ∧ after = before := by
  rw [assertSignatureIsValid] at hvalid
  rcases hanswer : registry.isSignatureValid message with _ | _ | _ <;> rw [hanswer] at hvalid <;>
    cases hvalid
  exact ⟨rfl, rfl⟩

/-- The publisher and the subscriber of a key exchange, as a message of it names them. -/
def groupKeyEnds (codec : GroupKeyCodec) (message : StreamMessageOptions) :
    Option (String × String) :=
  match message.messageType with
  | .message => none
  | .groupKeyRequest => (codec.requestFromBinary message.content).map fun request ↦
      (toUserId request.recipientId, message.messageId.publisherId)
  | .groupKeyResponse => (codec.responseFromBinary message.content).map fun response ↦
      (message.messageId.publisherId, toUserId response.recipientId)

/-- The message of a key exchange between a publisher and a subscriber of its stream was validated:
its signature is valid, and the registry has confirmed both permissions. -/
structure Validated (registry : Registry) (message : StreamMessageOptions)
    (publisherId subscriberId : String) : Prop where
  signature : registry.isSignatureValid message = some true
  publisher : registry.isStreamPublisher message.messageId.streamId publisherId = some true
  subscriber : registry.isStreamSubscriber message.messageId.streamId subscriberId = some true

theorem exec_validateGroupKeyMessage {publisherId subscriberId : String}
    (hpermissions : config.permissions = true)
    (hvalid : (validateGroupKeyMessage registry config message publisherId subscriberId).exec
      before = (.ok (), after)) :
    registry.isStreamPublisher message.messageId.streamId publisherId = some true ∧
      registry.isStreamSubscriber message.messageId.streamId subscriberId = some true ∧
      after = .subscriber message.messageId.streamId subscriberId ::
        .publisher message.messageId.streamId publisherId :: before := by
  rw [validateGroupKeyMessage, if_pos hpermissions] at hvalid
  obtain ⟨⟨⟩, middle, hfirst, hsecond⟩ := Throwing.exec_bind_ok hvalid
  obtain ⟨hpublisher, rfl⟩ := exec_requirePermission hfirst
  obtain ⟨hsubscriber, rfl⟩ := exec_requirePermission hsecond
  exact ⟨hpublisher, hsubscriber, rfl⟩

/-- A message that was validated is signed. -/
theorem signature_of_validated
    (hvalid : (validateStreamMessage registry config codec message).exec before =
      (.ok (), after)) : registry.isSignatureValid message = some true := by
  obtain ⟨⟨⟩, middle, hsigned, -⟩ := Throwing.exec_bind_ok hvalid
  exact (exec_assertSignatureIsValid hsigned).1

/-- What the validation of a group key message says.
Assumes: permissions are validated. -/
theorem confirmed_of_validated {publisherId subscriberId : String}
    (hpermissions : config.permissions = true)
    (hends : groupKeyEnds codec message = some (publisherId, subscriberId))
    (hvalid : (validateStreamMessage registry config codec message).exec before =
      (.ok (), after)) :
    Validated registry message publisherId subscriberId ∧
      after = .subscriber message.messageId.streamId subscriberId ::
        .publisher message.messageId.streamId publisherId :: before := by
  obtain ⟨⟨⟩, middle, hsigned, hrest⟩ := Throwing.exec_bind_ok hvalid
  obtain ⟨hsignature, rfl⟩ := exec_assertSignatureIsValid hsigned
  unfold groupKeyEnds at hends
  cases htype : message.messageType with
  | message =>
    rw [htype] at hends
    cases hends
  | groupKeyRequest =>
    rw [htype] at hends hrest
    obtain ⟨request, last, hdecode, hchecked⟩ := Throwing.exec_bind_ok hrest
    obtain ⟨hdecoded, rfl⟩ := exec_decode hdecode
    rw [hdecoded] at hends
    cases hends
    obtain ⟨hpublisher, hsubscriber, hafter⟩ := exec_validateGroupKeyMessage hpermissions hchecked
    exact ⟨⟨hsignature, hpublisher, hsubscriber⟩, hafter⟩
  | groupKeyResponse =>
    rw [htype] at hends hrest
    obtain ⟨response, last, hdecode, hchecked⟩ := Throwing.exec_bind_ok hrest
    obtain ⟨hdecoded, rfl⟩ := exec_decode hdecode
    rw [hdecoded] at hends
    cases hends
    obtain ⟨hpublisher, hsubscriber, hafter⟩ := exec_validateGroupKeyMessage hpermissions hchecked
    exact ⟨⟨hsignature, hpublisher, hsubscriber⟩, hafter⟩

end Confirmed

end PomboStorageNode.Sdk.Validation
