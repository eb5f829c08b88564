import PomboStorageNode.Storage.PomboGates
import PomboStorageNode.Storage.Tables

/-!
# What is stored

`IngestValidator.validate` asks the client to validate a message as a subscriber would, and stores
it unless the answer is a definitive rejection. The signature is checked first, in one of several
ways that the message itself names: an Ethereum signature and one of the other key types are
checked on the spot, against the publisher id; an ERC-1271 signature is a question to the contract
that the publisher id names, and when the contract cannot be asked the message is stored.

`publisher_signed_of_store` is what the signature check leaves of the rows: a message that is
stored, is of another type than ERC-1271 and has an address as its publisher was signed by that
address. Key recovery, the signature schemes of the other key types and the serialization are
parameters, collected in `Sdk`.
-/

set_option autoImplicit false

namespace PomboStorageNode.Storage.IngestValidator

open Utils Tables PomboGates

/-! ### User ids -/

/-- `UserIDRaw`. -/
abbrev UserIDRaw := List UInt8

/-- The bytes of an address, as `publicKeyToAddress` cuts them out of a digest. -/
abbrev RawAddress := {raw : UserIDRaw // raw.length = 20}

/-- The digit for half a byte. -/
def hexDigit (value : ℕ) : Char := "0123456789abcdef".toList.getD value '0'

/-- `binaryToHex`, without the marker. -/
def binaryToHex (bytes : List UInt8) : List Char :=
  bytes.flatMap fun byte ↦ [hexDigit (byte.toNat / 16), hexDigit (byte.toNat % 16)]

/-- `toUserId` of the raw form. -/
def toUserId (raw : UserIDRaw) : String := String.ofList ('0' :: 'x' :: binaryToHex raw)

theorem hexDigit_spec (value : ℕ) :
    isHexDigit (hexDigit value) = true ∧ (hexDigit value).toLower = hexDigit value := by
  unfold hexDigit
  rw [List.getD_eq_getElem?_getD]
  cases hdigit : "0123456789abcdef".toList[value]? with
  | none => decide
  | some digit =>
    have hall : "0123456789abcdef".toList.all (fun digit ↦
        isHexDigit digit = true ∧ digit.toLower = digit) = true := by
      decide
    exact of_decide_eq_true (List.all_eq_true.mp hall digit (List.mem_of_getElem? hdigit))

theorem mem_binaryToHex {bytes : List UInt8} {digit : Char} (hdigit : digit ∈ binaryToHex bytes) :
    ∃ value, digit = hexDigit value := by
  obtain ⟨byte, -, hdigit⟩ := List.mem_flatMap.mp hdigit
  rcases List.mem_cons.mp hdigit with hfirst | hdigit
  · exact ⟨_, hfirst⟩
  · exact ⟨_, List.mem_singleton.mp hdigit⟩

theorem length_binaryToHex (bytes : List UInt8) :
    (binaryToHex bytes).length = 2 * bytes.length := by
  induction bytes with
  | nil => rfl
  | cons byte bytes ih =>
    rw [binaryToHex, List.flatMap_cons, List.length_append, ← binaryToHex, ih]
    simp only [List.length_cons, List.length_nil]
    omega

/-- The text of an id has two characters for each byte after the marker. -/
theorem length_toUserId (raw : UserIDRaw) :
    (toUserId raw).toList.length = 2 * raw.length + 2 := by
  rw [toUserId, String.toList_ofList, List.length_cons, List.length_cons, length_binaryToHex]

/-- The text of an id is in lower case. -/
theorem toLowerCase_toUserId (raw : UserIDRaw) : toLowerCase (toUserId raw) = toUserId raw := by
  have hdigits : (binaryToHex raw).map Char.toLower = binaryToHex raw := by
    refine (List.map_congr_left fun digit hdigit ↦ ?_).trans (List.map_id _)
    obtain ⟨value, rfl⟩ := mem_binaryToHex hdigit
    exact (hexDigit_spec value).2
  rw [toLowerCase, toUserId, String.toList_ofList, List.map_cons, List.map_cons, hdigits]
  rfl

/-- The text of twenty bytes is an address. -/
theorem toEthereumAddress_toUserId {raw : UserIDRaw} (hlength : raw.length = 20) :
    ∃ address, toEthereumAddress (toUserId raw) = some address ∧ address.text = toUserId raw := by
  have haddress : isEthereumAddress (toUserId raw) = true := by
    rw [isEthereumAddress, toUserId, String.toList_ofList]
    refine decide_eq_true ⟨?_, List.all_eq_true.mpr fun digit hdigit ↦ ?_⟩
    · rw [length_binaryToHex, hlength]
    · obtain ⟨value, rfl⟩ := mem_binaryToHex hdigit
      exact (hexDigit_spec value).1
  refine ⟨_, dif_pos haddress, ?_⟩
  exact toLowerCase_toUserId raw

/-! ### Messages -/

/-- `SignatureType`. A number without a name stays what it is. -/
inductive SignatureType
  | ecdsaSecp256k1Legacy
  | ecdsaSecp256k1Evm
  | erc1271
  | mlDsa87
  | ecdsaSecp256r1
  | unrecognized (value : ℕ)
  deriving DecidableEq

/-- `StreamMessageType`. -/
inductive StreamMessageType
  | message
  | groupKeyRequest
  | groupKeyResponse
  deriving DecidableEq

/-- `StreamMessage`, without the fields that neither the validation nor the storage reads. The
publisher id is kept as the bytes it has on the wire. -/
structure StreamMessage where
  streamPart : StreamPart
  timestamp : ℤ
  sequenceNumber : SequenceNumber
  publisherId : UserIDRaw
  msgChainId : String
  prevMsgRef : Option (ℤ × ℤ)
  messageType : StreamMessageType
  content : List UInt8
  encrypted : Bool
  newGroupKey : Option (String × List UInt8)
  signature : List UInt8
  signatureType : SignatureType
  deriving DecidableEq

/-- `getPublisherId`. -/
def StreamMessage.getPublisherId (message : StreamMessage) : String := toUserId message.publisherId

/-- What the client uses from elsewhere: the text of a number, the decoding of text, the JSON text
of a list of two texts, the fields of a group key message that are signed and its recipient, the
recovery of the account behind an Ethereum signature, the other two signature schemes, and the
deserialization of a message. A result `none` is an exception. -/
structure Sdk where
  numberToString : ℤ → String
  binaryToUtf8 : List UInt8 → String
  stringifyPair : String → String → String
  groupKeyFields : StreamMessageType → List UInt8 → Option (List UInt8)
  groupKeyRecipient : StreamMessageType → List UInt8 → Option UserIDRaw
  recoverSignerUserId : List UInt8 → List UInt8 → Option RawAddress
  verifySecp256r1 : UserIDRaw → List UInt8 → List UInt8 → Option Bool
  verifyMlDsa87 : UserIDRaw → List UInt8 → List UInt8 → Option Bool
  convertBytesToStreamMessage : List UInt8 → Option StreamMessage

/-- The other signature schemes accept only public keys of their own lengths: a compressed or an
uncompressed point, and an ML-DSA-87 key. -/
structure ChecksKeyLength (sdk : Sdk) : Prop where
  secp256r1 : ∀ publicKey payload signature,
    sdk.verifySecp256r1 publicKey payload signature = some true →
      publicKey.length = 33 ∨ publicKey.length = 65
  mlDsa87 : ∀ publicKey payload signature,
    sdk.verifyMlDsa87 publicKey payload signature = some true → publicKey.length = 2592

variable (sdk : Sdk)

/-- `utf8ToBinary`. -/
def utf8ToBinary (text : String) : List UInt8 := text.toUTF8.toList

/-- The message id as it is signed. -/
def messageIdText (message : StreamMessage) : String :=
  message.streamPart.streamId ++ sdk.numberToString message.streamPart.partition ++
    sdk.numberToString message.timestamp ++ sdk.numberToString message.sequenceNumber.val ++
    message.getPublisherId ++ message.msgChainId

/-- The reference to the previous message as it is signed. -/
def prevMsgRefText (message : StreamMessage) : String :=
  match message.prevMsgRef with
  | some (timestamp, sequenceNumber) =>
    sdk.numberToString timestamp ++ sdk.numberToString sequenceNumber
  | none => ""

/-- `createSignaturePayload`. -/
def createSignaturePayload (message : StreamMessage) : Option (List UInt8) :=
  let header := utf8ToBinary (messageIdText sdk message) ++
    utf8ToBinary (prevMsgRefText sdk message)
  match message.messageType with
  | .message =>
    match message.newGroupKey with
    | some (id, data) => some (header ++ message.content ++ utf8ToBinary id ++ data)
    | none => some (header ++ message.content)
  | messageType =>
    (sdk.groupKeyFields messageType message.content).map fun fields ↦ header ++ fields

/-- `createLegacySignaturePayload`. -/
def createLegacySignaturePayload (message : StreamMessage) : List UInt8 :=
  let newGroupKey := match message.newGroupKey with
    | some (id, data) => sdk.stringifyPair id (String.ofList (binaryToHex data))
    | none => ""
  let contentAsString :=
    if message.encrypted then String.ofList (binaryToHex message.content)
    else sdk.binaryToUtf8 message.content
  utf8ToBinary (messageIdText sdk message ++ prevMsgRefText sdk message ++ contentAsString ++
    newGroupKey)

/-- The payload that the signature of a message is about. -/
def signedPayload (message : StreamMessage) : Option (List UInt8) :=
  if message.signatureType = .ecdsaSecp256k1Legacy then
    some (createLegacySignaturePayload sdk message)
  else createSignaturePayload sdk message

/-- `getMessageSigner`. -/
def getMessageSigner (message : StreamMessage) : Option EthereumAddress := do
  let payload ← signedPayload sdk message
  let signer ← sdk.recoverSignerUserId message.signature payload
  toEthereumAddress (toUserId signer)

/-! ### The validation of a subscriber -/

/-- `StreamrClientErrorCode`. -/
inductive ErrorCode
  | streamNotFound
  | nodeNotFound
  | missingPermission
  | noStorageNodes
  | invalidArgument
  | clientDestroyed
  | pipelineError
  | unsupportedOperation
  | invalidMessageContent
  | invalidStreamMetadata
  | invalidSignature
  | chainUnavailable
  | invalidPartition
  | decryptError
  | storageNodeError
  | unknownError
  | assertionFailed
  | signaturePolicyViolation
  | encryptionPolicyViolation
  | unexpectedInput
  deriving DecidableEq

/-- A result, or an exception with the code it carries, if it carries one. -/
abbrev Fallible (Result : Type) := Except (Option ErrorCode) Result

/-- An exception without a code in place of `none`. -/
def orThrow {Result : Type} (result : Option Result) : Fallible Result :=
  match result with
  | some value => .ok value
  | none => .error none

/-- How the lookups on the chain end while a message is validated. The answer of a contract to
`isValidSignature` is the one in the cache of the facade, if there is one; `none` is a contract that
could not be asked. -/
structure ChainOutcomes where
  isValidSignature : EthereumAddress → RawAddress → Option Bool
  partitionCount : String → Fallible ℕ
  isStreamPublisher : String → String → Fallible Bool
  isStreamSubscriber : String → String → Fallible Bool
  getGate : String → GateLookup
  isModerator : EthereumAddress → EthereumAddress → Option Bool

/-- `config.validation`. -/
structure ValidationConfig where
  partitions : Bool
  permissions : Bool

variable (config : ValidationConfig) (chain : ChainOutcomes)

/-- `verifySignature` of an Ethereum signature. -/
def verifySecp256k1Evm (expectedUserId : UserIDRaw) (payload signature : List UInt8) : Bool :=
  match sdk.recoverSignerUserId signature payload with
  | some recoveredAddress => recoveredAddress.val = expectedUserId
  | none => false

/-- `ERC1271ContractFacade.isValidSignature`. -/
def isValidSignature (contractAddress : EthereumAddress) (payload signature : List UInt8) :
    Fallible Bool := do
  let recoveredSigner ← orThrow (sdk.recoverSignerUserId signature payload)
  match chain.isValidSignature contractAddress recoveredSigner with
  | some isValid => return isValid
  | none => throw (some .chainUnavailable)

/-- `SignatureValidator.validate`. -/
def validateSignature (message : StreamMessage) : Fallible Bool := do
  match message.signatureType with
  | .ecdsaSecp256k1Evm =>
    let payload ← orThrow (createSignaturePayload sdk message)
    return verifySecp256k1Evm sdk message.publisherId payload message.signature
  | .ecdsaSecp256r1 =>
    let payload ← orThrow (createSignaturePayload sdk message)
    orThrow (sdk.verifySecp256r1 message.publisherId payload message.signature)
  | .mlDsa87 =>
    let payload ← orThrow (createSignaturePayload sdk message)
    orThrow (sdk.verifyMlDsa87 message.publisherId payload message.signature)
  | .ecdsaSecp256k1Legacy =>
    return verifySecp256k1Evm sdk message.publisherId (createLegacySignaturePayload sdk message)
      message.signature
  | .erc1271 =>
    let contractAddress ← orThrow (toEthereumAddress message.getPublisherId)
    let payload ← orThrow (createSignaturePayload sdk message)
    isValidSignature sdk chain contractAddress payload message.signature
  | .unrecognized _ => throw none

/-- `assertSignatureIsValid`: an exception that is no verdict on the signature is passed on. -/
def assertSignatureIsValid (message : StreamMessage) : Fallible Unit :=
  match validateSignature sdk chain message with
  | .ok true => .ok ()
  | .ok false => .error (some .invalidSignature)
  | .error (some code) => .error (some code)
  | .error none => .error (some .invalidSignature)

/-- `validateMessage` of `validateStreamMessage.ts`. -/
def validateMessage (message : StreamMessage) : Fallible Unit := do
  let streamId := message.streamPart.streamId
  if config.partitions then
    let partitionCount ← chain.partitionCount streamId
    if partitionCount ≤ message.streamPart.partition then throw (some .invalidPartition)
  if config.permissions then
    let isPublisher ← chain.isStreamPublisher streamId message.getPublisherId
    if isPublisher = false then throw (some .missingPermission)

/-- `validateGroupKeyMessage`. -/
def validateGroupKeyMessage (message : StreamMessage)
    (expectedPublisherId expectedSubscriberId : String) : Fallible Unit := do
  let streamId := message.streamPart.streamId
  if config.permissions then
    let isPublisher ← chain.isStreamPublisher streamId expectedPublisherId
    if isPublisher = false then throw (some .missingPermission)
    let isSubscriber ← chain.isStreamSubscriber streamId expectedSubscriberId
    if isSubscriber = false then throw (some .missingPermission)

/-- What `doValidate` checks after the signature. -/
def validateContent (message : StreamMessage) : Fallible Unit := do
  match message.messageType with
  | .message => validateMessage config chain message
  | .groupKeyRequest =>
    let recipientId ← orThrow (sdk.groupKeyRecipient .groupKeyRequest message.content)
    validateGroupKeyMessage config chain message (toUserId recipientId) message.getPublisherId
  | .groupKeyResponse =>
    let recipientId ← orThrow (sdk.groupKeyRecipient .groupKeyResponse message.content)
    validateGroupKeyMessage config chain message message.getPublisherId (toUserId recipientId)

/-- `validateStreamMessage`. -/
def validateStreamMessage (message : StreamMessage) : Fallible Unit := do
  assertSignatureIsValid sdk chain message
  validateContent sdk config chain message

/-! ### The verdict -/

/-- `CONVERSATION_STREAM_SUFFIX`. -/
def conversationStreamSuffix : String := "-1"

/-- `DEFINITIVE_REJECTIONS`. -/
def definitiveRejections : List ErrorCode :=
  [.invalidSignature, .missingPermission, .invalidPartition, .signaturePolicyViolation]

/-- Why a message is not stored. -/
inductive RejectionReason
  | code (code : ErrorCode)
  | unrecoverableSigner
  | readOnly
  deriving DecidableEq

/-- `IngestVerdict`. -/
inductive IngestVerdict
  | store
  | reject (reason : RejectionReason)
  deriving DecidableEq

/-- `enforceReadOnly`. -/
def enforceReadOnly (message : StreamMessage) : IngestVerdict :=
  let streamId := message.streamPart.streamId
  if conversationStreamSuffix.toList.isSuffixOf streamId.toList = false then .store
  else match chain.getGate streamId with
    | .answered (some gate) =>
      if gate.readOnly = false ∨ gate.visible = false then .store
      else match getMessageSigner sdk message with
        | none => .reject .unrecoverableSigner
        | some signer =>
          if signer = gate.owner then .store
          else match chain.isModerator gate.address signer with
            | some false => .reject .readOnly
            | _ => .store
    | _ => .store

/-- `validate`. -/
def validate (message : StreamMessage) : IngestVerdict :=
  match validateStreamMessage sdk config chain message with
  | .ok () => enforceReadOnly sdk chain message
  | .error (some code) => if code ∈ definitiveRejections then .reject (.code code) else .store
  | .error none => .store

variable {sdk config chain} {message : StreamMessage}

theorem of_orThrow_bind {Result Next : Type} {result : Option Result}
    {continuation : Result → Fallible Next} {value : Next}
    (hok : (orThrow result >>= continuation) = .ok value) :
    ∃ found, result = some found ∧ continuation found = .ok value := by
  cases result with
  | none => cases hok
  | some found => exact ⟨found, rfl, hok⟩

theorem eq_some_of_orThrow {Result : Type} {result : Option Result} {value : Result}
    (hok : orThrow result = .ok value) : result = some value := by
  cases result with
  | none => cases hok
  | some found => exact congrArg some (Except.ok.inj hok)

/-- A message that is stored passed the signature check, or the check failed with a code that is no
definitive rejection. -/
theorem assertSignatureIsValid_of_store (hstore : validate sdk config chain message = .store) :
    assertSignatureIsValid sdk chain message = .ok () ∨
      ∃ code, code ∉ definitiveRejections ∧
        assertSignatureIsValid sdk chain message = .error (some code) := by
  unfold validate validateStreamMessage at hstore
  cases hassert : assertSignatureIsValid sdk chain message with
  | ok => exact Or.inl rfl
  | error thrown =>
    rw [hassert] at hstore
    cases thrown with
    | none =>
      exfalso
      unfold assertSignatureIsValid at hassert
      split at hassert <;> cases hassert
    | some code =>
      refine Or.inr ⟨code, fun hmem ↦ ?_, rfl⟩
      have hreject : (IngestVerdict.reject (.code code)) = .store := by
        rw [← hstore]
        exact (if_pos hmem).symm
      cases hreject

/-- Only the question to a contract fails with a code of its own. -/
theorem validateSignature_error {code : ErrorCode}
    (hcode : validateSignature sdk chain message = .error (some code)) :
    message.signatureType = .erc1271 := by
  have hthrow : ∀ {Result : Type} (result : Option Result),
      orThrow result ≠ .error (some code) := by
    rintro Result (_ | value) heq <;> cases heq
  by_contra htype
  unfold validateSignature at hcode
  cases hsignature : message.signatureType with
  | erc1271 => exact htype hsignature
  | ecdsaSecp256k1Legacy =>
    rw [hsignature] at hcode
    cases hcode
  | unrecognized value =>
    rw [hsignature] at hcode
    cases hcode
  | _ =>
    rw [hsignature] at hcode
    cases hpayload : createSignaturePayload sdk message with
    | none =>
      rw [hpayload] at hcode
      cases hcode
    | some payload =>
      rw [hpayload] at hcode
      first
        | cases hcode
        | exact hthrow _ hcode

/-- A message of another type is stored only if its signature was found valid. -/
theorem validateSignature_of_store (hstore : validate sdk config chain message = .store)
    (htype : message.signatureType ≠ .erc1271) :
    validateSignature sdk chain message = .ok true := by
  have hassert := assertSignatureIsValid_of_store hstore
  unfold assertSignatureIsValid at hassert
  cases hvalid : validateSignature sdk chain message with
  | ok valid =>
    cases valid with
    | true => rfl
    | false =>
      simp only [hvalid] at hassert
      rcases hassert with hok | ⟨code, hcode, herror⟩
      · cases hok
      · cases herror
        exact absurd (by decide) hcode
  | error thrown =>
    cases thrown with
    | none =>
      simp only [hvalid] at hassert
      rcases hassert with hok | ⟨code, hcode, herror⟩
      · cases hok
      · cases herror
        exact absurd (by decide) hcode
    | some code => exact absurd (validateSignature_error hvalid) htype

/-- What an Ethereum signature that verifies says about the signer. -/
theorem getMessageSigner_of_verify {payload : List UInt8}
    (hpayload : signedPayload sdk message = some payload)
    (hverify : verifySecp256k1Evm sdk message.publisherId payload message.signature = true) :
    ∃ signer, getMessageSigner sdk message = some signer ∧
      signer.text = message.getPublisherId := by
  unfold verifySecp256k1Evm at hverify
  cases hrecover : sdk.recoverSignerUserId message.signature payload with
  | none =>
    rw [hrecover] at hverify
    cases hverify
  | some recovered =>
    rw [hrecover] at hverify
    have hraw : recovered.val = message.publisherId := of_decide_eq_true hverify
    obtain ⟨signer, hsigner, htext⟩ := toEthereumAddress_toUserId recovered.property
    refine ⟨signer, ?_, htext.trans (congrArg toUserId hraw)⟩
    rw [getMessageSigner, hpayload]
    change (sdk.recoverSignerUserId message.signature payload).bind _ = some signer
    rw [hrecover]
    exact hsigner

/-- A message that is stored, is not of the type ERC-1271 and has an address as its publisher was
signed by that address.
Assumes: the other signature schemes check the length of the public key. -/
theorem publisher_signed_of_store (hkeys : ChecksKeyLength sdk)
    (hstore : validate sdk config chain message = .store)
    (htype : message.signatureType ≠ .erc1271) (hlength : message.publisherId.length = 20) :
    ∃ signer, getMessageSigner sdk message = some signer ∧
      signer.text = message.getPublisherId := by
  have hvalid := validateSignature_of_store hstore htype
  unfold validateSignature at hvalid
  cases hsignature : message.signatureType with
  | erc1271 => exact absurd hsignature htype
  | unrecognized value =>
    rw [hsignature] at hvalid
    cases hvalid
  | ecdsaSecp256k1Legacy =>
    rw [hsignature] at hvalid
    refine getMessageSigner_of_verify ?_ (Except.ok.inj hvalid)
    rw [signedPayload, if_pos hsignature]
  | ecdsaSecp256k1Evm =>
    rw [hsignature] at hvalid
    obtain ⟨payload, hpayload, hverify⟩ := of_orThrow_bind hvalid
    refine getMessageSigner_of_verify ?_ (Except.ok.inj hverify)
    rw [signedPayload, if_neg (by rw [hsignature]; nofun), hpayload]
  | mlDsa87 =>
    rw [hsignature] at hvalid
    obtain ⟨payload, -, hverify⟩ := of_orThrow_bind hvalid
    have hkey := hkeys.mlDsa87 _ _ _ (eq_some_of_orThrow hverify)
    omega
  | ecdsaSecp256r1 =>
    rw [hsignature] at hvalid
    obtain ⟨payload, -, hverify⟩ := of_orThrow_bind hvalid
    have hkey := hkeys.secp256r1 _ _ _ (eq_some_of_orThrow hverify)
    omega

end PomboStorageNode.Storage.IngestValidator
