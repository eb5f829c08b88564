import PomboStorageNode.Sdk.StreamMessage
import PomboStorageNode.Storage.SignedRequest

/-!
# Messages on the wire

`StreamMessageTranslator.ts` translates the messages of the client to the messages of the network
protocol and back. The ids of users become bytes, and the content of a group key request or
response becomes the request or the response itself. `toProtobuf_of_toClientProtocol` says that
whatever is accepted from the network is translated back to what it was, and
`toClientProtocol_of_toProtobuf` that a message of the client comes back as it was if it is
`Canonical`: the id of its publisher has the marker and the case that `toUserId` gives it, and a
group key message has nothing in the fields that the protocol has only for content messages.
`translation_normalizes` shows that other messages come back changed.
-/

set_option autoImplicit false

namespace PomboStorageNode.Sdk.StreamMessageTranslator

open Library
open OrderedMessageChain (MessageRef)
open MessageFactory (EncryptionType ContentType EncryptedGroupKey)
open Storage.IngestValidator (UserIDRaw hexDigit binaryToHex toUserId)
open Storage.SignedRequest (utf16Length)
open StreamMessages

/-! ### User ids -/

/-- The value of a digit. -/
def hexValue (digit : Char) : Option ℕ :=
  if '0' ≤ digit ∧ digit ≤ '9' then some (digit.toNat - '0'.toNat)
  else if 'a' ≤ digit ∧ digit ≤ 'f' then some (digit.toNat - 'a'.toNat + 10)
  else if 'A' ≤ digit ∧ digit ≤ 'F' then some (digit.toNat - 'A'.toNat + 10)
  else none

/-- `Buffer.from(hex, 'hex')`: the bytes up to the first pair that is not one of two digits. -/
def hexPairs : List Char → List UInt8
  | first :: second :: rest =>
    match hexValue first, hexValue second with
    | some high, some low => UInt8.ofNat (16 * high + low) :: hexPairs rest
    | _, _ => []
  | _ => []

/-- `hex.startsWith('0x') ? hex.slice(2) : hex`. -/
def withoutMarker : List Char → List Char
  | '0' :: 'x' :: rest => rest
  | hex => hex

/-- `hexToBinary`. -/
def hexToBinary (hex : String) : Except MessageError (List UInt8) :=
  let digits := withoutMarker hex.toList
  let result := hexPairs digits
  if utf16Length (String.ofList digits) % 2 ≠ 0 then .error (.oddHexLength digits)
  else if utf16Length (String.ofList digits) ≠ 2 * result.length then .error (.malformedHex digits)
  else .ok result

/-- `toUserIdRaw`. -/
def toUserIdRaw (userId : String) : Except MessageError UserIDRaw := hexToBinary userId

/-! ### Messages of the protocol -/

/-- `ProtoMessageID`. -/
structure ProtoMessageID where
  streamId : String
  streamPartition : ℤ
  timestamp : ℤ
  sequenceNumber : ℤ
  publisherId : UserIDRaw
  messageChainId : String
  deriving DecidableEq

/-- `ProtoMessageRef`. -/
structure ProtoMessageRef where
  timestamp : ℤ
  sequenceNumber : ℤ
  deriving DecidableEq

/-- `ContentMessage`. -/
structure ContentMessage where
  content : List UInt8
  contentType : ContentType
  encryptionType : EncryptionType
  groupKeyId : Option String
  newGroupKey : Option EncryptedGroupKey
  deriving DecidableEq

/-- The `body` of a message, which may be missing. -/
inductive Body
  | contentMessage (contentMessage : ContentMessage)
  | groupKeyRequest (groupKeyRequest : GroupKeyRequest)
  | groupKeyResponse (groupKeyResponse : GroupKeyResponse)
  | undefined
  deriving DecidableEq

/-- `ProtoStreamMessage`. -/
structure ProtoStreamMessage where
  messageId : Option ProtoMessageID
  previousMessageRef : Option ProtoMessageRef
  signature : List UInt8
  signatureType : SignatureType
  body : Body
  deriving DecidableEq

/-! ### Translations -/

/-- What a step that may throw returns, with the error that is thrown in its place. -/
def orThrow {Value : Type} (error : MessageError) : Option Value → Except MessageError Value
  | some value => .ok value
  | none => .error error

section Translations

variable (codec : GroupKeyCodec)

/-- The message id that `toProtobuf` makes. -/
def toProtoMessageId (messageId : MessageID) : Except MessageError ProtoMessageID := do
  let publisherId ← toUserIdRaw messageId.publisherId
  return ⟨messageId.streamId, messageId.streamPartition, messageId.timestamp,
    messageId.sequenceNumber, publisherId, messageId.msgChainId⟩

/-- The reference that `toProtobuf` makes. -/
def toProtoMessageRef (prevMsgRef : MessageRef) : ProtoMessageRef :=
  ⟨prevMsgRef.timestamp, prevMsgRef.sequenceNumber⟩

/-- The body that `toProtobuf` makes. -/
def toBody (options : StreamMessageOptions) : Except MessageError Body :=
  match options.messageType with
  | .message => .ok (.contentMessage ⟨options.content, options.contentType,
      options.encryptionType, options.groupKeyId, options.newGroupKey⟩)
  | .groupKeyRequest =>
    (orThrow .malformedContent (codec.requestFromBinary options.content)).map .groupKeyRequest
  | .groupKeyResponse =>
    (orThrow .malformedContent (codec.responseFromBinary options.content)).map .groupKeyResponse

/-- `toProtobuf`. -/
def toProtobuf (message : StreamMessage) : Except MessageError ProtoStreamMessage := do
  let messageId ← toProtoMessageId message.val.messageId
  let body ← toBody codec message.val
  return ⟨some messageId, message.val.prevMsgRef.map toProtoMessageRef, message.val.signature,
    message.val.signatureType, body⟩

/-- The message id that `toClientProtocol` makes. -/
def toMessageId (messageId : ProtoMessageID) : Except MessageError MessageID :=
  MessageID.create messageId.streamId messageId.streamPartition messageId.timestamp
    messageId.sequenceNumber (toUserId messageId.publisherId) messageId.messageChainId

/-- The reference that `toClientProtocol` makes. -/
def toPrevMsgRef : Option ProtoMessageRef → Except MessageError (Option MessageRef)
  | some previousMessageRef => (createMessageRef previousMessageRef.timestamp
      previousMessageRef.sequenceNumber).map some
  | none => .ok none

/-- The type of the message that `toClientProtocol` makes of a body, and the fields that it reads
from a content message or else sets itself. -/
def ofBody : Body → Except MessageError (StreamMessageType × ContentMessage)
  | .contentMessage contentMessage => .ok (.message, contentMessage)
  | .groupKeyRequest groupKeyRequest =>
    (orThrow .invalidGroupKeyRequest (codec.requestToBinary groupKeyRequest)).map fun content ↦
      (.groupKeyRequest, ⟨content, .binary, .none, none, none⟩)
  | .groupKeyResponse groupKeyResponse =>
    (orThrow .invalidGroupKeyResponse (codec.responseToBinary groupKeyResponse)).map fun content ↦
      (.groupKeyResponse, ⟨content, .binary, .none, none, none⟩)
  | .undefined => .error .invalidMessageType

/-- `toClientProtocol`. -/
def toClientProtocol (message : ProtoStreamMessage) : Except MessageError StreamMessage := do
  let (messageType, fields) ← ofBody codec message.body
  let protoMessageId ← orThrow .missingMessageId message.messageId
  let messageId ← toMessageId protoMessageId
  let prevMsgRef ← toPrevMsgRef message.previousMessageRef
  StreamMessage.create
    { messageId, prevMsgRef, messageType
      content := fields.content
      contentType := fields.contentType
      signature := message.signature
      signatureType := message.signatureType
      encryptionType := fields.encryptionType
      groupKeyId := fields.groupKeyId
      newGroupKey := fields.newGroupKey }

end Translations

/-! ### Messages that come back -/

/-- A user id in the form that `toUserId` gives it: the marker and an even number of digits in lower
case. -/
def IsUserId (userId : String) : Prop :=
  ∃ digits, userId.toList = '0' :: 'x' :: digits ∧ digits.length % 2 = 0 ∧
    ∀ digit ∈ digits, digit ∈ "0123456789abcdef".toList

/-- A group key message has the fields that the protocol has no place for as `toClientProtocol` sets
them, and its content is an encoding. -/
structure CanonicalContent (options : StreamMessageOptions) (encodings : Set (List UInt8)) :
    Prop where
  contentType : options.contentType = .binary
  encryptionType : options.encryptionType = .none
  groupKeyId : options.groupKeyId = none
  newGroupKey : options.newGroupKey = none
  content : options.content ∈ encodings

/-- What the round trip asks of a message of the client. -/
def Canonical (codec : GroupKeyCodec) (options : StreamMessageOptions) : Prop :=
  IsUserId options.messageId.publisherId ∧
    match options.messageType with
    | .message => True
    | .groupKeyRequest =>
      CanonicalContent options
        {content | ∃ request, codec.requestToBinary request = some content}
    | .groupKeyResponse =>
      CanonicalContent options
        {content | ∃ response, codec.responseToBinary response = some content}

/-! ### User ids and their bytes -/

theorem hexValue_hexDigit : ∀ value < 16, hexValue (hexDigit value) = some value := by
  decide

theorem hexDigit_mem : ∀ value < 16, hexDigit value ∈ "0123456789abcdef".toList := by
  decide

theorem exists_hexDigit : ∀ digit ∈ "0123456789abcdef".toList, ∃ value < 16,
    digit = hexDigit value := by
  intro digit hdigit
  have hall : ("0123456789abcdef".toList.all fun digit ↦
      (List.range 16).any fun value ↦ decide (digit = hexDigit value)) = true := by decide
  obtain ⟨value, hvalue, heq⟩ := List.any_eq_true.mp (List.all_eq_true.mp hall digit hdigit)
  exact ⟨value, List.mem_range.mp hvalue, of_decide_eq_true heq⟩

theorem hexPairs_binaryToHex (bytes : List UInt8) : hexPairs (binaryToHex bytes) = bytes := by
  induction bytes with
  | nil => rfl
  | cons byte bytes ih =>
    have hbyte := byte.toNat_lt
    have hvalue : UInt8.ofNat (16 * (byte.toNat / 16) + byte.toNat % 16) = byte := by
      rw [Nat.div_add_mod, UInt8.ofNat_toNat]
    rw [binaryToHex, List.flatMap_cons, List.cons_append, List.cons_append, List.nil_append,
      hexPairs, hexValue_hexDigit _ (by omega), hexValue_hexDigit _ (by omega)]
    exact congrArg₂ List.cons hvalue ih

theorem val_hexDigit_lt (value : ℕ) : (hexDigit value).val < 0x10000 := by
  unfold hexDigit
  rw [List.getD_eq_getElem?_getD]
  cases hdigit : "0123456789abcdef".toList[value]? with
  | none => decide
  | some digit =>
    have hall : ("0123456789abcdef".toList.all fun digit ↦ decide (digit.val < 0x10000)) = true :=
      by decide
    exact of_decide_eq_true (List.all_eq_true.mp hall digit (List.mem_of_getElem? hdigit))

theorem utf16Length_binaryToHex (bytes : List UInt8) :
    utf16Length (String.ofList (binaryToHex bytes)) = 2 * bytes.length := by
  have hunits : (binaryToHex bytes).map (fun digit ↦ if digit.val < 0x10000 then 1 else 2) =
      (binaryToHex bytes).map fun _ ↦ 1 := by
    refine List.map_congr_left fun digit hdigit ↦ ?_
    obtain ⟨value, rfl⟩ := Storage.IngestValidator.mem_binaryToHex hdigit
    exact if_pos (val_hexDigit_lt value)
  rw [utf16Length, String.toList_ofList, hunits, List.map_const', List.sum_replicate_nat, mul_one,
    Storage.IngestValidator.length_binaryToHex]

theorem toUserIdRaw_toUserId (raw : UserIDRaw) : toUserIdRaw (toUserId raw) = .ok raw := by
  have hdigits : withoutMarker (toUserId raw).toList = binaryToHex raw := by
    rw [toUserId, String.toList_ofList, withoutMarker]
  rw [toUserIdRaw, hexToBinary]
  simp only [hdigits, hexPairs_binaryToHex, utf16Length_binaryToHex]
  rw [if_neg (by omega), if_neg (by omega)]

/-- Digits in lower case are the digits of bytes if their number is even. -/
theorem exists_binaryToHex : ∀ digits : List Char, digits.length % 2 = 0 →
    (∀ digit ∈ digits, digit ∈ "0123456789abcdef".toList) → ∃ bytes, binaryToHex bytes = digits
  | [], _, _ => ⟨[], rfl⟩
  | [_], heven, _ => by simp at heven
  | first :: second :: rest, heven, hdigits => by
    obtain ⟨bytes, hbytes⟩ := exists_binaryToHex rest (by
      rw [List.length_cons, List.length_cons] at heven
      omega) fun digit hdigit ↦
      hdigits digit (List.mem_cons_of_mem _ (List.mem_cons_of_mem _ hdigit))
    obtain ⟨high, hhigh, rfl⟩ := exists_hexDigit first (hdigits _ List.mem_cons_self)
    obtain ⟨low, hlow, rfl⟩ := exists_hexDigit second
      (hdigits _ (List.mem_cons_of_mem _ List.mem_cons_self))
    have hbyte : (UInt8.ofNat (16 * high + low)).toNat = 16 * high + low := by
      rw [UInt8.toNat_ofNat']
      omega
    refine ⟨UInt8.ofNat (16 * high + low) :: bytes, ?_⟩
    rw [binaryToHex, List.flatMap_cons, ← binaryToHex, hbytes, hbyte,
      show (16 * high + low) / 16 = high by omega, show (16 * high + low) % 16 = low by omega]
    rfl

theorem isUserId_toUserId (raw : UserIDRaw) : IsUserId (toUserId raw) := by
  refine ⟨binaryToHex raw, String.toList_ofList, ?_, fun digit hdigit ↦ ?_⟩
  · rw [Storage.IngestValidator.length_binaryToHex]
    omega
  · obtain ⟨byte, -, hdigit⟩ := List.mem_flatMap.mp hdigit
    have hbyte := byte.toNat_lt
    rcases List.mem_cons.mp hdigit with rfl | hdigit
    · exact hexDigit_mem _ (by omega)
    · exact List.mem_singleton.mp hdigit ▸ hexDigit_mem _ (by omega)

/-- The ids in normal form are those of bytes. -/
theorem IsUserId.exists_raw {userId : String} (hid : IsUserId userId) :
    ∃ raw, toUserId raw = userId := by
  obtain ⟨digits, htext, heven, hdigits⟩ := hid
  obtain ⟨raw, hraw⟩ := exists_binaryToHex digits heven hdigits
  refine ⟨raw, String.toList_inj.mp ?_⟩
  rw [toUserId, String.toList_ofList, hraw, htext]

/-! ### Both directions -/

section RoundTrip

variable {codec : GroupKeyCodec}

theorem orThrow_eq_ok_iff {Value : Type} {error : MessageError} {result : Option Value}
    {value : Value} : orThrow error result = .ok value ↔ result = some value := by
  cases result <;> simp [orThrow]

theorem map_eq_ok_iff {Value Result : Type} {change : Value → Result}
    {outcome : Except MessageError Value} {result : Result} :
    outcome.map change = .ok result ↔ ∃ value, outcome = .ok value ∧ change value = result := by
  cases outcome <;> simp [Except.map]

/-- A message id is translated to the one that it came from. -/
theorem toProtoMessageId_of_toMessageId {protoId : ProtoMessageID} {messageId : MessageID}
    (hid : toMessageId protoId = .ok messageId) : toProtoMessageId messageId = .ok protoId := by
  obtain ⟨hstream, hpartition, htimestamp, hsequence, hpublisher, hchain⟩ :=
    MessageID.create_eq_ok_iff.mp hid
  rw [toProtoMessageId, ← hpublisher, toUserIdRaw_toUserId, ← hstream, ← hpartition, ← htimestamp,
    ← hsequence, ← hchain]
  rfl

/-- So is a reference. -/
theorem toProtoMessageRef_of_toPrevMsgRef {protoRef : Option ProtoMessageRef}
    {prevMsgRef : Option MessageRef} (href : toPrevMsgRef protoRef = .ok prevMsgRef) :
    prevMsgRef.map toProtoMessageRef = protoRef := by
  cases protoRef with
  | none =>
    cases href
    rfl
  | some protoRef =>
    obtain ⟨ref, hcreate, rfl⟩ := map_eq_ok_iff.mp href
    obtain ⟨htimestamp, hsequence⟩ := createMessageRef_eq_ok_iff.mp hcreate
    rw [Option.map_some, toProtoMessageRef, ← htimestamp, ← hsequence]

/-- A body is the body of every message with the fields that were read from it.
Assumes: what is encoded is decoded again. -/
theorem toBody_of_ofBody (hcodec : codec.Lawful) {body : Body} {options : StreamMessageOptions}
    (hbody : ofBody codec body = .ok (options.messageType, ⟨options.content, options.contentType,
      options.encryptionType, options.groupKeyId, options.newGroupKey⟩)) :
    toBody codec options = .ok body := by
  obtain ⟨messageId, prevMsgRef, messageType, content, contentType, signature, signatureType,
    encryptionType, groupKeyId, newGroupKey⟩ := options
  cases body with
  | contentMessage contentMessage =>
    cases hbody
    rfl
  | groupKeyRequest request =>
    obtain ⟨encoded, hencoded, heq⟩ := map_eq_ok_iff.mp hbody
    cases heq
    rw [toBody, hcodec.request (orThrow_eq_ok_iff.mp hencoded)]
    rfl
  | groupKeyResponse response =>
    obtain ⟨encoded, hencoded, heq⟩ := map_eq_ok_iff.mp hbody
    cases heq
    rw [toBody, hcodec.response (orThrow_eq_ok_iff.mp hencoded)]
    rfl
  | undefined => cases hbody

/-- What is accepted from the network is translated back to what it was.
Assumes: what is encoded is decoded again. -/
theorem toProtobuf_of_toClientProtocol (hcodec : codec.Lawful) {proto : ProtoStreamMessage}
    {message : StreamMessage} (haccepted : toClientProtocol codec proto = .ok message) :
    toProtobuf codec message = .ok proto := by
  obtain ⟨protoId, protoRef, signature, signatureType, body⟩ := proto
  rw [toClientProtocol, bind_eq_ok_iff] at haccepted
  obtain ⟨⟨messageType, fields⟩, hbody, haccepted⟩ := haccepted
  simp only [bind_eq_ok_iff, orThrow_eq_ok_iff] at haccepted
  obtain ⟨id, rfl, messageId, hid, prevMsgRef, href, hcreate⟩ := haccepted
  have hfields := StreamMessage.create_eq_ok_iff.mp hcreate
  rw [toProtobuf, bind_eq_ok_iff]
  refine ⟨id, ?_, bind_eq_ok_iff.mpr ⟨body, ?_, ?_⟩⟩
  · rw [← hfields]
    exact toProtoMessageId_of_toMessageId hid
  · rw [← hfields]
    exact toBody_of_ofBody hcodec hbody
  · rw [← hfields, toProtoMessageRef_of_toPrevMsgRef href]
    rfl

/-- A message id in normal form is translated to bytes and back. -/
theorem exists_toProtoMessageId {messageId : MessageID} (huser : IsUserId messageId.publisherId) :
    ∃ protoId, toProtoMessageId messageId = .ok protoId ∧ toMessageId protoId = .ok messageId := by
  obtain ⟨raw, hraw⟩ := huser.exists_raw
  refine ⟨⟨messageId.streamId, messageId.streamPartition, messageId.timestamp,
    messageId.sequenceNumber, raw, messageId.msgChainId⟩, ?_, ?_⟩
  · rw [toProtoMessageId, ← hraw, toUserIdRaw_toUserId]
    rfl
  · exact MessageID.create_eq_ok_iff.mpr ⟨rfl, rfl, rfl, rfl, hraw, rfl⟩

theorem toPrevMsgRef_toProtoMessageRef (prevMsgRef : Option MessageRef) :
    toPrevMsgRef (prevMsgRef.map toProtoMessageRef) = .ok prevMsgRef := by
  cases prevMsgRef with
  | none => rfl
  | some ref => exact map_eq_ok_iff.mpr ⟨ref, createMessageRef_eq_ok_iff.mpr ⟨rfl, rfl⟩, rfl⟩

/-- The body of a canonical message holds all fields that are read from it.
Assumes: what is encoded is decoded again. -/
theorem exists_toBody (hcodec : codec.Lawful) {options : StreamMessageOptions}
    (hcanonical : Canonical codec options) : ∃ body, toBody codec options = .ok body ∧
      ofBody codec body = .ok (options.messageType, ⟨options.content, options.contentType,
        options.encryptionType, options.groupKeyId, options.newGroupKey⟩) := by
  obtain ⟨messageId, prevMsgRef, messageType, content, contentType, signature, signatureType,
    encryptionType, groupKeyId, newGroupKey⟩ := options
  cases messageType with
  | message => exact ⟨_, rfl, rfl⟩
  | groupKeyRequest =>
    obtain ⟨rfl, rfl, rfl, rfl, request, hrequest⟩ := hcanonical.2
    refine ⟨.groupKeyRequest request, ?_, ?_⟩
    · rw [toBody, hcodec.request hrequest]
      rfl
    · rw [ofBody, hrequest]
      rfl
  | groupKeyResponse =>
    obtain ⟨rfl, rfl, rfl, rfl, response, hresponse⟩ := hcanonical.2
    refine ⟨.groupKeyResponse response, ?_, ?_⟩
    · rw [toBody, hcodec.response hresponse]
      rfl
    · rw [ofBody, hresponse]
      rfl

/-- A canonical message comes back as it was.
Assumes: what is encoded is decoded again. -/
theorem toClientProtocol_of_toProtobuf (hcodec : codec.Lawful) {message : StreamMessage}
    (hcanonical : Canonical codec message.val) :
    (toProtobuf codec message >>= toClientProtocol codec) = .ok message := by
  obtain ⟨protoId, hproto, hid⟩ := exists_toProtoMessageId hcanonical.1
  obtain ⟨body, hbody, hfields⟩ := exists_toBody hcodec hcanonical
  refine bind_eq_ok_iff.mpr ⟨⟨some protoId, message.val.prevMsgRef.map toProtoMessageRef,
    message.val.signature, message.val.signatureType, body⟩, ?_, ?_⟩
  · rw [toProtobuf, hproto, bind_eq_ok_iff]
    exact ⟨protoId, rfl, bind_eq_ok_iff.mpr ⟨body, hbody, rfl⟩⟩
  · rw [toClientProtocol, hfields, bind_eq_ok_iff]
    refine ⟨_, rfl, ?_⟩
    simp only [bind_eq_ok_iff, orThrow_eq_ok_iff]
    exact ⟨protoId, rfl, message.val.messageId, hid, message.val.prevMsgRef,
      toPrevMsgRef_toProtoMessageRef _, StreamMessage.create_eq_ok_iff.mpr rfl⟩

/-- What is accepted from the network is canonical. -/
theorem canonical_of_toClientProtocol {proto : ProtoStreamMessage} {message : StreamMessage}
    (haccepted : toClientProtocol codec proto = .ok message) : Canonical codec message.val := by
  rw [toClientProtocol, bind_eq_ok_iff] at haccepted
  obtain ⟨⟨messageType, fields⟩, hbody, haccepted⟩ := haccepted
  simp only [bind_eq_ok_iff, orThrow_eq_ok_iff] at haccepted
  obtain ⟨id, -, messageId, hid, prevMsgRef, -, hcreate⟩ := haccepted
  rw [← StreamMessage.create_eq_ok_iff.mp hcreate]
  refine ⟨?_, ?_⟩
  · obtain ⟨-, -, -, -, hpublisher, -⟩ := MessageID.create_eq_ok_iff.mp hid
    exact hpublisher ▸ isUserId_toUserId id.publisherId
  · cases hbodyKind : proto.body with
    | contentMessage contentMessage =>
      rw [hbodyKind] at hbody
      cases hbody
      trivial
    | groupKeyRequest request =>
      rw [hbodyKind] at hbody
      obtain ⟨encoded, hencoded, heq⟩ := map_eq_ok_iff.mp hbody
      cases heq
      exact ⟨rfl, rfl, rfl, rfl, request, orThrow_eq_ok_iff.mp hencoded⟩
    | groupKeyResponse response =>
      rw [hbodyKind] at hbody
      obtain ⟨encoded, hencoded, heq⟩ := map_eq_ok_iff.mp hbody
      cases heq
      exact ⟨rfl, rfl, rfl, rfl, response, orThrow_eq_ok_iff.mp hencoded⟩
    | undefined =>
      rw [hbodyKind] at hbody
      cases hbody

/-- A message comes back as it was if and only if it is canonical.
Assumes: what is encoded is decoded again. -/
theorem comesBack_iff_canonical (hcodec : codec.Lawful) {message : StreamMessage} :
    (toProtobuf codec message >>= toClientProtocol codec) = .ok message ↔
      Canonical codec message.val := by
  refine ⟨fun hback ↦ ?_, toClientProtocol_of_toProtobuf hcodec⟩
  obtain ⟨proto, -, haccepted⟩ := bind_eq_ok_iff.mp hback
  exact canonical_of_toClientProtocol haccepted

/-- Canonical messages come back from the network as they were, and what is accepted from the
network is translated back to what it was.
Assumes: what is encoded is decoded again. -/
theorem translations_inverse (hcodec : codec.Lawful) :
    (∀ message : StreamMessage, Canonical codec message.val →
      (toProtobuf codec message >>= toClientProtocol codec) = .ok message) ∧
    ∀ proto message, toClientProtocol codec proto = .ok message →
      toProtobuf codec message = .ok proto :=
  ⟨fun _ ↦ toClientProtocol_of_toProtobuf hcodec,
    fun _ _ ↦ toProtobuf_of_toClientProtocol hcodec⟩

end RoundTrip

/-! ### Messages that come back, and messages that do not -/

/-- A request for one key. -/
def keyRequest : GroupKeyRequest := ⟨"r", [0xaa], [0xbb], ["k"], .rsa⟩

/-- Its encoding: the fields in their order, each with its tag and length, and no encryption type
since that is the default one. -/
def keyRequestContent : List UInt8 := [10, 1, 114, 18, 1, 0xaa, 26, 1, 0xbb, 34, 1, 107]

/-- Encoders and decoders of this request alone. -/
def keyRequestCodec : GroupKeyCodec where
  requestToBinary request := if request = keyRequest then some keyRequestContent else none
  requestFromBinary content := if content = keyRequestContent then some keyRequest else none
  responseToBinary _ := none
  responseFromBinary _ := none

theorem lawful_keyRequestCodec : keyRequestCodec.Lawful where
  request := by
    intro request content hencoded
    simp only [keyRequestCodec] at hencoded ⊢
    split_ifs at hencoded with hrequest
    cases hencoded
    rw [if_pos rfl, hrequest]
  response := by
    rintro response content ⟨⟩

/-- A message with the request as its content. -/
def requestMessage (publisherId : String) (groupKeyId : Option String) : StreamMessage :=
  ⟨{ messageId := ⟨"stream", 0, 5, 0, publisherId, "chain"⟩
     prevMsgRef := none
     messageType := .groupKeyRequest
     content := keyRequestContent
     contentType := .binary
     signature := [1]
     signatureType := .ecdsaSecp256k1Evm
     encryptionType := .none
     groupKeyId := groupKeyId
     newGroupKey := none }, rfl⟩

/-- A message with content. -/
def contentMessage (publisherId : String) : StreamMessage :=
  ⟨{ (requestMessage publisherId none).val with
     messageType := .message
     content := [1, 2, 3] }, rfl⟩

/-- The message with content, as it is on the wire. -/
def contentProto : ProtoStreamMessage where
  messageId := some ⟨"stream", 0, 5, 0, [0xab], "chain"⟩
  previousMessageRef := none
  signature := [1]
  signatureType := .ecdsaSecp256k1Evm
  body := .contentMessage ⟨[1, 2, 3], .binary, .none, none, none⟩

theorem isUserId_sample : IsUserId "0xab" := by
  have hall : ("ab".toList.all fun digit ↦ decide (digit ∈ "0123456789abcdef".toList)) = true := by
    decide
  exact ⟨"ab".toList, rfl, rfl, fun digit hdigit ↦
    of_decide_eq_true (List.all_eq_true.mp hall digit hdigit)⟩

/-- The request comes back, and so does the message from the wire. -/
theorem translations_inverse_request :
    (toProtobuf keyRequestCodec (requestMessage "0xab" none) >>=
        toClientProtocol keyRequestCodec) = .ok (requestMessage "0xab" none) ∧
      toProtobuf keyRequestCodec (contentMessage "0xab") = .ok contentProto := by
  obtain ⟨hthere, hback⟩ := translations_inverse lawful_keyRequestCodec
  exact ⟨hthere _ ⟨isUserId_sample, rfl, rfl, rfl, rfl, keyRequest, rfl⟩,
    hback contentProto _ (by decide +kernel)⟩

/-- The id of a publisher comes back in lower case, and a group key request without the key id that
it had. -/
theorem translation_normalizes :
    (toProtobuf keyRequestCodec (contentMessage "0xAB") >>= toClientProtocol keyRequestCodec) =
        .ok (contentMessage "0xab") ∧ contentMessage "0xab" ≠ contentMessage "0xAB" ∧
      (toProtobuf keyRequestCodec (requestMessage "0xab" (some "k")) >>=
        toClientProtocol keyRequestCodec) = .ok (requestMessage "0xab" none) ∧
      requestMessage "0xab" none ≠ requestMessage "0xab" (some "k") := by
  decide +kernel

end PomboStorageNode.Sdk.StreamMessageTranslator
