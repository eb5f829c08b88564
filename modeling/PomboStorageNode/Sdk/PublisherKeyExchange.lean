import PomboStorageNode.Sdk.LocalGroupKeyStore
import PomboStorageNode.Sdk.SignaturePayload
import PomboStorageNode.Sdk.StreamMessageTranslator
import PomboStorageNode.Sdk.ValidateStreamMessage

/-!
# Handing out group keys

`GroupKeyManager.storeKey` stores the keys of a publisher, each for a stream, and
`PublisherKeyExchange.ts` answers requests for them. The requester must be a subscriber of the
stream that its request names, but the keys are looked up by their ids alone. Of a request that is
answered, all keys were stored for a stream of which the requester was confirmed to be a subscriber
if and only if each key that was stored last under a requested id had been stored for the stream of
the request (`confirmedKeys_iff_storedForStream`); `key_of_another_stream` is a request that asks
for a key of one stream by the name of another.
-/

set_option autoImplicit false

namespace PomboStorageNode.Sdk.PublisherKeyExchange

open Library StreamMessages Validation
open MessageFactory (EncryptedGroupKey)
open SignaturePayload (createSignaturePayload)
open StreamMessageTranslator (toUserIdRaw)
open Storage.IngestValidator (toUserId)

/-! ### Storing keys -/

/-- A call of `GroupKeyManager.storeKey`, with the key that is generated where none is given. -/
structure StoreKeyCall where
  groupKey : Option GroupKey
  publisherId : String
  streamId : String
  generated : GroupKey

/-- The store of a publisher, and the keys that were stored, each with its stream, the last first.
-/
structure StoredKeys where
  store : LocalGroupKeyStore
  storedFor : List (GroupKey × String)

/-- `GroupKeyManager.storeKey`, of the user `userId`; `none` is the exception. -/
def storeKey (userId : String) (keys : StoredKeys) (call : StoreKeyCall) : Option StoredKeys :=
  if call.publisherId ≠ userId then none
  else
    let groupKey := call.groupKey.getD call.generated
    some
      { store :=
          (keys.store.set groupKey.id call.publisherId groupKey.data).setLatestEncryptionKeyId
            groupKey.id call.publisherId call.streamId
        storedFor := (groupKey, call.streamId) :: keys.storedFor }

/-- The keys after a history of calls. A call that throws has stored nothing. -/
def storeKeys (userId : String) (history : List StoreKeyCall) : StoredKeys :=
  history.foldl (fun keys call ↦ (storeKey userId keys call).getD keys) ⟨.empty, []⟩

/-- The key that was stored last under an id, with its stream. -/
def StoredKeys.lastStored (keys : StoredKeys) (keyId : String) : Option (GroupKey × String) :=
  keys.storedFor.find? fun stored ↦ decide (stored.1.id = keyId)

/-- The store holds, under each id, the key that was stored last. -/
def StoredKeys.HoldsLast (keys : StoredKeys) (userId : String) : Prop :=
  ∀ keyId, keys.store.dataOf keyId userId =
    (keys.lastStored keyId).map fun stored ↦ stored.1.data

/-- `formLookupKey1` tells the keys of one publisher apart. -/
theorem formLookupKey1_left_inj {firstId secondId publisherId : String}
    (heq : formLookupKey1 firstId publisherId = formLookupKey1 secondId publisherId) :
    firstId = secondId := by
  have hlist := congrArg String.toList heq
  simp only [formLookupKey1, String.toList_append, List.append_assoc] at hlist
  exact String.toList_inj.mp (List.append_cancel_left (List.append_cancel_left hlist))

/-- The key that was just stored is the last one under its id, and no other id is touched. -/
theorem lastStored_cons (store before : LocalGroupKeyStore) (stored : GroupKey × String)
    (storedFor : List (GroupKey × String)) (keyId : String) :
    StoredKeys.lastStored ⟨store, stored :: storedFor⟩ keyId =
      if stored.1.id = keyId then some stored
      else StoredKeys.lastStored ⟨before, storedFor⟩ keyId := by
  rw [StoredKeys.lastStored, List.find?_cons, StoredKeys.lastStored]
  split_ifs with hid <;> simp [hid]

theorem holdsLast_storeKey {userId : String} {keys after : StoredKeys} {call : StoreKeyCall}
    (hholds : keys.HoldsLast userId) (hstore : storeKey userId keys call = some after) :
    after.HoldsLast userId := by
  unfold storeKey at hstore
  split_ifs at hstore with hpublisher
  cases hstore
  intro keyId
  rw [lastStored_cons _ keys.store, LocalGroupKeyStore.dataOf_setLatest, not_not.mp hpublisher]
  split_ifs with hid
  · rw [← hid, LocalGroupKeyStore.dataOf_set_self]
    rfl
  · refine Eq.trans ?_ (hholds keyId)
    exact OrderedMap.get?_set_of_ne _ _ fun heq ↦ hid (formLookupKey1_left_inj heq).symm

theorem holdsLast_storeKeys (userId : String) (history : List StoreKeyCall) :
    (storeKeys userId history).HoldsLast userId := by
  suffices hfold : ∀ keys : StoredKeys, keys.HoldsLast userId →
      (history.foldl (fun keys call ↦ (storeKey userId keys call).getD keys) keys).HoldsLast
        userId from hfold _ fun _ ↦ rfl
  induction history with
  | nil => exact fun _ hholds ↦ hholds
  | cons call history ih =>
    intro keys hholds
    refine ih _ ?_
    cases hstore : storeKey userId keys call with
    | none =>
      simp only [hstore]
      exact hholds
    | some after =>
      simp only [hstore]
      exact holdsLast_storeKey hholds hstore

/-- What is found under an id is what was stored last under it. -/
theorem get_eq_lastStored {userId : String} {keys : StoredKeys} (hholds : keys.HoldsLast userId)
    (keyId : String) :
    keys.store.get keyId userId = .ok ((keys.lastStored keyId).map Prod.fst) := by
  have hdata := hholds keyId
  cases hlast : keys.lastStored keyId with
  | none =>
    rw [hlast] at hdata
    rw [LocalGroupKeyStore.get, hdata]
    rfl
  | some stored =>
    have hid : stored.1.id = keyId := by simpa using List.find?_some hlast
    rw [hlast] at hdata
    rw [LocalGroupKeyStore.get, hdata]
    dsimp only [Option.map_some]
    rw [← hid, GroupKey.create_self]
    rfl

/-! ### Answering requests -/

/-- What is thrown while a request is handled. -/
inductive ExchangeError
  | encryptionPolicyViolation (encryptionType : AsymmetricEncryptionType)
  | invalidStreamPartition (streamPartition : ℕ)
  | validation (error : ValidationError)
  | groupKey (error : GroupKeyError)
  | message (error : MessageError)
  | thrown
  deriving DecidableEq

/-- `ResponseType`. -/
inductive ResponseType
  | none
  | normal
  | erc1271
  deriving DecidableEq

/-- What `PublisherKeyExchange` uses while it handles a request. -/
structure Publisher where
  userId : String
  identitySignatureType : SignatureType
  erc1271Publishers : List String
  requireQuantumResistantKeyExchange : Bool
  validation : ValidationConfig
  registry : Registry
  codec : GroupKeyCodec
  numberToString : ℕ → String
  encryptForPublicKey : List UInt8 → List UInt8 → AsymmetricEncryptionType → Option (List UInt8)
  createMessageSignature : List UInt8 → Option (List UInt8)
  now : ℕ
  randomMsgChainId : String

/-- A computation that may throw and records what was confirmed, the last first. -/
abbrev Exchanging (Value : Type) := Throwing ExchangeError (List Confirmation) Value

/-- What a call returns, with the error that is thrown in its place. -/
def orThrow {Value : Type} (error : ExchangeError) : Option Value → Exchanging Value
  | some value => pure value
  | none => throw error

/-- What a call returns, or the error that it throws. -/
def orRethrow {Value Error : Type} (rethrown : Error → ExchangeError) :
    Except Error Value → Exchanging Value
  | .ok value => pure value
  | .error error => throw (rethrown error)

/-- `ensureValidStreamPartitionIndex`, in `getStreamPartID`. -/
def ensureValidStreamPartitionIndex (streamPartition : ℕ) : Exchanging Unit :=
  if 100 ≤ streamPartition then throw (.invalidStreamPartition streamPartition) else pure ()

/-- A response that is broadcast, and the keys in it. -/
structure Answer where
  keys : List GroupKey
  response : StreamMessage
  deriving DecidableEq

section Answering

variable (publisher : Publisher)

/-- `isCompliantAsymmetricEncryptionType`. -/
def isCompliantAsymmetricEncryptionType (encryptionType : AsymmetricEncryptionType) : Bool :=
  decide (encryptionType = .mlKem) || !publisher.requireQuantumResistantKeyExchange

/-- `getResponseType`. -/
def getResponseType (publisherId : String) : ResponseType :=
  if publisherId = publisher.userId then .normal
  else if publisherId ∈ publisher.erc1271Publishers then .erc1271
  else .none

/-- `createSignedMessage`, of the fields without the signature. -/
def createSignedMessage (options : StreamMessageOptions) : Exchanging StreamMessage := do
  let payload ← orThrow .thrown (createSignaturePayload publisher.numberToString publisher.codec
    ⟨options.messageId, options.content, options.messageType, options.prevMsgRef,
      options.newGroupKey⟩)
  let signature ← orThrow .thrown (publisher.createMessageSignature payload)
  orRethrow .message (StreamMessage.create { options with signature := signature })

/-- A key in its response. -/
def encryptKey (publicKey : List UInt8) (encryptionType : AsymmetricEncryptionType)
    (key : GroupKey) : Exchanging EncryptedGroupKey := do
  let data ← orThrow .thrown (publisher.encryptForPublicKey key.data publicKey encryptionType)
  return ⟨key.id, data⟩

/-- `createResponse`. -/
def createResponse (keys : List GroupKey) (responseType : ResponseType) (publisherId : String)
    (streamId : String) (streamPartition : ℕ) (publicKey : List UInt8) (recipientId : String)
    (requestId : String) (encryptionType : AsymmetricEncryptionType) :
    Exchanging StreamMessage := do
  let encryptedGroupKeys ← keys.mapM (encryptKey publisher publicKey encryptionType)
  let recipient ← orRethrow .message (toUserIdRaw recipientId)
  let content ← orThrow .thrown (publisher.codec.responseToBinary
    ⟨requestId, recipient, encryptedGroupKeys, encryptionType⟩)
  createSignedMessage publisher
    { messageId := ⟨streamId, streamPartition, publisher.now, 0, publisherId,
        publisher.randomMsgChainId⟩
      prevMsgRef := none
      messageType := .groupKeyResponse
      content := content
      contentType := .binary
      signature := []
      signatureType := if responseType = .normal then publisher.identitySignatureType else .erc1271
      encryptionType := .none
      groupKeyId := none
      newGroupKey := none }

/-- The keys that are found under the requested ids. -/
def findKeys (store : LocalGroupKeyStore) (groupKeyIds : List String) :
    Exchanging (List GroupKey) := do
  let found ← groupKeyIds.mapM fun id ↦ orRethrow .groupKey (store.get id publisher.userId)
  return found.filterMap id

/-- The part of `onMessage` in which exceptions are caught. -/
def handleRequest (store : LocalGroupKeyStore) (request : StreamMessage) :
    Exchanging (Option Answer) := do
  let content ← orThrow .thrown (publisher.codec.requestFromBinary request.val.content)
  let recipientUserId := toUserId content.recipientId
  if isCompliantAsymmetricEncryptionType publisher content.encryptionType = false then
    throw (.encryptionPolicyViolation content.encryptionType)
  let responseType := getResponseType publisher recipientUserId
  if responseType = .none then return none
  ExceptT.adapt .validation
    (validateStreamMessage publisher.registry publisher.validation publisher.codec request.val)
  let keys ← findKeys publisher store content.groupKeyIds
  if keys = [] then return none
  let messageId := request.val.messageId
  ensureValidStreamPartitionIndex messageId.streamPartition
  let response ← createResponse publisher keys responseType recipientUserId messageId.streamId
    messageId.streamPartition content.publicKey messageId.publisherId content.requestId
    content.encryptionType
  return some ⟨keys, response⟩

/-- `onMessage`: the response that is broadcast, if there is one, and what was confirmed. -/
def onMessage (store : LocalGroupKeyStore) (message : StreamMessage) :
    Option Answer × List Confirmation :=
  if message.val.messageType = .groupKeyRequest then
    match (handleRequest publisher store message).exec [] with
    | (.ok answer, confirmations) => (answer, confirmations)
    | (.error _, confirmations) => (none, confirmations)
  else (none, [])

end Answering

/-! ### What is handed out -/

section HandedOut

variable {publisher : Publisher}

theorem exec_orThrow {Value : Type} {error : ExchangeError} {result : Option Value} {value : Value}
    {before after : List Confirmation}
    (hresult : (orThrow error result).exec before = (.ok value, after)) :
    result = some value ∧ after = before := by
  cases result with
  | none => cases hresult
  | some found =>
    cases hresult
    exact ⟨rfl, rfl⟩

theorem exec_orRethrow {Value Error : Type} {rethrown : Error → ExchangeError}
    {result : Except Error Value} {value : Value} {before after : List Confirmation}
    (hresult : (orRethrow rethrown result).exec before = (.ok value, after)) :
    result = .ok value ∧ after = before := by
  cases result with
  | error error => cases hresult
  | ok found =>
    cases hresult
    exact ⟨rfl, rfl⟩

theorem exec_ensureValidStreamPartitionIndex {streamPartition : ℕ}
    {before after : List Confirmation}
    (hvalid : (ensureValidStreamPartitionIndex streamPartition).exec before = (.ok (), after)) :
    after = before := by
  unfold ensureValidStreamPartitionIndex at hvalid
  split_ifs at hvalid <;> cases hvalid
  rfl

/-- The keys that are found are the last ones under the requested ids. -/
theorem exec_findKeys {keys : StoredKeys} (hholds : keys.HoldsLast publisher.userId)
    (groupKeyIds : List String) (confirmations : List Confirmation) :
    (findKeys publisher keys.store groupKeyIds).exec confirmations =
      (.ok (groupKeyIds.filterMap fun id ↦ (keys.lastStored id).map Prod.fst), confirmations) := by
  have hfound : ((groupKeyIds.mapM fun id ↦
      orRethrow .groupKey (keys.store.get id publisher.userId) :
      Exchanging (List (Option GroupKey)))).exec confirmations =
      (.ok (groupKeyIds.map fun id ↦ (keys.lastStored id).map Prod.fst), confirmations) := by
    induction groupKeyIds with
    | nil => rfl
    | cons id groupKeyIds ih =>
      rw [List.mapM_cons, get_eq_lastStored hholds, orRethrow, pure_bind, Throwing.exec_bind, ih]
      rfl
  rw [findKeys, Throwing.exec_bind, hfound]
  dsimp only
  rw [Throwing.exec_pure, List.filterMap_map]
  rfl

/-- The keys of a response, as they are in it: each with its id, and encrypted for the requester. -/
def Encrypts (publisher : Publisher) (request : GroupKeyRequest) (keys : List GroupKey)
    (response : StreamMessage) : Prop :=
  ∃ recipient encryptedGroupKeys, publisher.codec.responseToBinary
      ⟨request.requestId, recipient, encryptedGroupKeys, request.encryptionType⟩ =
        some response.val.content ∧
    List.Forall₂ (fun (key : GroupKey) (encrypted : EncryptedGroupKey) ↦ encrypted.id = key.id ∧
      publisher.encryptForPublicKey key.data request.publicKey request.encryptionType =
        some encrypted.data) keys encryptedGroupKeys

theorem encrypts_of_mapM {publicKey : List UInt8} {encryptionType : AsymmetricEncryptionType}
    {keys : List GroupKey} {encryptedGroupKeys : List EncryptedGroupKey}
    {before after : List Confirmation}
    (hencrypted : (keys.mapM (encryptKey publisher publicKey encryptionType)).exec before =
      (.ok encryptedGroupKeys, after)) :
    after = before ∧
      List.Forall₂ (fun (key : GroupKey) (encrypted : EncryptedGroupKey) ↦
        encrypted.id = key.id ∧ publisher.encryptForPublicKey key.data publicKey encryptionType =
          some encrypted.data) keys encryptedGroupKeys := by
  induction keys generalizing encryptedGroupKeys before after with
  | nil =>
    cases hencrypted
    exact ⟨rfl, .nil⟩
  | cons key keys ih =>
    rw [List.mapM_cons] at hencrypted
    obtain ⟨encrypted, middle, hfirst, hrest⟩ := Throwing.exec_bind_ok hencrypted
    obtain ⟨others, last, hothers, hresult⟩ := Throwing.exec_bind_ok hrest
    cases hresult
    obtain ⟨data, _, hdata, hkey⟩ := Throwing.exec_bind_ok hfirst
    cases hkey
    obtain ⟨hcipher, rfl⟩ := exec_orThrow hdata
    obtain ⟨rfl, hforall⟩ := ih hothers
    exact ⟨rfl, .cons ⟨rfl, hcipher⟩ hforall⟩

theorem content_of_createSignedMessage {options : StreamMessageOptions} {message : StreamMessage}
    {before after : List Confirmation}
    (hsigned : (createSignedMessage publisher options).exec before = (.ok message, after)) :
    message.val.content = options.content ∧ after = before := by
  obtain ⟨payload, _, hpayload, hrest⟩ := Throwing.exec_bind_ok hsigned
  obtain ⟨-, rfl⟩ := exec_orThrow hpayload
  obtain ⟨signature, _, hsignature, hcreate⟩ := Throwing.exec_bind_ok hrest
  obtain ⟨-, rfl⟩ := exec_orThrow hsignature
  obtain ⟨hmessage, rfl⟩ := exec_orRethrow hcreate
  rw [← StreamMessage.create_eq_ok_iff.mp hmessage]
  exact ⟨rfl, rfl⟩

theorem encrypts_of_createResponse {request : GroupKeyRequest} {keys : List GroupKey}
    {responseType : ResponseType} {publisherId streamId recipientId : String}
    {streamPartition : ℕ} {response : StreamMessage} {before after : List Confirmation}
    (hresponse : (createResponse publisher keys responseType publisherId streamId streamPartition
      request.publicKey recipientId request.requestId request.encryptionType).exec before =
        (.ok response, after)) :
    Encrypts publisher request keys response ∧ after = before := by
  obtain ⟨encryptedGroupKeys, _, hencrypted, hbehindKeys⟩ := Throwing.exec_bind_ok hresponse
  obtain ⟨rfl, hforall⟩ := encrypts_of_mapM hencrypted
  obtain ⟨recipient, _, hrecipient, hbehindRecipient⟩ := Throwing.exec_bind_ok hbehindKeys
  obtain ⟨-, rfl⟩ := exec_orRethrow hrecipient
  obtain ⟨content, _, hcontent, hsigned⟩ := Throwing.exec_bind_ok hbehindRecipient
  obtain ⟨hencoded, rfl⟩ := exec_orThrow hcontent
  obtain ⟨hmessage, rfl⟩ := content_of_createSignedMessage hsigned
  exact ⟨⟨recipient, encryptedGroupKeys, hmessage ▸ hencoded, hforall⟩, rfl⟩

/-- A request that was answered: it was validated, and the response has the keys that were stored
last under the ids it asks for.
Assumes: permissions are validated. -/
theorem answer_of_onMessage (hpermissions : publisher.validation.permissions = true)
    {keys : StoredKeys} (hholds : keys.HoldsLast publisher.userId) {request : StreamMessage}
    {answer : Answer} {confirmations : List Confirmation}
    (hanswer : onMessage publisher keys.store request = (some answer, confirmations)) :
    ∃ content, publisher.codec.requestFromBinary request.val.content = some content ∧
      confirmations =
        [.subscriber request.val.messageId.streamId request.val.messageId.publisherId,
          .publisher request.val.messageId.streamId (toUserId content.recipientId)] ∧
      answer.keys = content.groupKeyIds.filterMap (fun id ↦ (keys.lastStored id).map Prod.fst) ∧
      Encrypts publisher content answer.keys answer.response := by
  unfold onMessage at hanswer
  split_ifs at hanswer with htype
  swap
  · cases hanswer
  cases hhandled : (handleRequest publisher keys.store request).exec [] with
  | mk outcome after =>
  rw [hhandled] at hanswer
  cases outcome with
  | error error => cases hanswer
  | ok handled =>
  cases hanswer
  obtain ⟨content, _, hcontent, hbehindContent⟩ := Throwing.exec_bind_ok hhandled
  obtain ⟨hdecoded, rfl⟩ := exec_orThrow hcontent
  refine ⟨content, hdecoded, ?_⟩
  dsimp only at hbehindContent
  by_cases hcompliant : isCompliantAsymmetricEncryptionType publisher content.encryptionType = false
  · rw [if_pos hcompliant] at hbehindContent
    cases hbehindContent
  rw [if_neg hcompliant] at hbehindContent
  by_cases hnone : getResponseType publisher (toUserId content.recipientId) = .none
  · rw [if_pos hnone] at hbehindContent
    cases hbehindContent
  rw [if_neg hnone] at hbehindContent
  obtain ⟨⟨⟩, validated, hvalid, hbehindValid⟩ := Throwing.exec_bind_ok hbehindContent
  have hends : groupKeyEnds publisher.codec request.val =
      some (toUserId content.recipientId, request.val.messageId.publisherId) := by
    rw [groupKeyEnds, htype, hdecoded]
    rfl
  obtain ⟨-, rfl⟩ := confirmed_of_validated hpermissions hends (Throwing.exec_adapt_ok hvalid)
  rw [Throwing.exec_bind, exec_findKeys hholds] at hbehindValid
  dsimp only at hbehindValid
  generalize content.groupKeyIds.filterMap (fun id ↦ (keys.lastStored id).map Prod.fst) = found at *
  by_cases hfound : found = []
  · rw [if_pos hfound] at hbehindValid
    cases hbehindValid
  rw [if_neg hfound] at hbehindValid
  obtain ⟨⟨⟩, _, hpartition, hbehindPartition⟩ := Throwing.exec_bind_ok hbehindValid
  obtain ⟨response, last, hresponse, hresult⟩ := Throwing.exec_bind_ok hbehindPartition
  cases hresult
  obtain ⟨hencrypts, rfl⟩ := encrypts_of_createResponse hresponse
  exact ⟨exec_ensureValidStreamPartitionIndex hpartition, rfl, hencrypts⟩

/-- Every key of a response was stored for a stream of which the requester was confirmed to be a
subscriber. -/
def ConfirmedKeys (storedFor : List (GroupKey × String)) (requesterId : String) (answer : Answer)
    (confirmations : List Confirmation) : Prop :=
  ∀ key ∈ answer.keys, ∃ streamId, Confirmation.subscriber streamId requesterId ∈ confirmations ∧
    (key, streamId) ∈ storedFor

/-- The key that was stored last under a requested id had been stored for the stream that the
request names. -/
def StoredForStream (keys : StoredKeys) (codec : GroupKeyCodec) (request : StreamMessage) : Prop :=
  ∀ content, codec.requestFromBinary request.val.content = some content →
    ∀ id ∈ content.groupKeyIds, ∀ stored, keys.lastStored id = some stored →
      (stored.1, request.val.messageId.streamId) ∈ keys.storedFor

/-- The keys of a response were stored for a stream of which the requester was confirmed to be a
subscriber exactly if those under the requested ids were stored for the stream of the request.
Assumes: permissions are validated, and the request is answered. -/
theorem confirmedKeys_iff_storedForStream
    (hpermissions : publisher.validation.permissions = true) (history : List StoreKeyCall)
    {request : StreamMessage} {answer : Answer} {confirmations : List Confirmation}
    (hanswer : onMessage publisher (storeKeys publisher.userId history).store request =
      (some answer, confirmations)) :
    ConfirmedKeys (storeKeys publisher.userId history).storedFor
        request.val.messageId.publisherId answer confirmations ↔
      StoredForStream (storeKeys publisher.userId history) publisher.codec request := by
  generalize hkeys : storeKeys publisher.userId history = keys at *
  have hholds : keys.HoldsLast publisher.userId := hkeys ▸ holdsLast_storeKeys _ history
  obtain ⟨content, hdecoded, hconfirmations, hfound, -⟩ :=
    answer_of_onMessage hpermissions hholds hanswer
  constructor
  · intro hconfirmed other hother id hid stored hstored
    cases hdecoded.symm.trans hother
    have hmem : stored.1 ∈ answer.keys := by
      rw [hfound, List.mem_filterMap]
      exact ⟨id, hid, by rw [hstored]; rfl⟩
    obtain ⟨streamId, hsubscriber, hstoredFor⟩ := hconfirmed stored.1 hmem
    rw [hconfirmations] at hsubscriber
    simp only [List.mem_cons, Confirmation.subscriber.injEq, reduceCtorEq, List.not_mem_nil,
      or_false, and_true] at hsubscriber
    exact hsubscriber ▸ hstoredFor
  · intro hstoredFor key hkey
    rw [hfound, List.mem_filterMap] at hkey
    obtain ⟨id, hid, hlast⟩ := hkey
    obtain ⟨stored, hstored, rfl⟩ := Option.map_eq_some_iff.mp hlast
    refine ⟨request.val.messageId.streamId, ?_, hstoredFor content hdecoded id hid stored hstored⟩
    rw [hconfirmations]
    exact List.mem_cons_self

end HandedOut

/-! ### A request for a key of another stream -/

/-- A key of one repeated byte. -/
def sampleKey (id : String) (hid : id ≠ "") (hbegin : ¬ "---BEGIN".toList <:+: id.toList)
    (byte : UInt8) : GroupKey :=
  ⟨id, List.replicate 32 byte, hid, hbegin, List.length_replicate⟩

/-- The key that is stored for the stream `chat`. -/
def chatKey : GroupKey := sampleKey "c" (by decide) (by decide) 1

/-- The key that is stored for the stream `board`. -/
def boardKey : GroupKey := sampleKey "b" (by decide) (by decide) 2

/-- Both keys are stored. -/
def twoStreams : List StoreKeyCall :=
  [⟨some chatKey, "0xaa", "chat", chatKey⟩, ⟨some boardKey, "0xaa", "board", boardKey⟩]

/-- A request for a key. -/
def keyRequest (key : GroupKey) : GroupKeyRequest := ⟨"r", [0xaa], [0xcc], [key.id], .rsa⟩

/-- The response to it, with the key encrypted as `0xcc` and its first byte. -/
def keyResponse (key : GroupKey) : GroupKeyResponse :=
  ⟨"r", [0xbb], [⟨key.id, 0xcc :: key.data.take 1⟩], .rsa⟩

/-- A publisher of both streams. The requester is a subscriber of `chat` alone. The encoders and
decoders are those of the request and the response for one key. -/
def chatPublisher (key : GroupKey) : Publisher where
  userId := "0xaa"
  identitySignatureType := .ecdsaSecp256k1Evm
  erc1271Publishers := []
  requireQuantumResistantKeyExchange := false
  validation := ⟨true, true⟩
  registry :=
    { isSignatureValid := fun _ ↦ some true
      getPartitionCount := fun _ ↦ some 1
      isStreamPublisher := fun _ userId ↦ some (decide (userId = "0xaa"))
      isStreamSubscriber := fun streamId userId ↦
        some (decide (streamId = "chat" ∧ userId = "0xbb")) }
  codec :=
    { requestToBinary := fun request ↦ if request = keyRequest key then some [1] else none
      requestFromBinary := fun content ↦ if content = [1] then some (keyRequest key) else none
      responseToBinary := fun response ↦ if response = keyResponse key then some [2] else none
      responseFromBinary := fun content ↦ if content = [2] then some (keyResponse key) else none }
  numberToString := fun _ ↦ "0"
  encryptForPublicKey := fun plaintext publicKey _ ↦ some (publicKey ++ plaintext.take 1)
  createMessageSignature := fun _ ↦ some [3]
  now := 7
  randomMsgChainId := "chain"

/-- The message with the request, which names the stream `chat`. -/
def chatRequest : StreamMessage :=
  ⟨{ messageId := ⟨"chat", 0, 5, 0, "0xbb", "chain"⟩
     prevMsgRef := none
     messageType := .groupKeyRequest
     content := [1]
     contentType := .binary
     signature := [3]
     signatureType := .ecdsaSecp256k1Evm
     encryptionType := .none
     groupKeyId := none
     newGroupKey := none }, rfl⟩

/-- The response to the request for a key. -/
def chatAnswer (key : GroupKey) : Answer where
  keys := [key]
  response :=
    ⟨{ messageId := ⟨"chat", 0, 7, 0, "0xaa", "chain"⟩
       prevMsgRef := none
       messageType := .groupKeyResponse
       content := [2]
       contentType := .binary
       signature := [3]
       signatureType := .ecdsaSecp256k1Evm
       encryptionType := .none
       groupKeyId := none
       newGroupKey := none }, rfl⟩

/-- What is confirmed while the request is handled. -/
def chatConfirmations : List Confirmation := [.subscriber "chat" "0xbb", .publisher "chat" "0xaa"]

theorem onMessage_chatKey :
    onMessage (chatPublisher chatKey) (storeKeys "0xaa" twoStreams).store chatRequest =
      (some (chatAnswer chatKey), chatConfirmations) := by
  decide +kernel

/-- The key of the stream that the request names was stored for a stream of the requester. -/
theorem confirmedKeys_chatKey :
    ConfirmedKeys (storeKeys "0xaa" twoStreams).storedFor "0xbb" (chatAnswer chatKey)
      chatConfirmations := by
  refine (confirmedKeys_iff_storedForStream (by rfl) twoStreams onMessage_chatKey).mpr ?_
  rintro content hcontent id hid stored hstored
  cases hcontent
  cases List.mem_singleton.mp hid
  cases hstored
  decide +kernel

/-- The key of another stream is handed out to a user who is not a subscriber of that stream. -/
theorem key_of_another_stream :
    onMessage (chatPublisher boardKey) (storeKeys "0xaa" twoStreams).store chatRequest =
        (some (chatAnswer boardKey), chatConfirmations) ∧
      ¬ ConfirmedKeys (storeKeys "0xaa" twoStreams).storedFor "0xbb" (chatAnswer boardKey)
        chatConfirmations := by
  refine ⟨by decide +kernel, fun hconfirmed ↦ ?_⟩
  obtain ⟨streamId, hsubscriber, hstored⟩ := hconfirmed boardKey (List.mem_singleton_self _)
  have hchat : streamId = "chat" := by
    simpa [chatConfirmations] using hsubscriber
  exact absurd (hchat ▸ hstored) (by decide +kernel)

end PomboStorageNode.Sdk.PublisherKeyExchange
