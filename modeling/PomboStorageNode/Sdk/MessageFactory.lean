import PomboStorageNode.Library.OrderedMap
import PomboStorageNode.Library.Transition
import PomboStorageNode.Library.Delimited
import PomboStorageNode.Library.Throwing
import PomboStorageNode.Sdk.OrderedMessageChain
import Mathlib.Algebra.Order.Ring.Rat
import Mathlib.Data.Rat.Cast.Order

/-!
# The chains of a publisher

`MessageFactory.ts` creates the messages that a client publishes to a stream. Every message names
the message before it in the same chain, which is given by the partition and the chain id. The
factory remembers the reference of the last message of each chain in `prevMsgRefs`. A call of
`createMessage` awaits several lookups, and each of them may fail. The reference is written in the
middle of the call (`chain`), after which the call may still fail (`complete`).

`createMessage_cases` says what one call can do. `linked_of_completesChained` is about runs in which
every call that wrote the reference also returns the message: then every message names the one
before it. `unlinked_after_failure` is a run with a call that does not.
-/

set_option autoImplicit false

namespace PomboStorageNode.Sdk.MessageFactory

open Library OrderedMessageChain

/-! ### Messages -/

/-- `EncryptionType`. -/
inductive EncryptionType
  | none
  | aes
  deriving DecidableEq

/-- `ContentType`. -/
inductive ContentType
  | json
  | binary
  deriving DecidableEq

/-- The signature types that the factory chooses from: that of the identity, or `ERC_1271`. -/
inductive SignatureType
  | ofIdentity
  | erc1271
  deriving DecidableEq

/-- `MessageID`. -/
structure MessageID where
  streamId : String
  streamPartition : ℤ
  timestamp : ℕ
  sequenceNumber : ℕ
  publisherId : String
  msgChainId : String
  deriving DecidableEq

/-- `toMessageRef`. -/
def MessageID.toMessageRef (messageId : MessageID) : MessageRef :=
  ⟨messageId.timestamp, messageId.sequenceNumber⟩

/-- `EncryptedGroupKey`. -/
structure EncryptedGroupKey where
  id : String
  data : List UInt8
  deriving DecidableEq

/-- `StreamMessage`; the factory creates only those of type `MESSAGE`. -/
structure StreamMessage where
  messageId : MessageID
  prevMsgRef : Option MessageRef
  content : List UInt8
  contentType : ContentType
  encryptionType : EncryptionType
  groupKeyId : Option String
  newGroupKey : Option EncryptedGroupKey
  signature : List UInt8
  signatureType : SignatureType
  deriving DecidableEq

/-- The chain of a message: its partition and its chain id. -/
def StreamMessage.chain (message : StreamMessage) : ℤ × String :=
  (message.messageId.streamPartition, message.messageId.msgChainId)

/-- The reference of a message. -/
def StreamMessage.ref (message : StreamMessage) : MessageRef := message.messageId.toMessageRef

/-! ### Calls -/

/-- What the factory reads of the configuration, and the stream. -/
structure Config where
  streamId : String
  permissions : Bool
  partitions : Bool
  requireQuantumResistantEncryption : Bool

/-- A partition key: a text, with the first number of its hash, or a number. -/
inductive PartitionKey
  | text (intHash : ℤ)
  | number (value : ℤ)
  deriving DecidableEq

/-- The key sequence of `useGroupKey`: the id of the current key, the content encrypted with it, and
the next key encrypted with it, if there is one. -/
structure KeySequence where
  currentId : String
  encryptedContent : List UInt8
  next : Option EncryptedGroupKey
  deriving DecidableEq

/-- What the calls return that `createMessage` makes, `none` where they throw. -/
structure Answers where
  publisherId : Option String
  isStreamPublisher : Option Bool
  partitionCount : Option ℕ
  randomPartition : ℕ
  randomMsgChainId : String
  hasPublicSubscribePermission : Option Bool
  rawContent : Option (List UInt8)
  useGroupKey : Option KeySequence
  signature : Option (List UInt8)
  signatureIsValid : Bool

/-- A call of `createMessage`. -/
structure Call where
  contentType : ContentType
  timestamp : ℚ
  partitionKey : Option PartitionKey
  msgChainId : Option String
  hasErc1271Contract : Bool
  explicitPartition : Option ℤ
  answers : Answers

/-- The errors: what an awaited call throws, the errors of the factory with their texts, and the
validation errors with the values that their texts show. -/
inductive Error
  | thrown
  | clientError (message code : String)
  | error (message : String)
  | notAnInteger (varName : String) (varValue : ℚ)
  | negative (varName : String) (varValue : ℚ)
  | identicalRefs (current previous : MessageRef)
  | refsOutOfOrder (current previous : MessageRef)
  deriving DecidableEq

/-! ### The factory -/

/-- The fields of `MessageFactory` that calls change. -/
structure Factory where
  defaultPartition : Option ℕ
  defaultMessageChainIds : OrderedMap ℤ String
  prevMsgRefs : OrderedMap String MessageRef
  firstMessage : Bool

/-- A new factory. -/
def Factory.create : Factory := ⟨none, OrderedMap.empty, OrderedMap.empty, true⟩

/-- What the parts of `createMessage` are. -/
abbrev FactoryM := Throwing Error Factory

/-- The value that an awaited call returned. -/
def awaited {Value : Type} : Option Value → FactoryM Value
  | some value => pure value
  | none => throw .thrown

/-- `formLookupKey` of a partition and a chain id. -/
def formLookupKey (partition : ℤ) (msgChainId : String) : String :=
  toString partition ++ "|" ++ msgChainId

/-- `keyToArrayIndex`. -/
def keyToArrayIndex (lengthOfArray : ℕ) (key : PartitionKey) : FactoryM ℤ := do
  if lengthOfArray = 0 then
    throw (.error ("lengthOfArray is not a safe positive integer! " ++ toString lengthOfArray))
  if lengthOfArray = 1 then
    return 0
  match key with
  | .number value => return (value.natAbs % lengthOfArray : ℕ)
  | .text intHash => return (intHash.natAbs % lengthOfArray : ℕ)

/-- `getDefaultPartition`. -/
def getDefaultPartition (partitionCount randomPartition : ℕ) : FactoryM ℤ := do
  let factory ← get
  match factory.defaultPartition with
  | some defaultPartition =>
    if defaultPartition ≥ partitionCount then
      modify fun factory ↦ { factory with defaultPartition := some randomPartition }
      return randomPartition
    else
      return defaultPartition
  | none =>
    modify fun factory ↦ { factory with defaultPartition := some randomPartition }
    return randomPartition

/-- The permission check of `createMessage`. -/
def checkPublisher (config : Config) (call : Call) (publisherId : String) : FactoryM PUnit := do
  if config.permissions then
    let isPublisher ← awaited call.answers.isStreamPublisher
    if !isPublisher then
      throw (.clientError ("You don't have permission to publish to this stream. Using address: "
        ++ publisherId) "MISSING_PERMISSION")

/-- The choice of the partition in `createMessage`. -/
def choosePartition (config : Config) (call : Call) : FactoryM ℤ := do
  if !config.partitions then
    match call.explicitPartition with
    | none => throw (.error "Explicit partition must be set when partition validation is disabled")
    | some explicitPartition => return explicitPartition
  else
    let partitionCount ← awaited call.answers.partitionCount
    match call.explicitPartition with
    | some explicitPartition =>
      if explicitPartition < 0 ∨ explicitPartition ≥ partitionCount then
        throw (.error ("Partition " ++ toString explicitPartition ++ " is out of range (0.." ++
          toString ((partitionCount : ℤ) - 1) ++ ")"))
      if call.partitionKey.isSome then
        throw (.error "Invalid combination of \"partition\" and \"partitionKey\"")
      return explicitPartition
    | none =>
      match call.partitionKey with
      | some partitionKey => keyToArrayIndex partitionCount partitionKey
      | none => getDefaultPartition partitionCount call.answers.randomPartition

/-- The chain id of a call: the one it gives, or the default one of the partition. -/
def chooseMsgChainId (call : Call) (partition : ℤ) : FactoryM String := do
  match call.msgChainId with
  | some msgChainId => return msgChainId
  | none =>
    let factory ← get
    match factory.defaultMessageChainIds.get? partition with
    | some msgChainId => return msgChainId
    | none =>
      let msgChainId := call.answers.randomMsgChainId
      modify fun factory ↦ { factory with
        defaultMessageChainIds := factory.defaultMessageChainIds.set partition msgChainId }
      return msgChainId

/-- `createMessageRef`. -/
def createMessageRef (timestamp : ℚ) (prevMsgRef : Option MessageRef) :
    Except Error MessageRef :=
  if prevMsgRef.any fun prevMsgRef ↦ timestamp < prevMsgRef.timestamp then
    .error (.error "prevMessageRef must come before current")
  else if timestamp.den ≠ 1 then
    .error (.notAnInteger "timestamp" timestamp)
  else if timestamp < 0 then
    .error (.negative "timestamp" timestamp)
  else
    .ok ⟨timestamp.num.toNat, match prevMsgRef with
      | some prevMsgRef =>
        if prevMsgRef.timestamp = timestamp then prevMsgRef.sequenceNumber + 1 else 0
      | none => 0⟩

/-- What `createMessage` does before it reads `prevMsgRefs`: the publisher id and the chain. -/
def prepare (config : Config) (call : Call) : FactoryM (String × ℤ × String) := do
  let publisherId ← awaited call.answers.publisherId
  checkPublisher config call publisherId
  let partition ← choosePartition config call
  let msgChainId ← chooseMsgChainId call partition
  return (publisherId, partition, msgChainId)

/-- The reference of the new message and the one before it; the new one becomes the last one of the
chain. -/
def chain (timestamp : ℚ) (partition : ℤ) (msgChainId : String) :
    FactoryM (MessageRef × Option MessageRef) := do
  let factory ← get
  let msgChainKey := formLookupKey partition msgChainId
  let prevMsgRef := factory.prevMsgRefs.get? msgChainKey
  match createMessageRef timestamp prevMsgRef with
  | .ok msgRef =>
    modify fun factory ↦ { factory with
      prevMsgRefs := factory.prevMsgRefs.set msgChainKey msgRef }
    return (msgRef, prevMsgRef)
  | .error error => throw error

/-- What `createMessage` knows of the new message once the reference is written. -/
structure Enchained where
  publisherId : String
  partition : ℤ
  msgChainId : String
  msgRef : MessageRef
  prevMsgRef : Option MessageRef

/-- `createMessage` up to the point where the reference is written. -/
def enchain (config : Config) (call : Call) : FactoryM Enchained := do
  let (publisherId, partition, msgChainId) ← prepare config call
  let (msgRef, prevMsgRef) ← chain call.timestamp partition msgChainId
  return ⟨publisherId, partition, msgChainId, msgRef, prevMsgRef⟩

/-- `isCompliantEncryptionType`: only `AES` resists. -/
def isCompliantEncryptionType (config : Config) (encryptionType : EncryptionType) : Bool :=
  encryptionType = .aes || !config.requireQuantumResistantEncryption

/-- The constructor of `MessageID`. -/
def createMessageID (config : Config) (enchained : Enchained) : FactoryM MessageID := do
  if enchained.partition < 0 then
    throw (.negative "streamPartition" enchained.partition)
  return ⟨config.streamId, enchained.partition, enchained.msgRef.timestamp,
    enchained.msgRef.sequenceNumber, enchained.publisherId, enchained.msgChainId⟩

/-- The encryption type of the message, which has to be compliant. -/
def chooseEncryptionType (config : Config) (call : Call) : FactoryM EncryptionType := do
  let encryptionType ← if config.permissions then
      (fun isPublic ↦ if isPublic then .none else .aes) <$>
        awaited call.answers.hasPublicSubscribePermission
    else
      pure .aes
  if !isCompliantEncryptionType config encryptionType then
    throw (.clientError ("Publishing to stream " ++ config.streamId ++
      " was prevented because configuration requires encryption!") "ENCRYPTION_POLICY_VIOLATION")
  return encryptionType

/-- The key sequence of a message that is encrypted. -/
def useGroupKey (call : Call) (encryptionType : EncryptionType) :
    FactoryM (Option KeySequence) :=
  if encryptionType = .aes then some <$> awaited call.answers.useGroupKey else pure none

/-- `validateSequence`. -/
def validateSequence (messageId : MessageID) (prevMsgRef : Option MessageRef) : FactoryM PUnit :=
  match prevMsgRef with
  | none => pure ⟨⟩
  | some prevMsgRef =>
    let comparison := messageId.toMessageRef.compareTo prevMsgRef
    if comparison = 0 then
      throw (.identicalRefs messageId.toMessageRef prevMsgRef)
    else if comparison < 0 then
      throw (.refsOutOfOrder messageId.toMessageRef prevMsgRef)
    else
      pure ⟨⟩

/-- `createSignedMessage`, with the content and the keys that the factory gives it. -/
def createSignedMessage (call : Call) (messageId : MessageID) (prevMsgRef : Option MessageRef)
    (rawContent : List UInt8) (encryptionType : EncryptionType)
    (keySequence : Option KeySequence) : FactoryM StreamMessage := do
  let signature ← awaited call.answers.signature
  validateSequence messageId prevMsgRef
  return {
    messageId
    prevMsgRef
    content := match keySequence with
      | some keySequence => keySequence.encryptedContent
      | none => rawContent
    contentType := call.contentType
    encryptionType
    groupKeyId := keySequence.map KeySequence.currentId
    newGroupKey := keySequence.bind KeySequence.next
    signature
    signatureType := if call.hasErc1271Contract then .erc1271 else .ofIdentity }

/-- The signature check of the first message. -/
def assertFirstSignature (call : Call) : FactoryM PUnit := do
  let factory ← get
  if factory.firstMessage then
    modify fun factory ↦ { factory with firstMessage := false }
    if call.hasErc1271Contract && !call.answers.signatureIsValid then
      throw .thrown

/-- What `createMessage` does once the reference is written. -/
def complete (config : Config) (call : Call) (enchained : Enchained) : FactoryM StreamMessage := do
  let messageId ← createMessageID config enchained
  let encryptionType ← chooseEncryptionType config call
  let rawContent ← awaited call.answers.rawContent
  let keySequence ← useGroupKey call encryptionType
  let message ← createSignedMessage call messageId enchained.prevMsgRef rawContent encryptionType
    keySequence
  assertFirstSignature call
  return message

/-- `createMessage`. -/
def createMessage (config : Config) (call : Call) : FactoryM StreamMessage := do
  complete config call (← enchain config call)

/-! ### Lookup keys -/

/-- The text of a natural number has only digits. -/
theorem isDigit_of_mem_repr {number : ℕ} {character : Char}
    (hmem : character ∈ (Nat.repr number).toList) : character.isDigit = true := by
  rw [Nat.repr, String.toList_ofList] at hmem
  exact Nat.isDigit_of_mem_toDigits (by decide) (by decide) hmem

theorem natRepr_injective : Function.Injective Nat.repr := by
  intro first second heq
  have hlist := congrArg String.toList heq
  simp only [Nat.repr, String.toList_ofList] at hlist
  have hvalue := congrArg (fun digits ↦ Nat.ofDigitChars 10 digits 0) hlist
  simpa only [Nat.ofDigitChars_ten_toDigits] using hvalue

/-- The text of an integer: that of a natural number, possibly behind a minus sign. -/
theorem toList_toString_int (number : ℤ) : (toString number).toList = match number with
    | .ofNat number => (Nat.repr number).toList
    | .negSucc number => '-' :: (Nat.repr (number + 1)).toList := by
  cases number with
  | ofNat number => rfl
  | negSucc number => exact String.toList_append

theorem delimiter_notMem_toString (partition : ℤ) : '|' ∉ (toString partition).toList := by
  have hdigits (number : ℕ) : '|' ∉ (Nat.repr number).toList :=
    fun hmem ↦ absurd (isDigit_of_mem_repr hmem) (by decide)
  rw [toList_toString_int]
  cases partition with
  | ofNat number => exact hdigits number
  | negSucc number => exact fun hmem ↦ (List.mem_cons.mp hmem).elim (by decide) (hdigits _)

theorem toString_int_injective : Function.Injective (toString : ℤ → String) := by
  have hminus (number : ℕ) {digits : List Char} : (Nat.repr number).toList ≠ '-' :: digits := by
    intro heq
    have hmem : '-' ∈ (Nat.repr number).toList := heq ▸ List.mem_cons_self
    exact absurd (isDigit_of_mem_repr hmem) (by decide)
  intro first second heq
  have hlist := congrArg String.toList heq
  rw [toList_toString_int, toList_toString_int] at hlist
  cases first with
  | ofNat first =>
    cases second with
    | ofNat second => exact congrArg Int.ofNat (natRepr_injective (String.toList_inj.mp hlist))
    | negSucc second => exact absurd hlist (hminus first)
  | negSucc first =>
    cases second with
    | ofNat second => exact absurd hlist.symm (hminus second)
    | negSucc second =>
      have htexts := String.toList_inj.mp (List.cons.inj hlist).2
      rw [Nat.succ_injective (natRepr_injective htexts)]

/-- The key of a chain determines it. -/
theorem formLookupKey_inj {partition other : ℤ} {msgChainId otherId : String}
    (heq : formLookupKey partition msgChainId = formLookupKey other otherId) :
    (partition, msgChainId) = (other, otherId) := by
  have hlist := congrArg String.toList heq
  simp only [formLookupKey, String.toList_append, List.append_assoc] at hlist
  have hcount : (toString partition).toList.count '|' = (toString other).toList.count '|' := by
    rw [List.count_eq_zero.mpr (delimiter_notMem_toString partition),
      List.count_eq_zero.mpr (delimiter_notMem_toString other)]
  obtain ⟨hpartition, hid⟩ := Delimited.append_cons_inj_of_count hcount hlist
  rw [toString_int_injective (String.toList_inj.mp hpartition), String.toList_inj.mp hid]

/-! ### References -/

/-- A new reference comes after the last one of the chain. -/
theorem lt_of_createMessageRef {timestamp : ℚ} {prevMsgRef : Option MessageRef}
    {msgRef previous : MessageRef} (hcreate : createMessageRef timestamp prevMsgRef = .ok msgRef)
    (hprevious : prevMsgRef = some previous) : previous < msgRef := by
  subst hprevious
  unfold createMessageRef at hcreate
  split_ifs at hcreate with hbackdated hden hnegative
  obtain rfl := Except.ok.inj hcreate
  have htimestamp : (timestamp.num.toNat : ℚ) = timestamp := by
    have hnum : 0 ≤ timestamp.num := Rat.num_nonneg.mpr (not_lt.mp hnegative)
    have hint : ((timestamp.num.toNat : ℤ) : ℚ) = timestamp := by
      rw [Int.toNat_of_nonneg hnum, Rat.coe_int_num_of_den_eq_one (not_not.mp hden)]
    exact_mod_cast hint
  have hle : previous.timestamp ≤ timestamp.num.toNat := by
    rw [Option.any_some, decide_eq_true_eq, not_lt, ← htimestamp] at hbackdated
    exact_mod_cast hbackdated
  rw [MessageRef.lt_iff]
  rcases hle.lt_or_eq with hlt | heq
  · exact Or.inl hlt
  · refine Or.inr ⟨heq, ?_⟩
    have hsame : (previous.timestamp : ℚ) = timestamp := by rw [heq, htimestamp]
    simp [hsame]

/-! ### What one call can do -/

/-- Whether everything goes well that `createMessage` does once the reference is written: the
partition is not negative, the encryption type is found and compliant, the content is serialised, a
group key is found where one is needed, the message is signed, and the signature of the first
message on behalf of a contract is valid. -/
def completes (config : Config) (firstMessage : Bool) (call : Call) : Bool :=
  call.explicitPartition.all (0 ≤ ·) &&
  (if config.permissions then
    match call.answers.hasPublicSubscribePermission with
    | some true => isCompliantEncryptionType config .none
    | some false => call.answers.useGroupKey.isSome
    | none => false
  else call.answers.useGroupKey.isSome) &&
  call.answers.rawContent.isSome && call.answers.signature.isSome &&
  !(firstMessage && call.hasErc1271Contract && !call.answers.signatureIsValid)

/-- What a call leaves alone before it writes the reference. -/
def Factory.unwritten (factory : Factory) : OrderedMap String MessageRef × Bool :=
  (factory.prevMsgRefs, factory.firstMessage)

theorem keeps_awaited {Value : Type} (answer : Option Value) :
    Throwing.Keeps Factory.unwritten (awaited answer) := by
  cases answer with
  | none => exact .throw _
  | some value => exact .pure value

theorem keeps_checkPublisher (config : Config) (call : Call) (publisherId : String) :
    Throwing.Keeps Factory.unwritten (checkPublisher config call publisherId) := by
  refine .ite (.bind (keeps_awaited _) fun isPublisher ↦ .ite (.throw _) (.pure _)) (.pure _)

theorem keeps_keyToArrayIndex (lengthOfArray : ℕ) (key : PartitionKey) :
    Throwing.Keeps Factory.unwritten (keyToArrayIndex lengthOfArray key) := by
  refine .ite (.throw _) (.ite (.pure _) ?_)
  cases key with
  | text intHash => exact .pure _
  | number value => exact .pure _

theorem keeps_getDefaultPartition (partitionCount randomPartition : ℕ) :
    Throwing.Keeps Factory.unwritten (getDefaultPartition partitionCount randomPartition) := by
  refine .bind .get fun factory ↦ ?_
  have hset : Throwing.Keeps Factory.unwritten (do
      modify fun factory ↦ { factory with defaultPartition := some randomPartition }
      return (randomPartition : ℤ) : FactoryM ℤ) :=
    .bind (.modify fun _ ↦ rfl) fun _ ↦ .pure _
  cases factory.defaultPartition with
  | none => exact hset
  | some defaultPartition => exact .ite hset (.pure _)

theorem keeps_choosePartition (config : Config) (call : Call) :
    Throwing.Keeps Factory.unwritten (choosePartition config call) := by
  refine .ite ?_ (.bind (keeps_awaited _) fun partitionCount ↦ ?_)
  · cases call.explicitPartition with
    | none => exact .throw _
    | some explicitPartition => exact .pure _
  · cases call.explicitPartition with
    | some explicitPartition => exact .ite (.throw _) (.ite (.throw _) (.pure _))
    | none =>
      cases call.partitionKey with
      | some partitionKey => exact keeps_keyToArrayIndex _ _
      | none => exact keeps_getDefaultPartition _ _

theorem keeps_chooseMsgChainId (call : Call) (partition : ℤ) :
    Throwing.Keeps Factory.unwritten (chooseMsgChainId call partition) := by
  unfold chooseMsgChainId
  cases call.msgChainId with
  | some msgChainId => exact .pure _
  | none =>
    refine .bind .get fun factory ↦ ?_
    cases factory.defaultMessageChainIds.get? partition with
    | some msgChainId => exact .pure _
    | none => exact .bind (.modify fun _ ↦ rfl) fun _ ↦ .pure _

theorem keeps_prepare (config : Config) (call : Call) :
    Throwing.Keeps Factory.unwritten (prepare config call) := by
  refine .bind (keeps_awaited _) fun publisherId ↦ ?_
  refine .bind (keeps_checkPublisher _ _ _) fun _ ↦ ?_
  refine .bind (keeps_choosePartition _ _) fun partition ↦ ?_
  exact .bind (keeps_chooseMsgChainId _ _) fun msgChainId ↦ .pure _

/-- The partition of a call is not negative unless the call gives a negative one. -/
theorem ensures_choosePartition {config : Config} {call : Call}
    (hexplicit : call.explicitPartition.all (0 ≤ ·) = true) :
    Throwing.Ensures (choosePartition config call) (0 ≤ ·) := by
  refine .ite (fun _ ↦ ?_) fun _ ↦ .bind (.trivial _) fun partitionCount _ ↦ ?_
  · cases hpartition : call.explicitPartition with
    | none => exact .throw _
    | some explicitPartition => exact .pure (by simpa [hpartition] using hexplicit)
  · cases hpartition : call.explicitPartition with
    | some explicitPartition =>
      exact .ite (fun _ ↦ .throw _) fun _ ↦ .ite (fun _ ↦ .throw _) fun _ ↦
        .pure (by simpa [hpartition] using hexplicit)
    | none =>
      cases call.partitionKey with
      | some partitionKey =>
        refine .ite (fun _ ↦ .throw _) fun _ ↦ .ite (fun _ ↦ .pure le_rfl) fun _ ↦ ?_
        cases partitionKey with
        | text intHash => exact .pure (Int.natCast_nonneg _)
        | number value => exact .pure (Int.natCast_nonneg _)
      | none =>
        refine .bind (.trivial _) fun factory _ ↦ ?_
        cases factory.defaultPartition with
        | none => exact .bind (.trivial _) fun _ _ ↦ .pure (Int.natCast_nonneg _)
        | some defaultPartition =>
          exact .ite (fun _ ↦ .bind (.trivial _) fun _ _ ↦ .pure (Int.natCast_nonneg _))
            fun _ ↦ .pure (Int.natCast_nonneg _)

theorem ensures_prepare {config : Config} {call : Call}
    (hexplicit : call.explicitPartition.all (0 ≤ ·) = true) :
    Throwing.Ensures (prepare config call) (0 ≤ ·.2.1) := by
  refine .bind (.trivial _) fun publisherId _ ↦ .bind (.trivial _) fun _ _ ↦ ?_
  refine .bind (ensures_choosePartition hexplicit) fun partition hpartition ↦ ?_
  exact .bind (.trivial _) fun msgChainId _ ↦ .pure hpartition

/-- The key of the chain that a message belongs to. -/
def Enchained.key (enchained : Enchained) : String :=
  formLookupKey enchained.partition enchained.msgChainId

/-- `createMessage` writes the reference: the new one comes after the last one of the chain, which
is what the message will name. -/
structure Written (factory after : Factory) (enchained : Enchained) : Prop where
  prevMsgRef : enchained.prevMsgRef = factory.prevMsgRefs.get? enchained.key
  prevMsgRefs : after.prevMsgRefs = factory.prevMsgRefs.set enchained.key enchained.msgRef
  firstMessage : after.firstMessage = factory.firstMessage
  lt : ∀ previous, enchained.prevMsgRef = some previous → previous < enchained.msgRef

theorem exec_chain (timestamp : ℚ) (partition : ℤ) (msgChainId : String) (factory : Factory) :
    Throwing.exec (chain timestamp partition msgChainId) factory =
      match createMessageRef timestamp
        (factory.prevMsgRefs.get? (formLookupKey partition msgChainId)) with
      | .ok msgRef => (.ok (msgRef, factory.prevMsgRefs.get? (formLookupKey partition msgChainId)),
          { factory with
            prevMsgRefs := factory.prevMsgRefs.set (formLookupKey partition msgChainId) msgRef })
      | .error error => (.error error, factory) := by
  rw [chain, Throwing.exec_bind, Throwing.exec_get]
  dsimp only
  cases createMessageRef timestamp
    (factory.prevMsgRefs.get? (formLookupKey partition msgChainId)) with
  | ok msgRef => rfl
  | error error => rfl

/-- Up to the write, a call fails and leaves the references alone, or it has written its own. -/
theorem enchain_cases (config : Config) (call : Call) (factory : Factory) :
    (∃ error after, Throwing.exec (enchain config call) factory = (.error error, after) ∧
      after.prevMsgRefs = factory.prevMsgRefs) ∨
    ∃ enchained after, Throwing.exec (enchain config call) factory = (.ok enchained, after) ∧
      Written factory after enchained ∧
      (call.explicitPartition.all (0 ≤ ·) = true → 0 ≤ enchained.partition) := by
  have hkeeps := keeps_prepare config call factory
  have hpartition := fun hexplicit ↦ @ensures_prepare config call hexplicit factory
  rw [enchain, Throwing.exec_bind]
  generalize Throwing.exec (prepare config call) factory = outcome at hkeeps hpartition
  obtain ⟨error | ⟨publisherId, partition, msgChainId⟩, prepared⟩ := outcome
  · exact Or.inl ⟨error, prepared, rfl, congrArg Prod.fst hkeeps⟩
  · obtain ⟨hrefs, hfirst⟩ := Prod.mk.inj hkeeps
    dsimp only
    rw [Throwing.exec_bind, exec_chain]
    cases hcreate : createMessageRef call.timestamp
        (prepared.prevMsgRefs.get? (formLookupKey partition msgChainId)) with
    | error error => exact Or.inl ⟨error, prepared, rfl, hrefs⟩
    | ok msgRef =>
      refine Or.inr ⟨⟨publisherId, partition, msgChainId, msgRef, _⟩, _, rfl,
        ⟨?_, ?_, hfirst, fun previous ↦ lt_of_createMessageRef hcreate⟩,
        fun hexplicit ↦ hpartition hexplicit _ _ rfl⟩
      · exact congrArg (OrderedMap.get? · _) hrefs
      · exact congrArg (OrderedMap.set · _ _) hrefs
/-- A message was created from what was written. -/
structure CreatedFrom (enchained : Enchained) (message : StreamMessage) : Prop where
  chain : message.chain = (enchained.partition, enchained.msgChainId)
  ref : message.ref = enchained.msgRef
  prevMsgRef : message.prevMsgRef = enchained.prevMsgRef

theorem exec_awaited {Value : Type} (value : Value) (factory : Factory) :
    Throwing.exec (awaited (some value)) factory = (.ok value, factory) := rfl

theorem exec_createMessageID {config : Config} {enchained : Enchained}
    (hpartition : 0 ≤ enchained.partition) (factory : Factory) :
    ∃ messageId, Throwing.exec (createMessageID config enchained) factory =
        (.ok messageId, factory) ∧
      (messageId.streamPartition, messageId.msgChainId) =
        (enchained.partition, enchained.msgChainId) ∧
      messageId.toMessageRef = enchained.msgRef := by
  rw [createMessageID, if_neg hpartition.not_gt]
  exact ⟨_, rfl, rfl, rfl⟩

/-- Where everything goes well, the encryption type is compliant, and the key that it needs is
found. -/
theorem exec_chooseEncryptionType {config : Config} {call : Call} {firstMessage : Bool}
    (hcompletes : completes config firstMessage call = true) (factory : Factory) :
    ∃ encryptionType keySequence,
      Throwing.exec (chooseEncryptionType config call) factory = (.ok encryptionType, factory) ∧
      Throwing.exec (useGroupKey call encryptionType) factory = (.ok keySequence, factory) := by
  simp only [completes, Bool.and_eq_true] at hcompletes
  have hencryption := hcompletes.1.1.1.2
  have hkey : call.answers.useGroupKey.isSome = true → ∃ keySequence,
      Throwing.exec (useGroupKey call .aes) factory = (.ok keySequence, factory) := by
    intro hsome
    obtain ⟨keySequence, hkey⟩ := Option.isSome_iff_exists.mp hsome
    exact ⟨some keySequence, by rw [useGroupKey, hkey]; rfl⟩
  unfold chooseEncryptionType
  split_ifs at hencryption ⊢ with hpermissions
  · cases hpublic : call.answers.hasPublicSubscribePermission with
    | none => simp [hpublic] at hencryption
    | some isPublic =>
      cases isPublic with
      | true =>
        simp only [hpublic] at hencryption
        refine ⟨.none, none, ?_, rfl⟩
        simp [awaited, hencryption]
      | false =>
        simp only [hpublic] at hencryption
        obtain ⟨keySequence, hexec⟩ := hkey hencryption
        exact ⟨.aes, keySequence, rfl, hexec⟩
  · obtain ⟨keySequence, hexec⟩ := hkey hencryption
    exact ⟨.aes, keySequence, rfl, hexec⟩

theorem exec_validateSequence {messageId : MessageID} {prevMsgRef : Option MessageRef}
    (hlt : ∀ previous, prevMsgRef = some previous → previous < messageId.toMessageRef)
    (factory : Factory) :
    Throwing.exec (validateSequence messageId prevMsgRef) factory = (.ok ⟨⟩, factory) := by
  cases prevMsgRef with
  | none => rfl
  | some previous =>
    have hlt := hlt previous rfl
    have hzero : messageId.toMessageRef.compareTo previous ≠ 0 :=
      fun heq ↦ hlt.ne' (MessageRef.compareTo_zero_iff.mp heq)
    have hneg : ¬ messageId.toMessageRef.compareTo previous < 0 :=
      fun hneg ↦ hlt.asymm (MessageRef.compareTo_neg_iff.mp hneg)
    simp [validateSequence, hzero, hneg]

theorem exec_assertFirstSignature {call : Call} {factory : Factory}
    (hvalid : (factory.firstMessage && call.hasErc1271Contract &&
      !call.answers.signatureIsValid) = false) :
    Throwing.exec (assertFirstSignature call) factory =
      (.ok ⟨⟩, { factory with firstMessage := false }) := by
  obtain ⟨defaultPartition, defaultMessageChainIds, prevMsgRefs, firstMessage⟩ := factory
  cases firstMessage with
  | false => rfl
  | true =>
    have hcheck : (call.hasErc1271Contract && !call.answers.signatureIsValid) = false := hvalid
    simp [assertFirstSignature, Throwing.exec_bind, hcheck]

/-- Where everything goes well behind the write, the message is created. -/
theorem exec_complete {config : Config} {call : Call} {factory : Factory} {enchained : Enchained}
    (hcompletes : completes config factory.firstMessage call = true)
    (hpartition : 0 ≤ enchained.partition)
    (hlt : ∀ previous, enchained.prevMsgRef = some previous → previous < enchained.msgRef) :
    ∃ message after, Throwing.exec (complete config call enchained) factory = (.ok message, after) ∧
      CreatedFrom enchained message ∧ after.prevMsgRefs = factory.prevMsgRefs := by
  obtain ⟨messageId, hid, hchain, href⟩ := @exec_createMessageID config _ hpartition factory
  obtain ⟨encryptionType, keySequence, hencryption, hkey⟩ :=
    exec_chooseEncryptionType hcompletes factory
  simp only [completes, Bool.and_eq_true, Option.isSome_iff_exists, Bool.not_eq_true'] at hcompletes
  obtain ⟨⟨⟨-, rawContent, hraw⟩, signature, hsignature⟩, hvalid⟩ := hcompletes
  have hsequence : Throwing.exec (validateSequence messageId enchained.prevMsgRef) factory =
      (.ok ⟨⟩, factory) :=
    exec_validateSequence (fun previous hprevious ↦ href ▸ hlt previous hprevious) factory
  simp only [complete, createSignedMessage, Throwing.exec_bind, hid, hencryption, hraw,
    exec_awaited, hkey, hsignature, hsequence, Throwing.exec_pure,
    exec_assertFirstSignature hvalid]
  exact ⟨_, _, rfl, ⟨hchain, href, rfl⟩, rfl⟩

/-! ### Runs of calls -/

/-- The factory and the messages that were created, the latest one last. -/
structure State where
  factory : Factory
  messages : List StreamMessage

/-- Nothing has been created. -/
def State.initial : State := ⟨Factory.create, []⟩

/-- One call; the publisher makes them one at a time. -/
def step (config : Config) (state : State) (call : Call) : Option State :=
  match Throwing.exec (createMessage config call) state.factory with
  | (.ok message, factory) => some ⟨factory, state.messages ++ [message]⟩
  | (.error _, factory) => some ⟨factory, state.messages⟩

/-- Whether a call gets as far as the write of the reference. -/
def writesRef (config : Config) (call : Call) (factory : Factory) : Bool :=
  (Throwing.exec (enchain config call) factory).1.isOk

/-- A call that writes the reference also returns the message. -/
def CompletesChained (config : Config) (state : State) (call : Call) : Prop :=
  writesRef config call state.factory = true →
    completes config state.factory.firstMessage call = true

instance (config : Config) (state : State) (call : Call) :
    Decidable (CompletesChained config state call) :=
  inferInstanceAs (Decidable (writesRef config call state.factory = true →
    completes config state.factory.firstMessage call = true))

/-- The reference of the last message of a chain. -/
def lastRef (messages : List StreamMessage) (chain : ℤ × String) : Option MessageRef :=
  (messages.filter (·.chain = chain)).getLast?.map StreamMessage.ref

/-- Every message names the one before it in its chain, and comes after all of them. -/
def Linked (messages : List StreamMessage) : Prop :=
  ∀ before message after, messages = before ++ message :: after →
    message.prevMsgRef = lastRef before message.chain ∧
    ∀ earlier ∈ before, earlier.chain = message.chain → earlier.ref < message.ref

theorem lastRef_append {messages : List StreamMessage} {message : StreamMessage}
    {chain : ℤ × String} : lastRef (messages ++ [message]) chain =
      if message.chain = chain then some message.ref else lastRef messages chain := by
  rw [lastRef, List.filter_append]
  split_ifs with hchain
  · simp [hchain]
  · simp [hchain, lastRef]

/-- A message that names the last one of its chain, and comes after all of them, is linked to the
messages before it. -/
theorem Linked.append {messages : List StreamMessage} {message : StreamMessage}
    (hlinked : Linked messages) (hprev : message.prevMsgRef = lastRef messages message.chain)
    (hlt : ∀ earlier ∈ messages, earlier.chain = message.chain → earlier.ref < message.ref) :
    Linked (messages ++ [message]) := by
  intro before other after heq
  rcases List.eq_nil_or_concat' after with rfl | ⟨rest, last, rfl⟩
  · obtain ⟨rfl, hmessage⟩ := List.append_inj' heq rfl
    obtain rfl := List.singleton_inj.mp hmessage
    exact ⟨hprev, hlt⟩
  · rw [← List.cons_append, ← List.append_assoc] at heq
    exact hlinked before other rest (List.append_inj' heq rfl).1

/-- What holds between the calls: the messages are linked, and the factory remembers the last
reference of every chain, which is the greatest. -/
structure Invariant (state : State) : Prop where
  linked : Linked state.messages
  remembered : ∀ partition msgChainId,
    state.factory.prevMsgRefs.get? (formLookupKey partition msgChainId) =
      lastRef state.messages (partition, msgChainId)
  greatest : ∀ message ∈ state.messages, ∃ last,
    lastRef state.messages message.chain = some last ∧ message.ref ≤ last

theorem Invariant.initial : Invariant State.initial where
  linked := by
    intro before message after heq
    exact absurd heq.symm (List.append_ne_nil_of_right_ne_nil _ (List.cons_ne_nil _ _))
  remembered _ _ := rfl
  greatest := nofun

/-- A message is created from what was written. -/
theorem Invariant.append {state : State} (hinvariant : Invariant state)
    {enchained : Enchained} {written last : Factory} {message : StreamMessage}
    (hwritten : Written state.factory written enchained) (hcreated : CreatedFrom enchained message)
    (hrefs : last.prevMsgRefs = written.prevMsgRefs) :
    Invariant ⟨last, state.messages ++ [message]⟩ := by
  have hprev : message.prevMsgRef = lastRef state.messages message.chain := by
    rw [hcreated.prevMsgRef, hwritten.prevMsgRef, hcreated.chain]
    exact hinvariant.remembered _ _
  have hlt (earlier : StreamMessage) (hmem : earlier ∈ state.messages)
      (hchain : earlier.chain = message.chain) : earlier.ref < message.ref := by
    obtain ⟨greatest, hgreatest, hle⟩ := hinvariant.greatest earlier hmem
    rw [hchain, ← hprev, hcreated.prevMsgRef] at hgreatest
    exact hcreated.ref ▸ hle.trans_lt (hwritten.lt greatest hgreatest)
  refine ⟨hinvariant.linked.append hprev hlt, fun partition msgChainId ↦ ?_, fun other hother ↦ ?_⟩
  · rw [lastRef_append, hcreated.chain, hcreated.ref]
    dsimp only
    rw [hrefs, hwritten.prevMsgRefs, ← hinvariant.remembered]
    split_ifs with hchain
    · obtain ⟨rfl, rfl⟩ := Prod.mk.inj hchain
      exact OrderedMap.get?_set_self _ _ _
    · exact OrderedMap.get?_set_of_ne _ _ fun hkey ↦ hchain (formLookupKey_inj hkey).symm
  · rw [lastRef_append]
    rcases List.mem_append.mp hother with hold | hnew
    · split_ifs with hchain
      · exact ⟨message.ref, rfl, (hlt other hold hchain.symm).le⟩
      · exact hinvariant.greatest other hold
    · obtain rfl := List.mem_singleton.mp hnew
      exact ⟨other.ref, if_pos rfl, le_rfl⟩

theorem Invariant.step {config : Config} {state after : State} {call : Call}
    (hinvariant : Invariant state) (hcompletes : CompletesChained config state call)
    (hstep : step config state call = some after) : Invariant after := by
  unfold MessageFactory.step at hstep
  rw [createMessage, Throwing.exec_bind] at hstep
  rcases enchain_cases config call state.factory with
    ⟨error, factory, hexec, hrefs⟩ | ⟨enchained, factory, hexec, hwritten, hpartition⟩
  · rw [hexec, Option.some.injEq] at hstep
    subst hstep
    exact ⟨hinvariant.linked, fun partition msgChainId ↦ by rw [hrefs, hinvariant.remembered],
      hinvariant.greatest⟩
  · have hcompletes := hcompletes (by rw [writesRef, hexec]; rfl)
    have hexplicit : call.explicitPartition.all (0 ≤ ·) = true := by
      simp only [completes, Bool.and_eq_true] at hcompletes
      exact hcompletes.1.1.1.1
    rw [← hwritten.firstMessage] at hcompletes
    obtain ⟨message, last, hcomplete, hcreated, hrefs⟩ :=
      exec_complete hcompletes (hpartition hexplicit) hwritten.lt
    rw [hexec] at hstep
    dsimp only at hstep
    rw [hcomplete, Option.some.injEq] at hstep
    subst hstep
    exact hinvariant.append hwritten hcreated hrefs

/-- In every run whose calls all return the message once its reference is written, every message
names the one before it in its chain, and the references of a chain increase strictly. -/
theorem linked_of_completesChained (config : Config) {state : State}
    (hreachable : Transition.Reachable (step config) (CompletesChained config)
      (· = State.initial) state) : Linked state.messages := by
  have hinvariant := hreachable.invariant (fun _ heq ↦ heq ▸ Invariant.initial)
    fun _ _ _ _ hbefore hcompletes hstep ↦ hbefore.step hcompletes hstep
  exact hinvariant.linked

/-! ### Runs with calls that fail -/

def publicStream : Config := ⟨"stream", true, true, false⟩

/-- A call for a public stream, with the answer to the lookup that follows the write. -/
def publishAt (timestamp : ℚ) (isPublisher hasPublicSubscribePermission : Option Bool) : Call where
  contentType := .json
  timestamp := timestamp
  partitionKey := none
  msgChainId := none
  hasErc1271Contract := false
  explicitPartition := none
  answers := {
    publisherId := some "publisher"
    isStreamPublisher := isPublisher
    partitionCount := some 1
    randomPartition := 0
    randomMsgChainId := "chain"
    hasPublicSubscribePermission := hasPublicSubscribePermission
    rawContent := some []
    useGroupKey := none
    signature := some []
    signatureIsValid := true }

/-- The references of the messages and of those before them. -/
def State.links (state : State) : List (MessageRef × Option MessageRef) :=
  state.messages.map fun message ↦ (message.ref, message.prevMsgRef)

/-- Between two messages of one timestamp, a call fails before the write: the messages are
linked. -/
theorem linked_of_completesChained_deniedBetween : ∃ state,
    Transition.checkedRun (step publicStream)
        (fun state call ↦ CompletesChained publicStream state call) State.initial
        [publishAt 1 (some true) (some true), publishAt 2 (some false) none,
          publishAt 1 (some true) (some true)] = some state ∧
      state.links = [(⟨1, 0⟩, none), (⟨1, 1⟩, some ⟨1, 0⟩)] ∧ Linked state.messages := by
  have hrun : (Transition.checkedRun (step publicStream)
      (fun state call ↦ CompletesChained publicStream state call) State.initial
      [publishAt 1 (some true) (some true), publishAt 2 (some false) none,
        publishAt 1 (some true) (some true)]).map State.links =
      some [(⟨1, 0⟩, none), (⟨1, 1⟩, some ⟨1, 0⟩)] := by
    decide +kernel
  obtain ⟨state, hstate, hlinks⟩ := Option.map_eq_some_iff.mp hrun
  have hreachable : Transition.Reachable (step publicStream) (CompletesChained publicStream)
      (· = State.initial) state :=
    .of_checkedRun _ (fun _ _ ↦ of_decide_eq_true) (.start rfl) hstate
  exact ⟨state, hstate, hlinks, linked_of_completesChained publicStream hreachable⟩

/-- The first call fails when the permission of the public is looked up: the only message that is
created names one that was never published. -/
theorem unlinked_after_failure : ∃ state,
    Transition.Reachable (step publicStream) (fun _ _ ↦ True) (· = State.initial) state ∧
      state.links = [(⟨2, 0⟩, some ⟨1, 0⟩)] ∧ ¬ Linked state.messages := by
  have hrun : (Transition.run (step publicStream) State.initial
      [publishAt 1 (some true) none, publishAt 2 (some true) (some true)]).map State.links =
      some [(⟨2, 0⟩, some ⟨1, 0⟩)] := by
    decide +kernel
  obtain ⟨state, hstate, hlinks⟩ := Option.map_eq_some_iff.mp hrun
  refine ⟨state, .of_run _ (fun _ _ _ ↦ trivial) (.start rfl) hstate, hlinks, fun hlinked ↦ ?_⟩
  obtain ⟨message, hmessage, hlink⟩ := List.map_eq_singleton_iff.mp hlinks
  have hnone := (hlinked [] message [] hmessage).1
  rw [(Prod.mk.inj hlink).2] at hnone
  cases hnone

end PomboStorageNode.Sdk.MessageFactory
