import PomboStorageNode.Storage.Bucket
import PomboStorageNode.Storage.PomboGates
import PomboStorageNode.Storage.SignedRequest

/-!
# The purge endpoint

A purge request names up to a hundred messages of a stream partition, each by timestamp and
sequence number, and carries the signature of the account that asks. `createContext` decides once,
from three lookups on the chain that can each fail, whether the account is an administrator of the
stream and whether authors may delete their own messages there; the handler then works through the
targets, looks up the rows of each one and deletes them all or none.

`Removable` says what the tables before the request allow to be removed. Deleting the rows of a
target changes what a later, repeated target finds, but never the rows at another one, so the
tables before the request decide about the whole loop: `purge_removes_only_authorised`. Any
statement on the database can fail, which ends the request where it is.
-/

set_option autoImplicit false

namespace PomboStorageNode.Storage.PurgeEndpoint

open Library Utils Tables BucketManager SignedRequest PomboGates

/-! ### Targets -/

/-- `MAX_TARGETS`. -/
def maxTargets : ℕ := 100

/-- An element of the list of targets in the body. -/
structure RawTarget where
  timestamp : JsValue
  sequenceNumber : JsValue

/-- `PurgeTarget`. -/
structure PurgeTarget where
  timestamp : ℤ
  sequenceNumber : ℤ
  deriving DecidableEq

/-- `PurgeResult`. -/
inductive PurgeResult
  | deleted
  | forbidden
  | notFound
  deriving DecidableEq

/-- `Number.isInteger`, with the integer. -/
def isInteger : JsValue → Option ℤ
  | .number (.finite value) => if value.den = 1 then some value.num else none
  | _ => none

/-- `isTarget`: the target, if the value is one. -/
def isTarget (value : RawTarget) : Option PurgeTarget := do
  let timestamp ← isInteger value.timestamp
  let sequenceNumber ← isInteger value.sequenceNumber
  if 0 ≤ sequenceNumber then some ⟨timestamp, sequenceNumber⟩ else none

/-- `targetToLine`. -/
def targetToLine {Number : Type*} (numberToString : Number → String)
    (timestamp sequenceNumber : Number) : String :=
  numberToString timestamp ++ ":" ++ numberToString sequenceNumber

/-! ### Who may delete -/

/-- How the lookups of one request end; `none` is a lookup that failed. -/
structure Lookups where
  hasPermission : String → EthereumAddress → Option Bool
  getGate : String → Option (Option GateInfo)
  isModerator : EthereumAddress → EthereumAddress → Option Bool

/-- The decision that a request is handled under. -/
structure PurgeContext where
  admin : Bool
  authorRuleApplies : Bool
  deriving DecidableEq

/-- `createContext`. The variables keep what was assigned to them before a lookup failed. -/
def createContext (lookups : Lookups) (streamId : String) (signer : EthereumAddress) :
    PurgeContext :=
  let admin := (lookups.hasPermission streamId signer).getD false
  match lookups.getGate streamId with
  | none => ⟨admin, false⟩
  | some none => ⟨admin, true⟩
  | some (some gate) =>
    if admin then ⟨true, gate.visible⟩
    else if signer = gate.owner then ⟨true, gate.visible⟩
    else match lookups.isModerator gate.address signer with
      | some moderator => ⟨moderator, gate.visible⟩
      | none => ⟨false, false⟩

/-- `StoredRow`. -/
structure StoredRow where
  bucketId : BucketId
  timestamp : ℤ
  sequenceNo : SequenceNumber
  publisherId : String
  msgChainId : String
  payload : Option (List UInt8)
  storedAt : Option ℤ
  deriving DecidableEq

/-- `isAuthor`, where `messageSigner` is the signer of a stored message, and `none` when the payload
does not decode or the signer cannot be recovered. -/
def isAuthor (messageSigner : Option (List UInt8) → Option String) (rows : List StoredRow)
    (signer : EthereumAddress) : Bool :=
  rows.all fun row ↦ messageSigner row.payload = some signer.text

/-! ### The rows of a target -/

/-- The database: the tables, and how many more statements succeed before one fails; `none` when
none of them fails. -/
structure Database where
  buckets : BucketTable
  data : StreamData
  statementsLeft : Option ℕ

/-- One statement: it fails when no more statements succeed. -/
def Database.execute (database : Database) : Option Database :=
  match database.statementsLeft with
  | none => some database
  | some 0 => none
  | some (left + 1) => some { database with statementsLeft := some left }

/-- The stream part of a path, if rows can be kept under it: a partition may be parsed as a
negative number, and no row has one. -/
def streamPart? (streamId : String) (partition : ℤ) : Option StreamPart :=
  if hne : streamId ≠ "" then
    if 0 ≤ partition then some ⟨streamId, partition.toNat, hne⟩ else none
  else none

/-- A row as `getMessages` returns it. -/
def storedRowOf (row : DataRow) : StoredRow where
  bucketId := row.1.bucketId
  timestamp := row.1.timestamp
  sequenceNo := row.1.sequenceNo
  publisherId := row.1.publisherId
  msgChainId := row.1.msgChainId
  payload := row.2.payload
  storedAt := row.2.storedAt

/-- The rows that `getMessages` finds in the tables. -/
def rowsAt (options : BucketManagerOptions) (now : ℤ) (buckets : BucketTable) (data : StreamData)
    (streamPart : StreamPart) (target : PurgeTarget) : List DataRow :=
  match bucketIdsInRange options now buckets streamPart (target.timestamp - bucketLookbackMs)
      target.timestamp with
  | .ok bucketIds =>
    if bucketIds.length = 0 then []
    else data.select streamPart bucketIds fun key ↦
      key.timestamp = target.timestamp ∧ key.sequenceNo.val = target.sequenceNumber
  | .error _ => []

/-- `getMessages`: the lookup of the buckets and the query, either of which can fail. -/
def getMessages (options : BucketManagerOptions) (now : ℤ) (database : Database)
    (streamPart : Option StreamPart) (target : PurgeTarget) :
    Option (List StoredRow) × Database :=
  match database.execute with
  | none => (none, database)
  | some afterLookup =>
    match streamPart with
    | none => (some [], afterLookup)
    | some part =>
      match afterLookup.execute with
      | none => (none, afterLookup)
      | some afterQuery =>
        (some ((rowsAt options now database.buckets database.data part target).map storedRowOf),
          afterQuery)

/-- The key by which `deleteMessage` deletes a row. -/
def keyOfRow (streamPart : StreamPart) (row : StoredRow) : DataKey where
  streamPart := streamPart
  bucketId := row.bucketId
  timestamp := row.timestamp
  sequenceNo := row.sequenceNo
  publisherId := row.publisherId
  msgChainId := row.msgChainId

/-- `deleteMessage`. -/
def deleteMessage (database : Database) (streamPart : Option StreamPart) (row : StoredRow) :
    Option Database :=
  database.execute.map fun after ↦
    match streamPart with
    | some part => { after with data := after.data.delete (keyOfRow part row) }
    | none => after

/-- The loop over the rows of a target, with `false` when a statement failed. -/
def deleteMessages (streamPart : Option StreamPart) : Database → List StoredRow → Bool × Database
  | database, [] => (true, database)
  | database, row :: rows =>
    match deleteMessage database streamPart row with
    | none => (false, database)
    | some after => deleteMessages streamPart after rows

/-! ### The handler -/

/-- What stays the same during one request. -/
structure PurgeRequest where
  options : BucketManagerOptions
  now : ℤ
  messageSigner : Option (List UInt8) → Option String
  streamPart : Option StreamPart
  signer : EthereumAddress
  context : PurgeContext

/-- One round of the loop over the targets; the result is `none` when a statement failed. -/
def purgeTarget (request : PurgeRequest) (database : Database) (target : PurgeTarget) :
    Option PurgeResult × Database :=
  match getMessages request.options request.now database request.streamPart target with
  | (none, after) => (none, after)
  | (some rows, after) =>
    if rows.length = 0 then (some .notFound, after)
    else if request.context.admin = true ∨ (request.context.authorRuleApplies = true ∧
        isAuthor request.messageSigner rows request.signer = true) then
      match deleteMessages request.streamPart after rows with
      | (true, final) => (some .deleted, final)
      | (false, final) => (none, final)
    else (some .forbidden, after)

/-- The loop over the targets. -/
def purgeTargets (request : PurgeRequest) :
    Database → List PurgeTarget → Option (List (PurgeTarget × PurgeResult)) × Database
  | database, [] => (some [], database)
  | database, target :: targets =>
    match purgeTarget request database target with
    | (none, after) => (none, after)
    | (some result, after) =>
      match purgeTargets request after targets with
      | (none, final) => (none, final)
      | (some results, final) => (some ((target, result) :: results), final)

/-- What the handler is created with: the host functions of the verifier, the lookups on the chain,
the signer of a stored message and the options of the bucket manager. -/
structure Endpoint where
  host : Host
  lookups : Lookups
  messageSigner : Option (List UInt8) → Option String
  options : BucketManagerOptions

/-- A request, at the clock value `now`: the parameters of the path, where `partition` is `none`
when its text is not a number, and the body, where `targets` is `none` when it is not a list. -/
structure HttpRequest where
  now : ℤ
  streamId : String
  partitionText : String
  partition : Option ℤ
  targets : Option (List RawTarget)
  envelope : Option RawEnvelope

/-- What the handler answers: a status with an error, the results, or a rejected promise. -/
inductive PurgeResponse
  | status (code : ℕ) (error : String)
  | results (results : List (PurgeTarget × PurgeResult))
  | failed

/-- A request that passed the checks in front of the loop. -/
structure AdmittedRequest where
  partition : ℤ
  targets : List PurgeTarget
  signer : EthereumAddress

/-- The targets of a body: a list of one to a hundred of them. -/
def targetsOf (targets : Option (List RawTarget)) : Option (List PurgeTarget) := do
  let values ← targets
  if values.length = 0 ∨ maxTargets < values.length then none else values.mapM isTarget

/-- The checks of the handler in front of the loop, and the verifier after them. -/
def admitRequest (endpoint : Endpoint) (verifier : SignedRequestVerifier) (request : HttpRequest) :
    Except PurgeResponse AdmittedRequest × SignedRequestVerifier :=
  match request.partition with
  | none => (.error (.status 400
      ("Path parameter \"partition\" not a number: " ++ request.partitionText)), verifier)
  | some partition =>
    match targetsOf request.targets with
    | none => (.error (.status 400
        "Body must carry 1-100 targets of \x7btimestamp, sequenceNumber\x7d"), verifier)
    | some targets =>
      match verify endpoint.host verifier ⟨request.now, request.envelope, "purge",
          request.streamId, partition,
          targets.map fun target ↦ targetToLine endpoint.host.numberToString
            (.finite target.timestamp) (.finite target.sequenceNumber)⟩ with
      | (.error message, after) => (.error (.status 401 message), after)
      | (.ok signer, after) => (.ok ⟨partition, targets, signer⟩, after)

/-- The fixed data of the loop for an admitted request. -/
def purgeRequestOf (endpoint : Endpoint) (request : HttpRequest) (admitted : AdmittedRequest) :
    PurgeRequest where
  options := endpoint.options
  now := request.now
  messageSigner := endpoint.messageSigner
  streamPart := streamPart? request.streamId admitted.partition
  signer := admitted.signer
  context := createContext endpoint.lookups request.streamId admitted.signer

/-- The handler that `createHandler` makes. -/
def handle (endpoint : Endpoint) (verifier : SignedRequestVerifier) (database : Database)
    (request : HttpRequest) : PurgeResponse × SignedRequestVerifier × Database :=
  match admitRequest endpoint verifier request with
  | (.error response, after) => (response, after, database)
  | (.ok admitted, after) =>
    match purgeTargets (purgeRequestOf endpoint request admitted) database admitted.targets with
    | (none, final) => (.failed, after, final)
    | (some results, final) => (.results results, after, final)

/-! ### What may be removed -/

/-- The account was confirmed to hold the permission `DELETE`, or to own or moderate the gate. -/
def ConfirmedAdmin (lookups : Lookups) (streamId : String) (signer : EthereumAddress) : Prop :=
  lookups.hasPermission streamId signer = some true ∨
    ∃ gate, lookups.getGate streamId = some (some gate) ∧
      (signer = gate.owner ∨ lookups.isModerator gate.address signer = some true)

/-- The gate lookup succeeded, with no gate or with a visible one. -/
def AuthorsMayDelete (lookups : Lookups) (streamId : String) : Prop :=
  lookups.getGate streamId = some none ∨
    ∃ gate, lookups.getGate streamId = some (some gate) ∧ gate.visible = true

/-- The context is what the lookups confirm. -/
theorem createContext_spec (lookups : Lookups) (streamId : String) (signer : EthereumAddress) :
    ((createContext lookups streamId signer).admin = true →
        ConfirmedAdmin lookups streamId signer) ∧
      ((createContext lookups streamId signer).authorRuleApplies = true →
        AuthorsMayDelete lookups streamId) := by
  have hpermission : (lookups.hasPermission streamId signer).getD false = true →
      lookups.hasPermission streamId signer = some true := by
    cases lookups.hasPermission streamId signer with
    | none => simp
    | some granted => simp
  unfold createContext ConfirmedAdmin AuthorsMayDelete
  cases hgate : lookups.getGate streamId with
  | none => simpa using hpermission
  | some found =>
    cases found with
    | none => simpa using hpermission
    | some gate =>
      dsimp only
      split_ifs with hadmin howner
      · simp [hpermission hadmin]
      · simp [howner]
      · cases hmoderator : lookups.isModerator gate.address signer with
        | none => simp
        | some moderator =>
          cases moderator with
          | true => simp [hmoderator]
          | false => simp

/-- What the tables before a request allow to be removed: a row of the stream part at one of the
targets, when the account is an administrator, or when authors may delete and every row found at
that target is signed by the account. -/
def Removable (endpoint : Endpoint) (request : HttpRequest) (admitted : AdmittedRequest)
    (database : Database) (key : DataKey) : Prop :=
  streamPart? request.streamId admitted.partition = some key.streamPart ∧
    ∃ target ∈ admitted.targets, key.timestamp = target.timestamp ∧
      key.sequenceNo.val = target.sequenceNumber ∧
      (ConfirmedAdmin endpoint.lookups request.streamId admitted.signer ∨
        (AuthorsMayDelete endpoint.lookups request.streamId ∧
          ∀ row ∈ rowsAt endpoint.options request.now database.buckets database.data
            key.streamPart target, endpoint.messageSigner row.2.payload =
              some admitted.signer.text))

/-! ### One target -/

theorem Database.execute_eq_some {database after : Database}
    (hexecute : database.execute = some after) :
    after.buckets = database.buckets ∧ after.data = database.data := by
  unfold Database.execute at hexecute
  split at hexecute <;> cases hexecute <;> exact ⟨rfl, rfl⟩

/-- The rows found at a target are those of the stream part at it in the buckets of its lookup. -/
theorem mem_rowsAt_iff {options : BucketManagerOptions} {now : ℤ} {buckets : BucketTable}
    {streamPart : StreamPart} {target : PurgeTarget} {bucketIds : List BucketId}
    (hids : bucketIdsInRange options now buckets streamPart (target.timestamp - bucketLookbackMs)
      target.timestamp = .ok bucketIds) (data : StreamData) (row : DataRow) :
    row ∈ rowsAt options now buckets data streamPart target ↔ row ∈ data.entries ∧
      row.1.streamPart = streamPart ∧ row.1.bucketId ∈ bucketIds ∧
      row.1.timestamp = target.timestamp ∧ row.1.sequenceNo.val = target.sequenceNumber := by
  simp only [rowsAt, hids]
  split_ifs with hempty
  · rw [List.eq_nil_of_length_eq_zero hempty]
    simp
  · rw [StreamData.mem_select, decide_eq_true_eq]

/-- The buckets of the lookup do not depend on the data. -/
theorem mem_rowsAt (options : BucketManagerOptions) (now : ℤ) (buckets : BucketTable)
    (streamPart : StreamPart) (target : PurgeTarget) : ∃ bucketIds : List BucketId,
    ∀ (data : StreamData) (row : DataRow),
      row ∈ rowsAt options now buckets data streamPart target ↔ row ∈ data.entries ∧
        row.1.streamPart = streamPart ∧ row.1.bucketId ∈ bucketIds ∧
        row.1.timestamp = target.timestamp ∧ row.1.sequenceNo.val = target.sequenceNumber := by
  obtain ⟨bucketIds, hids, -⟩ := bucketIdsInRange_spec options now buckets streamPart
    (target.timestamp - bucketLookbackMs) target.timestamp
  exact ⟨bucketIds, mem_rowsAt_iff hids⟩

/-- `getMessages` leaves the tables alone and returns the rows found at the target. -/
theorem getMessages_spec {options : BucketManagerOptions} {now : ℤ} {database after : Database}
    {streamPart : Option StreamPart} {target : PurgeTarget} {result : Option (List StoredRow)}
    (hget : getMessages options now database streamPart target = (result, after)) :
    after.buckets = database.buckets ∧ after.data = database.data ∧
      ∀ rows part, result = some rows → streamPart = some part → rows =
        (rowsAt options now database.buckets database.data part target).map storedRowOf := by
  unfold getMessages at hget
  split at hget
  · obtain ⟨rfl, rfl⟩ := Prod.mk.inj hget
    exact ⟨rfl, rfl, fun rows part hrows ↦ by cases hrows⟩
  · rename_i afterLookup hlookup
    obtain ⟨hlookupBuckets, hlookupData⟩ := Database.execute_eq_some hlookup
    split at hget
    · obtain ⟨rfl, rfl⟩ := Prod.mk.inj hget
      exact ⟨hlookupBuckets, hlookupData, fun rows part _ hpart ↦ by cases hpart⟩
    · split at hget
      · obtain ⟨rfl, rfl⟩ := Prod.mk.inj hget
        exact ⟨hlookupBuckets, hlookupData, fun rows part hrows ↦ by cases hrows⟩
      · rename_i afterQuery hquery
        obtain ⟨hqueryBuckets, hqueryData⟩ := Database.execute_eq_some hquery
        obtain ⟨rfl, rfl⟩ := Prod.mk.inj hget
        refine ⟨hqueryBuckets.trans hlookupBuckets, hqueryData.trans hlookupData,
          fun rows part hrows hpart ↦ ?_⟩
        obtain rfl := Option.some.inj hpart
        exact (Option.some.inj hrows).symm

/-- Deleting rows touches no row but these, by their keys. -/
theorem deleteMessages_spec {streamPart : Option StreamPart} {database after : Database}
    {rows : List StoredRow} {finished : Bool}
    (hdelete : deleteMessages streamPart database rows = (finished, after)) :
    after.buckets = database.buckets ∧ ∀ key, after.data.get? key = database.data.get? key ∨
      (after.data.get? key = none ∧ ∃ row ∈ rows, ∃ part, streamPart = some part ∧
        key = keyOfRow part row) := by
  induction rows generalizing database with
  | nil =>
    obtain ⟨-, rfl⟩ := Prod.mk.inj hdelete
    exact ⟨rfl, fun _ ↦ Or.inl rfl⟩
  | cons row rows ih =>
    rw [deleteMessages] at hdelete
    split at hdelete
    · obtain ⟨-, rfl⟩ := Prod.mk.inj hdelete
      exact ⟨rfl, fun _ ↦ Or.inl rfl⟩
    · rename_i next hnext
      obtain ⟨executed, hexecuted, rfl⟩ := Option.map_eq_some_iff.mp hnext
      obtain ⟨hexecutedBuckets, hexecutedData⟩ := Database.execute_eq_some hexecuted
      obtain ⟨hbuckets, hkeys⟩ := ih hdelete
      cases streamPart with
      | none =>
        refine ⟨hbuckets.trans hexecutedBuckets, fun key ↦ ?_⟩
        rcases hkeys key with hsame | ⟨-, -, -, part, hpart, -⟩
        · exact Or.inl (hsame.trans (by rw [hexecutedData]))
        · cases hpart
      | some part =>
        refine ⟨hbuckets.trans hexecutedBuckets, fun key ↦ ?_⟩
        rcases hkeys key with hsame | ⟨hnone, other, hother, found⟩
        · simp only [hexecutedData] at hsame
          by_cases heq : key = keyOfRow part row
          · refine Or.inr ⟨?_, row, List.mem_cons_self, part, rfl, heq⟩
            rw [hsame, heq]
            exact OrderedMap.get?_delete_self _ _
          · exact Or.inl (hsame.trans (OrderedMap.get?_delete_of_ne _ heq))
        · exact Or.inr ⟨hnone, other, List.mem_cons_of_mem _ hother, found⟩

/-- The decision about the rows of a target, on the tables in which they are looked up. -/
def Entitled (request : PurgeRequest) (database : Database) (streamPart : StreamPart)
    (target : PurgeTarget) : Prop :=
  request.context.admin = true ∨ (request.context.authorRuleApplies = true ∧
    ∀ row ∈ rowsAt request.options request.now database.buckets database.data streamPart target,
      request.messageSigner row.2.payload = some request.signer.text)

theorem isAuthor_iff {messageSigner : Option (List UInt8) → Option String} {rows : List DataRow}
    {signer : EthereumAddress} : isAuthor messageSigner (rows.map storedRowOf) signer = true ↔
      ∀ row ∈ rows, messageSigner row.2.payload = some signer.text := by
  rw [isAuthor, List.all_eq_true, List.forall_mem_map]
  exact forall₂_congr fun row _ ↦ decide_eq_true_iff

/-- One round of the loop: it removes rows of the stream part at the target, all of which it found,
and only with the right to; a target that is not answered as deleted, and whose statements did not
fail, removes nothing. -/
theorem purgeTarget_spec {request : PurgeRequest} {database after : Database}
    {target : PurgeTarget} {result : Option PurgeResult}
    (hpurge : purgeTarget request database target = (result, after)) :
    after.buckets = database.buckets ∧
      (result = some .notFound ∨ result = some .forbidden → after.data = database.data) ∧
      ∀ key, after.data.get? key = database.data.get? key ∨ (after.data.get? key = none ∧
        request.streamPart = some key.streamPart ∧ key.timestamp = target.timestamp ∧
        key.sequenceNo.val = target.sequenceNumber ∧
        Entitled request database key.streamPart target) := by
  unfold purgeTarget at hpurge
  split at hpurge
  · rename_i afterGet hget
    obtain ⟨hbuckets, hdata, -⟩ := getMessages_spec hget
    obtain ⟨rfl, rfl⟩ := Prod.mk.inj hpurge
    exact ⟨hbuckets, fun _ ↦ hdata, fun _ ↦ Or.inl (by rw [hdata])⟩
  · rename_i rows afterGet hget
    obtain ⟨hbuckets, hdata, hrows⟩ := getMessages_spec hget
    replace hrows := fun part ↦ hrows rows part rfl
    split_ifs at hpurge with hempty hallowed
    · obtain ⟨rfl, rfl⟩ := Prod.mk.inj hpurge
      exact ⟨hbuckets, fun _ ↦ hdata, fun _ ↦ Or.inl (by rw [hdata])⟩
    · -- the rows are deleted, completely or up to a failed statement
      obtain ⟨finished, final, hdelete⟩ : ∃ finished final,
          deleteMessages request.streamPart afterGet rows = (finished, final) :=
        ⟨_, _, rfl⟩
      obtain ⟨hdeleteBuckets, hkeys⟩ := deleteMessages_spec hdelete
      have hfinal : after = final ∧ result ≠ some .notFound ∧ result ≠ some .forbidden := by
        rw [hdelete] at hpurge
        cases finished with
        | true =>
          obtain ⟨rfl, rfl⟩ := Prod.mk.inj hpurge
          exact ⟨rfl, by decide, by decide⟩
        | false =>
          obtain ⟨rfl, rfl⟩ := Prod.mk.inj hpurge
          exact ⟨rfl, by decide, by decide⟩
      obtain ⟨rfl, hnotFound, hforbidden⟩ := hfinal
      refine ⟨hdeleteBuckets.trans hbuckets, fun hresult ↦ absurd hresult
        (not_or.mpr ⟨hnotFound, hforbidden⟩), fun key ↦ ?_⟩
      rcases hkeys key with hsame | ⟨hnone, row, hrow, part, hpart, rfl⟩
      · exact Or.inl (by rw [hsame, hdata])
      · obtain rfl := hrows part hpart
        obtain ⟨found, hfound, rfl⟩ := List.mem_map.mp hrow
        obtain ⟨bucketIds, hmem⟩ := mem_rowsAt request.options request.now database.buckets part
          target
        obtain ⟨-, hfoundPart, -, htimestamp, hsequence⟩ := (hmem _ _).mp hfound
        refine Or.inr ⟨hnone, hpart, htimestamp, hsequence, ?_⟩
        exact hallowed.imp id fun hrule ↦ ⟨hrule.1, isAuthor_iff.mp hrule.2⟩
    · obtain ⟨rfl, rfl⟩ := Prod.mk.inj hpurge
      exact ⟨hbuckets, fun _ ↦ hdata, fun _ ↦ Or.inl (by rw [hdata])⟩

/-! ### The loop -/

/-- What the rounds so far did to the tables before the request: every row is as it was, or was
removed at one of the targets with a right that the tables before the request give. -/
structure RemovesOnlyEntitled (request : PurgeRequest) (before after : Database)
    (targets : List PurgeTarget) : Prop where
  buckets : after.buckets = before.buckets
  rows : ∀ key, after.data.get? key = before.data.get? key ∨ (after.data.get? key = none ∧
    request.streamPart = some key.streamPart ∧ ∃ target ∈ targets,
      key.timestamp = target.timestamp ∧ key.sequenceNo.val = target.sequenceNumber ∧
      Entitled request before key.streamPart target)

/-- A right that the tables during the loop give was given by the tables before it: a row of the
target that is missing by now was removed with that right. -/
theorem RemovesOnlyEntitled.entitled {request : PurgeRequest} {before during : Database}
    {targets : List PurgeTarget} (hsofar : RemovesOnlyEntitled request before during targets)
    {streamPart : StreamPart} {target : PurgeTarget}
    (hentitled : Entitled request during streamPart target) :
    Entitled request before streamPart target := by
  rcases hentitled with hadmin | ⟨hrule, hauthor⟩
  · exact Or.inl hadmin
  · by_cases hadmin : request.context.admin = true
    · exact Or.inl hadmin
    · refine Or.inr ⟨hrule, fun row hrow ↦ ?_⟩
      obtain ⟨bucketIds, hmem⟩ := mem_rowsAt request.options request.now before.buckets streamPart
        target
      obtain ⟨hentry, hpart, hbucket, htimestamp, hsequence⟩ := (hmem before.data row).mp hrow
      rcases hsofar.rows row.1 with hsame | ⟨-, -, other, -, hotherTime, hotherSequence, hright⟩
      · refine hauthor row ?_
        rw [hsofar.buckets]
        have hget := OrderedMap.get?_eq_some_iff.mpr hentry
        exact (hmem during.data row).mpr ⟨OrderedMap.get?_eq_some_iff.mp (hsame.trans hget),
          hpart, hbucket, htimestamp, hsequence⟩
      · obtain rfl : other = target := by
          obtain ⟨otherTimestamp, otherSequence⟩ := other
          obtain ⟨targetTimestamp, targetSequence⟩ := target
          simp only [PurgeTarget.mk.injEq]
          exact ⟨hotherTime.symm.trans htimestamp, hotherSequence.symm.trans hsequence⟩
        rcases hright with habsurd | ⟨-, hsigned⟩
        · exact absurd habsurd hadmin
        · rw [hpart] at hsigned
          exact hsigned row hrow

/-- A round keeps what the rounds so far did. -/
theorem RemovesOnlyEntitled.purgeTarget {request : PurgeRequest} {before during after : Database}
    {targets : List PurgeTarget} {target : PurgeTarget} {result : Option PurgeResult}
    (hsofar : RemovesOnlyEntitled request before during targets) (hmem : target ∈ targets)
    (hpurge : purgeTarget request during target = (result, after)) :
    RemovesOnlyEntitled request before after targets := by
  obtain ⟨hbuckets, -, hkeys⟩ := purgeTarget_spec hpurge
  refine ⟨hbuckets.trans hsofar.buckets, fun key ↦ ?_⟩
  rcases hkeys key with hsame | ⟨hnone, hpart, htimestamp, hsequence, hentitled⟩
  · rcases hsofar.rows key with hbefore | ⟨hnone, hremoved⟩
    · exact Or.inl (hsame.trans hbefore)
    · exact Or.inr ⟨hsame.trans hnone, hremoved⟩
  · exact Or.inr ⟨hnone, hpart, target, hmem, htimestamp, hsequence,
      hsofar.entitled hentitled⟩

/-- The whole loop removes only what the tables before it allow. -/
theorem RemovesOnlyEntitled.purgeTargets {request : PurgeRequest}
    {before during after : Database} {targets remaining : List PurgeTarget}
    {results : Option (List (PurgeTarget × PurgeResult))}
    (hsofar : RemovesOnlyEntitled request before during targets) (hsubset : remaining ⊆ targets)
    (hpurge : purgeTargets request during remaining = (results, after)) :
    RemovesOnlyEntitled request before after targets := by
  induction remaining generalizing during results with
  | nil =>
    obtain ⟨-, rfl⟩ := Prod.mk.inj hpurge
    exact hsofar
  | cons target remaining ih =>
    obtain ⟨htarget, hsubset⟩ := List.cons_subset.mp hsubset
    rw [PurgeEndpoint.purgeTargets] at hpurge
    split at hpurge
    · rename_i next hnext
      obtain ⟨-, rfl⟩ := Prod.mk.inj hpurge
      exact hsofar.purgeTarget htarget hnext
    · rename_i result next hnext
      have hround := hsofar.purgeTarget htarget hnext
      split at hpurge
      · rename_i final hfinal
        obtain ⟨-, rfl⟩ := Prod.mk.inj hpurge
        exact ih hround hsubset hfinal
      · rename_i rest final hfinal
        obtain ⟨-, rfl⟩ := Prod.mk.inj hpurge
        exact ih hround hsubset hfinal

/-- The table after the first rounds of the loop. -/
def tableAfter (request : PurgeRequest) (database : Database) (targets : List PurgeTarget)
    (rounds : ℕ) : StreamData :=
  (purgeTargets request database (targets.take rounds)).2.data

/-- The database after one round and some more. -/
theorem purgeTargets_cons_snd {request : PurgeRequest} {database next : Database}
    {target : PurgeTarget} {targets : List PurgeTarget} {result : PurgeResult}
    (hround : purgeTarget request database target = (some result, next)) :
    (purgeTargets request database (target :: targets)).2 =
      (purgeTargets request next targets).2 := by
  rw [purgeTargets, hround]
  simp only
  split <;> simp_all

/-- In a loop that ends, a target that is not answered as deleted removes nothing in its round. -/
theorem tableAfter_succ {request : PurgeRequest} {database after : Database}
    {targets : List PurgeTarget} {results : List (PurgeTarget × PurgeResult)}
    (hpurge : purgeTargets request database targets = (some results, after)) {round : ℕ}
    {target : PurgeTarget} {result : PurgeResult} (hresult : results[round]? = some (target, result))
    (hkept : result = .forbidden ∨ result = .notFound) :
    tableAfter request database targets (round + 1) =
      tableAfter request database targets round := by
  induction targets generalizing database results round with
  | nil =>
    obtain ⟨hnil, -⟩ := Prod.mk.inj hpurge
    rw [← Option.some.inj hnil] at hresult
    simp at hresult
  | cons first targets ih =>
    rw [purgeTargets] at hpurge
    split at hpurge
    · cases (Prod.mk.inj hpurge).1
    · rename_i firstResult next hround
      split at hpurge
      · cases (Prod.mk.inj hpurge).1
      · rename_i rest final hfinal
        obtain ⟨hresults, rfl⟩ := Prod.mk.inj hpurge
        obtain rfl := Option.some.inj hresults
        cases round with
        | zero =>
          rw [List.getElem?_cons_zero, Option.some.injEq, Prod.mk.injEq] at hresult
          obtain ⟨-, rfl⟩ := hresult
          have hsame := (purgeTarget_spec hround).2.1 (by
            rcases hkept with rfl | rfl
            · exact Or.inr rfl
            · exact Or.inl rfl)
          simp only [tableAfter, List.take_succ_cons, List.take_zero]
          rw [purgeTargets_cons_snd hround]
          exact hsame
        | succ round =>
          rw [List.getElem?_cons_succ] at hresult
          have hlater := ih hfinal hresult
          simp only [tableAfter, List.take_succ_cons] at hlater ⊢
          rw [purgeTargets_cons_snd hround, purgeTargets_cons_snd hround]
          exact hlater

/-! ### The request -/

/-- A right of the loop is what `Removable` asks for. -/
theorem removable_of_entitled {endpoint : Endpoint} {request : HttpRequest}
    {admitted : AdmittedRequest} {database : Database} {key : DataKey} {target : PurgeTarget}
    (hpart : (purgeRequestOf endpoint request admitted).streamPart = some key.streamPart)
    (hmem : target ∈ admitted.targets) (htimestamp : key.timestamp = target.timestamp)
    (hsequence : key.sequenceNo.val = target.sequenceNumber)
    (hentitled : Entitled (purgeRequestOf endpoint request admitted) database key.streamPart
      target) : Removable endpoint request admitted database key := by
  obtain ⟨hadmin, hrule⟩ :=
    createContext_spec endpoint.lookups request.streamId admitted.signer
  refine ⟨hpart, target, hmem, htimestamp, hsequence, ?_⟩
  exact hentitled.imp hadmin fun hauthor ↦ ⟨hrule hauthor.1, hauthor.2⟩

/-- What a purge request removes. A request that is not admitted changes nothing. An admitted one
keeps the bucket table, removes only rows that the tables before it allow to be removed and leaves
every other row as it was, also when a statement fails halfway; and a target that is answered with
`forbidden` or `not_found` removes nothing in its round of the loop. -/
theorem purge_removes_only_authorised (endpoint : Endpoint) (verifier : SignedRequestVerifier)
    (database : Database) (request : HttpRequest) :
    let outcome := handle endpoint verifier database request
    (∀ response, (admitRequest endpoint verifier request).1 = .error response →
      outcome.2.2 = database) ∧
    ∀ admitted, (admitRequest endpoint verifier request).1 = .ok admitted →
      outcome.2.2.buckets = database.buckets ∧
      (∀ key, outcome.2.2.data.get? key = database.data.get? key ∨
        (outcome.2.2.data.get? key = none ∧
          Removable endpoint request admitted database key)) ∧
      ∀ results, outcome.1 = .results results →
        outcome.2.2.data = tableAfter (purgeRequestOf endpoint request admitted) database
          admitted.targets admitted.targets.length ∧
        ∀ round target result, results[round]? = some (target, result) →
          result = .forbidden ∨ result = .notFound →
          tableAfter (purgeRequestOf endpoint request admitted) database admitted.targets
              (round + 1) =
            tableAfter (purgeRequestOf endpoint request admitted) database admitted.targets
              round := by
  unfold handle
  obtain ⟨outcome, afterVerify⟩ := admitRequest endpoint verifier request
  cases outcome with
  | error response =>
    refine ⟨fun _ _ ↦ rfl, fun admitted hadmitted ↦ ?_⟩
    cases hadmitted
  | ok found =>
    refine ⟨fun response hresponse ↦ (by cases hresponse), fun admitted hadmitted ↦ ?_⟩
    obtain rfl := Except.ok.inj hadmitted
    have hstart : RemovesOnlyEntitled (purgeRequestOf endpoint request found) database database
        found.targets := ⟨rfl, fun _ ↦ Or.inl rfl⟩
    dsimp only
    cases hpurge : purgeTargets (purgeRequestOf endpoint request found) database
        found.targets with
    | mk results final =>
      have hfinal := hstart.purgeTargets (List.Subset.refl _) hpurge
      have hkeys : ∀ key, final.data.get? key = database.data.get? key ∨
          (final.data.get? key = none ∧ Removable endpoint request found database key) := by
        intro key
        refine (hfinal.rows key).imp id ?_
        rintro ⟨hnone, hpart, target, hmem, htimestamp, hsequence, hentitled⟩
        exact ⟨hnone, removable_of_entitled hpart hmem htimestamp hsequence hentitled⟩
      cases results with
      | none => exact ⟨hfinal.buckets, hkeys, fun _ hresults ↦ by cases hresults⟩
      | some results =>
        refine ⟨hfinal.buckets, hkeys, fun other hother ↦ ?_⟩
        obtain rfl := PurgeResponse.results.inj hother
        refine ⟨?_, fun round target result hresult hkept ↦ tableAfter_succ hpurge hresult hkept⟩
        rw [tableAfter, List.take_length, hpurge]

end PomboStorageNode.Storage.PurgeEndpoint
